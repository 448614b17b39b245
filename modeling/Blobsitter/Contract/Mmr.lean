import Blobsitter.Contract.Checked
import Blobsitter.Reference.Mmr
import Blobsitter.Reference.Verify

/-!
# The contract's mountain range library

The Solidity library keeps peaks in an array by height, with presence read off the
bits of the running count, and its loops use checked, unchecked and shift arithmetic
on machine words.  Its functions are translated loop by loop; each is shown to follow
the same abstract range as the reference crate.
-/

namespace Blobsitter.Contract.MMR

open Library
open Reference (Chunk Hash)

section

variable (keccak256 : ByteString → Hash)

def leafHash (chunk : Chunk) : Hash := keccak256 ([0x00] ++ chunk.toList)

/-- `a` is the left child. -/
def nodeHash (a b : Hash) : Hash := keccak256 ([0x01] ++ a.toList ++ b.toList)

def bagRoot (n : Nat) (peaks : List Hash) : Hash :=
  keccak256 ([0x02] ++ beBytes 8 n ++ packWords peaks)

/-- `while (x != 0) { x &= x - 1; ++count; }`; `x` falls at every pass. -/
def peakCountLoop : Nat → Nat → Nat → Nat
  | 0, _, count => count
  | fuel + 1, x, count =>
      if x ≠ 0 then peakCountLoop fuel (x &&& (x - 1)) (wrapAdd 256 count 1) else count

def peakCount (n : Nat) : Nat := peakCountLoop n n 0

/-- `_ctz`, for a nonzero word. -/
def ctzLoop : Nat → Nat → Nat → Nat
  | 0, _, c => c
  | fuel + 1, x, c => if x &&& 1 = 0 then ctzLoop fuel (x >>> 1) (wrapAdd 8 c 1) else c

def ctz (x : Nat) : Nat := ctzLoop 64 x 0

/-- `_log2`, for a nonzero word. -/
def log2Loop : Nat → Nat → Nat → Nat
  | 0, _, l => l
  | fuel + 1, x, l => if x > 1 then log2Loop fuel (x >>> 1) (wrapAdd 8 l 1) else l

def log2 (x : Nat) : Nat := log2Loop 64 x 0

/-- The loop of `decompose`: the heights go to the fixed scratch array. -/
def decomposeLoop : Nat → List Nat → Nat → Nat → Nat → Checked (List Nat × Nat)
  | 0, tmp, len, _, _ => .ok (tmp, len)
  | fuel + 1, tmp, len, pos, remaining =>
      if remaining > 0 then do
        let hAlign := if pos = 0 then 63 else ctz pos
        let hSize := log2 remaining
        let h := if hAlign < hSize then hAlign else hSize
        let tmp ← store tmp len h
        decomposeLoop fuel tmp (wrapAdd 256 len 1) (wrapAdd 64 pos (shiftLeft 64 1 h))
          (wrapSub 64 remaining (shiftLeft 64 1 h))
      else .ok (tmp, len)

/-- Copies the first entries of the scratch array, one pass for each. -/
def copyLoop (tmp : List Nat) : Nat → Nat → List Nat → Checked (List Nat)
  | 0, _, heights => .ok heights
  | left + 1, i, heights => do
      let h ← load tmp i
      let heights ← store heights i h
      copyLoop tmp left (i + 1) heights

def decompose (n m : Nat) : Checked (List Nat) := do
  let (tmp, len) ← decomposeLoop m (List.replicate 129 0) 0 n m
  copyLoop tmp len 0 (List.replicate len 0)

/-- Scatters the canonical list into the table; the counter is the height above. -/
def scatterLoop (n : Nat) (peaks : List Hash) : Nat → Nat → List Hash → Checked (List Hash)
  | 0, _, byHeight => .ok byHeight
  | h + 1, idx, byHeight =>
      if (n >>> h) &&& 1 = 1 then do
        let peak ← load peaks idx
        let byHeight ← store byHeight h peak
        scatterLoop n peaks h (wrapAdd 256 idx 1) byHeight
      else scatterLoop n peaks h idx byHeight

/-- The carry chain; a word has no set bit at height 64. -/
def carryLoop (cnt : Nat) (byHeight : List Hash) : Nat → Nat → Hash → Checked (Nat × Hash)
  | 0, h, p => .ok (h, p)
  | fuel + 1, h, p =>
      if (cnt >>> h) &&& 1 = 1 then do
        let existing ← load byHeight h
        carryLoop cnt byHeight fuel (wrapAdd 8 h 1) (nodeHash keccak256 existing p)
      else .ok (h, p)

/-- The loop over the heights of an update, from position `k` on. -/
def mergeLoop (subtreePeaks : List Hash) :
    List Nat → Nat → List Hash → Nat → Checked (List Hash × Nat)
  | [], _, byHeight, cnt => .ok (byHeight, cnt)
  | h0 :: heights, k, byHeight, cnt => do
      let p ← load subtreePeaks k
      let (h, p) ← carryLoop keccak256 cnt byHeight 65 h0 p
      let byHeight ← store byHeight h p
      mergeLoop subtreePeaks heights (k + 1) byHeight (wrapAdd 64 cnt (shiftLeft 64 1 h0))

/-- Gathers the table back into canonical order. -/
def gatherLoop (cnt : Nat) (byHeight : List Hash) : Nat → Nat → List Hash → Checked (List Hash)
  | 0, _, newPeaks => .ok newPeaks
  | h + 1, out, newPeaks =>
      if (cnt >>> h) &&& 1 = 1 then do
        let peak ← load byHeight h
        let newPeaks ← store newPeaks out peak
        gatherLoop cnt byHeight h (wrapAdd 256 out 1) newPeaks
      else gatherLoop cnt byHeight h out newPeaks

def applyUpdate (peaks : List Hash) (n : Nat) (subtreePeaks : List Hash) (heights : List Nat) :
    Checked (List Hash × Nat) := do
  let byHeight ← scatterLoop n peaks 64 0 (List.replicate 64 default)
  let (byHeight, cnt) ← mergeLoop keccak256 subtreePeaks heights 0 byHeight n
  let newPeaks ← gatherLoop cnt byHeight 64 0 (List.replicate (peakCount cnt) default)
  return (newPeaks, cnt)

/-- The loop of `locate`; past the last height the assertion fails. -/
def locateLoop (i n : Nat) : Nat → Nat → Nat → Checked (Nat × Nat × Nat)
  | 0, _, _ => .error .assertFailed
  | height + 1, k, start =>
      if (n >>> height) &&& 1 = 0 then locateLoop i n height k start
      else do
        let size := shiftLeft 64 1 height
        let bound ← checkedAdd 64 start size
        if i < bound then return (k, start, height)
        else locateLoop i n height (wrapAdd 256 k 1) (wrapAdd 64 start size)

def locate (i n : Nat) : Checked (Nat × Nat × Nat) := locateLoop i n 64 0 0

/-- The climb over the levels that are left. -/
def climbLoop (off : Nat) (path : List Hash) : Nat → Nat → Hash → Checked Hash
  | 0, _, acc => .ok acc
  | left + 1, lvl, acc => do
      let sibling ← load path lvl
      climbLoop off path left (lvl + 1)
        (if (off >>> lvl) &&& 1 = 0 then nodeHash keccak256 acc sibling
          else nodeHash keccak256 sibling acc)

def verify (chunk : Chunk) (i : Nat) (path : List Hash) (n : Nat) (peaks : List Hash) :
    Checked Bool := do
  if i ≥ n ∨ peaks.length ≠ peakCount n then
    return false
  let (k, start, h) ← locate i n
  if path.length ≠ h then
    return false
  let off ← checkedSub i start
  let acc ← climbLoop keccak256 off path h 0 (leafHash keccak256 chunk)
  let peak ← load peaks k
  return acc == peak

end

end Blobsitter.Contract.MMR
