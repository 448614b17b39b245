import Blobsitter.Library.MerklePath
import Blobsitter.Library.MountainRange
import Blobsitter.Reference.Decompose
import Mathlib.Data.Nat.Bitwise

/-!
# Inclusion proofs of the reference crate

`locate` finds the peak over a leaf, `verify` climbs a path to it, and `PathBuilder`
rebuilds peaks and paths from the chunks, remembering the roots of tall subtrees.
-/

namespace Blobsitter.Reference

open Library

section

variable (keccak256 : ByteString → Hash)

/-- The loop of `locate` over the heights that are left. -/
def locateLoop (i : Nat) : List Nat → Nat → Nat → Except Fault (Nat × Nat × Nat)
  | [], _, _ => .error (.panic "peak_heights covers all leaves below n")
  | h :: rest, k, start =>
      if i < start + 2 ^ h then .ok (k, start, h) else locateLoop i rest (k + 1) (start + 2 ^ h)

/-- Peak index, first leaf of the subtree and peak height over leaf `i`. -/
def locate (i n : Nat) : Except Fault (Nat × Nat × Nat) :=
  if i < n then locateLoop i (peakHeights n) 0 0 else .error (.panic "leaf index out of range")

/-- What `locate` finds: the peak of a set bit whose block holds the leaf. -/
structure Covers (n i k start h : Nat) : Prop where
  index : (peakHeights n)[k]? = some h
  height : h < 64
  bit : n.testBit h = true
  startEq : start = blockStart n (h + 1)
  lower : start ≤ i
  upper : i < start + 2 ^ h

/-- The block of a covering peak lies below the leaf count. -/
theorem Covers.block_le {n i k start h : Nat} (hcovers : Covers n i k start h) :
    start + 2 ^ h ≤ n := by
  rw [hcovers.startEq]
  exact blockStart_succ_add_le hcovers.bit

theorem locateLoop_spec {n i : Nat} (hi : i < n) {width k : Nat} (hlo : blockStart n width ≤ i) :
    ∃ step h, locateLoop i (setBits width n).reverse k (blockStart n width) =
        .ok (k + step, blockStart n (h + 1), h) ∧
      (setBits width n).reverse[step]? = some h ∧ h < width ∧ n.testBit h = true ∧
      blockStart n (h + 1) ≤ i ∧ i < blockStart n (h + 1) + 2 ^ h := by
  induction width generalizing k with
  | zero =>
      unfold blockStart at hlo
      rw [Nat.pow_zero, Nat.div_one, Nat.mul_one] at hlo
      omega
  | succ width ih =>
      rw [setBits_succ_reverse]
      cases hbit : n.testBit width with
      | false =>
          have hsame := blockStart_of_not_testBit hbit
          obtain ⟨step, h, hloop, hget, hlt, hrest⟩ := @ih k (by rw [hsame]; exact hlo)
          rw [hsame] at hloop
          exact ⟨step, h, hloop, hget, by omega, hrest⟩
      | true =>
          have hnext := blockStart_of_testBit hbit
          by_cases hin : i < blockStart n (width + 1) + 2 ^ width
          · refine ⟨0, width, ?_, rfl, Nat.lt_succ_self _, hbit, hlo, hin⟩
            rw [if_pos rfl, locateLoop, if_pos hin]
            rfl
          · obtain ⟨step, h, hloop, hget, hlt, hrest⟩ := @ih (k + 1) (by omega)
            refine ⟨step + 1, h, ?_, ?_, by omega, hrest⟩
            · rw [if_pos rfl, locateLoop, if_neg hin, ← hnext, hloop, Nat.add_assoc,
                Nat.add_comm 1 step]
            · exact hget

theorem blockStart_width {n width : Nat} (hn : n < 2 ^ width) : blockStart n width = 0 := by
  rw [blockStart, Nat.div_eq_of_lt hn, Nat.zero_mul]

/-- Below the leaf count `locate` never panics, and it finds the covering peak. -/
theorem locate_spec {n i : Nat} (hi : i < n) (hn : n < 2 ^ 64) :
    ∃ k start h, locate i n = .ok (k, start, h) ∧ Covers n i k start h := by
  have htop := blockStart_width hn
  obtain ⟨step, h, hloop, hget, hlt, hbit, hlo, hhi⟩ :=
    @locateLoop_spec n i hi 64 0 (by rw [htop]; exact Nat.zero_le _)
  rw [htop, Nat.zero_add] at hloop
  rw [← peakHeights_eq] at hloop hget
  refine ⟨step, blockStart n (h + 1), h, ?_, hget, hlt, hbit, rfl, hlo, hhi⟩
  rw [locate, if_pos hi, hloop]

/-- `xs[i]`, which panics out of range. -/
def elemAt {α : Type} (xs : List α) (i : Nat) : Except Fault α :=
  match xs[i]? with
  | some x => .ok x
  | none => .error (.panic "index out of bounds")

/-- The climb of `verify`: bit `lvl` of the offset chooses the side. -/
def climbPath (off : Nat) (start : Hash) (path : List Hash) : Hash :=
  path.zipIdx.foldl (fun acc entry =>
    if (off >>> entry.2) &&& 1 = 0 then node keccak256 acc entry.1
    else node keccak256 entry.1 acc) start

/-- Inclusion-proof verification against stored peaks. -/
def verify (chunk : Chunk) (i : Nat) (path : List Hash) (n : Nat) (peaks : List Hash) :
    Except Fault Bool := do
  if i ≥ n then
    return false
  let (k, start, h) ← locate i n
  if path.length ≠ h ∨ peaks.length ≠ (peakHeights n).length then
    return false
  let acc := climbPath keccak256 (i - start) (leaf keccak256 chunk) path
  let peak ← elemAt peaks k
  return acc == peak

theorem climbPath_from (off level : Nat) (acc : Hash) (path : List Hash) :
    (path.zipIdx level).foldl (fun acc entry =>
        if (off >>> entry.2) &&& 1 = 0 then node keccak256 acc entry.1
        else node keccak256 entry.1 acc) acc =
      climb (node keccak256) (off / 2 ^ level) acc path := by
  induction path generalizing level acc with
  | nil => rfl
  | cons sibling rest ih =>
      rw [List.zipIdx_cons, List.foldl_cons, ih, climb_cons, joinSibling, Nat.and_one_is_mod,
        Nat.shiftRight_eq_div_pow, div_two_pow_succ]

theorem climbPath_eq_climb (off : Nat) (acc : Hash) (path : List Hash) :
    climbPath keccak256 off acc path = climb (node keccak256) off acc path := by
  have h := climbPath_from keccak256 off 0 acc path
  rwa [Nat.pow_zero, Nat.div_one] at h

/-- Below the leaf count `verify` never panics; it accepts exactly a path of the
peak's height that climbs to the covering peak of a list of the right length. -/
theorem verify_spec (chunk : Chunk) {i n : Nat} (path peaks : List Hash) (hi : i < n)
    (hn : n < 2 ^ 64) :
    ∃ k start h, locate i n = .ok (k, start, h) ∧ Covers n i k start h ∧
      verify keccak256 chunk i path n peaks =
        .ok (decide (path.length = h ∧ peaks.length = (peakHeights n).length ∧
          some (climb (node keccak256) (i - start) (leaf keccak256 chunk) path) = peaks[k]?)) := by
  obtain ⟨k, start, h, hlocate, hcovers⟩ := locate_spec hi hn
  refine ⟨k, start, h, hlocate, hcovers, ?_⟩
  simp only [verify, if_neg (Nat.not_le.mpr hi), hlocate, bind, Except.bind, pure, Except.pure]
  by_cases hlen : path.length ≠ h ∨ peaks.length ≠ (peakHeights n).length
  · rw [if_pos hlen, decide_eq_false]
    rintro ⟨hpath, hpeaks, -⟩
    exact hlen.elim (fun hne => hne hpath) fun hne => hne hpeaks
  · rw [if_neg hlen]
    rw [not_or, not_ne_iff, not_ne_iff] at hlen
    have hk : k < peaks.length := by
      rw [hlen.2]
      exact (List.getElem?_eq_some_iff.mp hcovers.index).1
    rw [elemAt, List.getElem?_eq_getElem hk, climbPath_eq_climb]
    simp only [hlen.1, hlen.2, true_and, Option.some.injEq]
    rw [beq_eq_decide]

theorem verify_of_le (chunk : Chunk) {i n : Nat} (path peaks : List Hash) (hi : n ≤ i) :
    verify keccak256 chunk i path n peaks = .ok false := by
  simp only [verify, if_pos hi, pure, Except.pure]

/-! ## Building paths from chunks -/

/-- Subtrees at least this tall are remembered. -/
def memoMinHeight : Nat := 10

/-- `HashMap<(u64, u32), Hash>`; the newest entry of a key is the one that is read. -/
abbrev Memo := List ((Nat × Nat) × Hash)

/-- `PathBuilder::subtree_root`: the root over `[start, start + 2 ^ h)` and the memo. -/
def subtreeRoot (chunkAt : Nat → Chunk) : Nat → Nat → Memo → Hash × Memo
  | 0, start, memo => (leaf keccak256 (chunkAt start), memo)
  | h + 1, start, memo =>
      let cached := if h + 1 ≥ memoMinHeight then memo.lookup (start, h + 1) else none
      match cached with
      | some root => (root, memo)
      | none =>
          let left := subtreeRoot chunkAt h start memo
          let right := subtreeRoot chunkAt h (start + 2 ^ h) left.2
          let out := node keccak256 left.1 right.1
          (out, if h + 1 ≥ memoMinHeight then ((start, h + 1), out) :: right.2 else right.2)

/-- `PathBuilder::peaks_at`. -/
def peaksAt (chunkAt : Nat → Chunk) (n : Nat) (memo : Memo) : List Hash × Memo :=
  let loop := (peakHeights n).foldl (fun state h =>
    let root := subtreeRoot keccak256 chunkAt h state.2.1 state.2.2
    (state.1 ++ [root.1], state.2.1 + 2 ^ h, root.2)) (([] : List Hash), 0, memo)
  (loop.1, loop.2.2)

/-- The loop of `PathBuilder::prove` over the levels still to climb. -/
def proveLoop (chunkAt : Nat → Chunk) (start off : Nat) : List Nat → Memo → List Hash × Memo
  | [], memo => ([], memo)
  | lvl :: rest, memo =>
      let sibOff := (off >>> lvl) ^^^ 1
      let sibling := subtreeRoot keccak256 chunkAt lvl (start + sibOff * 2 ^ lvl) memo
      let others := proveLoop chunkAt start off rest sibling.2
      (sibling.1 :: others.1, others.2)

/-- `PathBuilder::prove`: peak index and sibling path of leaf `i` at leaf count `n`. -/
def prove (chunkAt : Nat → Chunk) (i n : Nat) (memo : Memo) :
    Except Fault ((Nat × List Hash) × Memo) := do
  let (k, start, h) ← locate i n
  let path := proveLoop keccak256 chunkAt start (i - start) (List.range h) memo
  return ((k, path.1), path.2)

/-- Every remembered root is the root of its subtree. -/
def Memo.Honest (chunkAt : Nat → Chunk) (memo : Memo) : Prop :=
  ∀ start h root, memo.lookup (start, h) = some root →
    root = perfectRoot (node keccak256) (fun i => leaf keccak256 (chunkAt i)) start h

theorem Memo.honest_nil (chunkAt : Nat → Chunk) : Memo.Honest keccak256 chunkAt [] := by
  intro start h root hget
  cases hget

theorem Memo.Honest.remember {keccak256 : ByteString → Hash} {chunkAt : Nat → Chunk} {memo : Memo}
    (hmemo : memo.Honest keccak256 chunkAt) {start h : Nat} :
    Memo.Honest keccak256 chunkAt (((start, h), perfectRoot (node keccak256)
      (fun i => leaf keccak256 (chunkAt i)) start h) :: memo) := by
  intro start' h' root hget
  rw [List.lookup_cons] at hget
  cases hkey : (start', h') == (start, h) with
  | true =>
      rw [hkey] at hget
      obtain ⟨rfl, rfl⟩ := Prod.mk.inj (eq_of_beq hkey)
      exact (Option.some.inj hget).symm
  | false =>
      rw [hkey] at hget
      exact hmemo start' h' root hget

/-- The memo never changes what `subtree_root` returns. -/
theorem subtreeRoot_spec (chunkAt : Nat → Chunk) (h start : Nat) {memo : Memo}
    (hmemo : memo.Honest keccak256 chunkAt) :
    (subtreeRoot keccak256 chunkAt h start memo).1 =
        perfectRoot (node keccak256) (fun i => leaf keccak256 (chunkAt i)) start h ∧
      (subtreeRoot keccak256 chunkAt h start memo).2.Honest keccak256 chunkAt := by
  induction h generalizing start memo with
  | zero => exact ⟨rfl, hmemo⟩
  | succ h ih =>
      rw [subtreeRoot]
      cases hcached : (if h + 1 ≥ memoMinHeight then memo.lookup (start, h + 1) else none) with
      | some root =>
          by_cases htall : h + 1 ≥ memoMinHeight
          · rw [if_pos htall] at hcached
            exact ⟨hmemo start (h + 1) root hcached, hmemo⟩
          · rw [if_neg htall] at hcached
            cases hcached
      | none =>
          obtain ⟨hleft, hleftMemo⟩ := ih start hmemo
          obtain ⟨hright, hrightMemo⟩ := ih (start + 2 ^ h) hleftMemo
          have hout : node keccak256 (subtreeRoot keccak256 chunkAt h start memo).1
              (subtreeRoot keccak256 chunkAt h (start + 2 ^ h)
                (subtreeRoot keccak256 chunkAt h start memo).2).1 =
              perfectRoot (node keccak256) (fun i => leaf keccak256 (chunkAt i)) start (h + 1) := by
            rw [hleft, hright, perfectRoot]
          refine ⟨hout, ?_⟩
          simp only
          split
          · rw [hout]
            exact hrightMemo.remember
          · exact hrightMemo

theorem peaksAt_from (chunkAt : Nat → Chunk) (n width : Nat) (done : List Hash) {memo : Memo}
    (hmemo : memo.Honest keccak256 chunkAt) :
    ∃ start memo', (setBits width n).reverse.foldl (fun state h =>
        let root := subtreeRoot keccak256 chunkAt h state.2.1 state.2.2
        (state.1 ++ [root.1], state.2.1 + 2 ^ h, root.2)) (done, blockStart n width, memo) =
      (done ++ leafPeaks (node keccak256) width (fun i => leaf keccak256 (chunkAt i)) n,
        start, memo') ∧ memo'.Honest keccak256 chunkAt := by
  induction width generalizing done memo with
  | zero => exact ⟨blockStart n 0, memo, by simp [leafPeaks, setBits], hmemo⟩
  | succ width ih =>
      unfold leafPeaks
      rw [setBits_succ_reverse]
      cases hbit : n.testBit width with
      | false =>
          rw [if_neg Bool.false_ne_true, ← blockStart_of_not_testBit hbit]
          exact ih done hmemo
      | true =>
          obtain ⟨hroot, hnext⟩ :=
            subtreeRoot_spec keccak256 chunkAt width (blockStart n (width + 1)) hmemo
          obtain ⟨start, memo', hfold, hhonest⟩ := ih (done ++
            [(subtreeRoot keccak256 chunkAt width (blockStart n (width + 1)) memo).1]) hnext
          refine ⟨start, memo', ?_, hhonest⟩
          rw [if_pos rfl, List.foldl_cons]
          simp only
          rw [← blockStart_of_testBit hbit, hfold, hroot, leafPeaks, List.append_assoc]
          rfl

/-- The builder's peak list at any leaf count is the canonical one. -/
theorem peaksAt_spec (chunkAt : Nat → Chunk) {n : Nat} (hn : n < 2 ^ 64) {memo : Memo}
    (hmemo : memo.Honest keccak256 chunkAt) :
    (peaksAt keccak256 chunkAt n memo).1 =
        leafPeaks (node keccak256) 64 (fun i => leaf keccak256 (chunkAt i)) n ∧
      (peaksAt keccak256 chunkAt n memo).2.Honest keccak256 chunkAt := by
  obtain ⟨start, memo', hfold, hhonest⟩ := peaksAt_from keccak256 chunkAt n 64 [] hmemo
  rw [blockStart_width hn, List.nil_append, ← peakHeights_eq] at hfold
  simp only [peaksAt, hfold]
  exact ⟨trivial, hhonest⟩

theorem siblingOff_eq_xor (off : Nat) : off ^^^ 1 = siblingOff off := by
  unfold siblingOff
  rcases Nat.even_or_odd off with heven | hodd
  · rw [Nat.xor_one_of_even heven, if_pos (Nat.even_iff.mp heven)]
  · rw [Nat.xor_one_of_odd hodd, if_neg (by rw [Nat.odd_iff.mp hodd]; exact Nat.one_ne_zero)]

theorem proveLoop_spec (chunkAt : Nat → Chunk) (start off : Nat) {lvl steps : Nat} {memo : Memo}
    (hmemo : memo.Honest keccak256 chunkAt) :
    (proveLoop keccak256 chunkAt start off (List.range' lvl steps) memo).1 =
        siblingPath (node keccak256) (fun i => leaf keccak256 (chunkAt i)) start lvl
          (off / 2 ^ lvl) steps ∧
      (proveLoop keccak256 chunkAt start off (List.range' lvl steps) memo).2.Honest
        keccak256 chunkAt := by
  induction steps generalizing lvl memo with
  | zero => exact ⟨rfl, hmemo⟩
  | succ steps ih =>
      obtain ⟨hroot, hnext⟩ := subtreeRoot_spec keccak256 chunkAt lvl
        (start + ((off >>> lvl) ^^^ 1) * 2 ^ lvl) hmemo
      obtain ⟨hrest, hhonest⟩ := @ih (lvl + 1) _ hnext
      rw [List.range'_succ, proveLoop]
      refine ⟨?_, hhonest⟩
      simp only
      rw [hrest, hroot, siblingOff_eq_xor, Nat.shiftRight_eq_div_pow, siblingPath,
        div_two_pow_succ]

/-- The builder's path is the honest sibling path under the covering peak. -/
theorem prove_spec (chunkAt : Nat → Chunk) {i n : Nat} (hi : i < n) (hn : n < 2 ^ 64)
    {memo : Memo} (hmemo : memo.Honest keccak256 chunkAt) :
    ∃ k start h memo', locate i n = .ok (k, start, h) ∧ Covers n i k start h ∧
      prove keccak256 chunkAt i n memo =
        .ok ((k, siblingPath (node keccak256) (fun i => leaf keccak256 (chunkAt i)) start 0
          (i - start) h), memo') ∧ memo'.Honest keccak256 chunkAt := by
  obtain ⟨k, start, h, hlocate, hcovers⟩ := locate_spec hi hn
  obtain ⟨hpath, hhonest⟩ :=
    @proveLoop_spec keccak256 chunkAt start (i - start) 0 h memo hmemo
  rw [Nat.pow_zero, Nat.div_one, ← List.range_eq_range'] at hpath
  refine ⟨k, start, h, _, hlocate, hcovers, ?_, hhonest⟩
  simp only [prove, hlocate, bind, Except.bind, ← hpath, ← List.range_eq_range']
  rfl

/-- The sibling path of leaf `i` over the first `n` chunks of a stream. -/
def honestPath (stream : Nat → Chunk) (i n : Nat) : List Hash :=
  match locate i n with
  | .ok (_, start, h) =>
      siblingPath (node keccak256) (fun i => leaf keccak256 (stream i)) start 0 (i - start) h
  | .error _ => []

theorem honestPath_eq (stream : Nat → Chunk) {i n k start h : Nat}
    (hlocate : locate i n = .ok (k, start, h)) :
    honestPath keccak256 stream i n =
      siblingPath (node keccak256) (fun i => leaf keccak256 (stream i)) start 0 (i - start) h := by
  rw [honestPath, hlocate]

/-- The stream's own chunk verifies with its honest path against the canonical peaks. -/
theorem verify_honestPath (stream : Nat → Chunk) {i n : Nat} (hi : i < n) (hn : n < 2 ^ 64) :
    verify keccak256 (stream i) i (honestPath keccak256 stream i n) n
      (leafPeaks (node keccak256) 64 (fun i => leaf keccak256 (stream i)) n) = .ok true := by
  obtain ⟨k, start, h, hlocate, hcovers, hverify⟩ := verify_spec keccak256 (stream i)
    (honestPath keccak256 stream i n)
    (leafPeaks (node keccak256) 64 (fun i => leaf keccak256 (stream i)) n) hi hn
  have hlower := hcovers.lower
  have hupper := hcovers.upper
  have hoff : i - start < 2 ^ h := by omega
  have hindex := hcovers.index
  rw [peakHeights_eq] at hindex
  have hclimb := @climb_siblingPath _ (node keccak256) (fun i => leaf keccak256 (stream i))
    start 0 (i - start) h hoff
  rw [Nat.pow_zero, Nat.mul_one, Nat.add_sub_cancel' hlower, Nat.zero_add] at hclimb
  rw [hverify, decide_eq_true]
  refine ⟨?_, ?_, ?_⟩
  · rw [honestPath_eq keccak256 stream hlocate, siblingPath_length]
  · rw [leafPeaks_length, peakHeights_eq, List.length_reverse]
  · rw [honestPath_eq keccak256 stream hlocate, leafPeaks, List.getElem?_map, hindex,
      Option.map_some, ← hcovers.startEq]
    exact congrArg some hclimb

end

end Blobsitter.Reference
