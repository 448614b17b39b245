import Blobsitter.Daemon.CrashConsistency

/-!
# Opening a store, step by step

The same recovery with the directory as every outcome leaves it, an error included, and
with 64-bit products that fault when they overflow.  The cut is the only step that takes
bytes away, and it is reached behind all the guards.
-/

namespace Blobsitter.Daemon

open Library
open Reference (Fault Mmr peakHeights)

/-- A 64-bit product; one that overflows is a fault. -/
def product (a b : Nat) : Except Fault Nat :=
  if a * b < 2 ^ 64 then .ok (a * b) else .error (.panic "attempt to multiply with overflow")

/-- `set_len` cuts a file, or fills it up with zeros. -/
def setLen (content : ByteString) (length : Nat) : ByteString :=
  content.take length ++ List.replicate (length - content.length) 0

/-- `truncate_to`, for any length of the file. -/
def ChunkFile.cutTo (disk : Disk DataFile) (leafCount : Nat) : Except Fault (Disk DataFile) := do
  let length ← product leafCount chunkBytes
  return Function.update disk .chunks (some (setLen (data disk) length))

/-- The guards on the chunk file, and the cut. -/
def Store.recover (fresh : Bool) (frontier : Frontier) (disk : Disk DataFile) :
    Except Fault (Except StoreError Store × Disk DataFile) :=
  let committed := frontier.leafCount
  let foundBytes := ChunkFile.lenBytes disk
  if fresh = true ∧ foundBytes > 0 then .ok (.error (.orphanedChunkData foundBytes), disk)
  else if foundBytes / 31 < committed then
    .ok (.error (.missingCommittedData (foundBytes / 31) committed), disk)
  else do
    let committedBytes ← product committed 31
    let recovered ← if foundBytes > committedBytes then ChunkFile.cutTo disk committed else .ok disk
    return (.ok ⟨frontier⟩, recovered)

/-- `Store::open`: what it returns, and the directory that it leaves. -/
def Store.openDir (codec : Codec Frontier) (disk : Disk DataFile) :
    Except Fault (Except StoreError Store × Disk DataFile) :=
  match Frontier.load codec disk with
  | .error e => .ok (.error e, disk)
  | .ok loaded =>
      let frontier := loaded.getD default
      match Mmr.fromState frontier.leafCount frontier.peaks with
      | .error fault => .ok (.error (.inconsistentFrontier fault.message), disk)
      | .ok _ => Store.recover loaded.isNone frontier (ChunkFile.open disk)

/-! ## Nothing overflows -/

theorem product_ok {a b : Nat} (hfits : a * b < 2 ^ 64) : product a b = .ok (a * b) := if_pos hfits

/-- Below the end of the file `set_len` only cuts. -/
theorem setLen_eq_take {content : ByteString} {length : Nat} (hle : length ≤ content.length) :
    setLen content length = content.take length := by
  rw [setLen, Nat.sub_eq_zero_of_le hle, List.replicate_zero, List.append_nil]

theorem ChunkFile.cutTo_ok {disk : Disk DataFile} {leafCount : Nat}
    (hle : leafCount * 31 ≤ (data disk).length) (hfits : (data disk).length < 2 ^ 64) :
    cutTo disk leafCount = .ok (truncateTo disk leafCount) := by
  have hend : leafCount * chunkBytes ≤ (data disk).length := hle
  rw [cutTo, product_ok (hend.trans_lt hfits), ok_bind, setLen_eq_take hend]
  rfl

section

variable {codec : Codec Frontier} {disk : Disk DataFile}

/-- Behind the guards on its length the chunk file is cut at the frontier or kept. -/
theorem Store.recover_eq (fresh : Bool) (frontier : Frontier)
    (hfits : ChunkFile.lenBytes disk < 2 ^ 64) :
    Store.recover fresh frontier disk =
      if fresh = true ∧ ChunkFile.lenBytes disk > 0 then
        .ok (.error (.orphanedChunkData (ChunkFile.lenBytes disk)), disk)
      else if ChunkFile.lenBytes disk / 31 < frontier.leafCount then
        .ok (.error (.missingCommittedData (ChunkFile.lenBytes disk / 31) frontier.leafCount), disk)
      else if ChunkFile.lenBytes disk > frontier.leafCount * 31 then
        .ok (.ok ⟨frontier⟩, ChunkFile.truncateTo disk frontier.leafCount)
      else .ok (.ok ⟨frontier⟩, disk) := by
  unfold Store.recover
  simp only
  split
  · rfl
  · split
    · rfl
    · rename_i hheld
      have hle : frontier.leafCount * 31 ≤ ChunkFile.lenBytes disk :=
        (Nat.le_div_iff_mul_le (by decide)).mp (not_lt.mp hheld)
      rw [product_ok (hle.trans_lt hfits), ok_bind]
      split
      · rw [ChunkFile.cutTo_ok hle hfits, ok_bind]
        rfl
      · rfl

/-- The steps return what the recovery returns, leave the directory that it leaves, and
keep the bytes of the chunk file where it refuses. -/
theorem Store.openDir_eq (hfits : (ChunkFile.data disk).length < 2 ^ 64) :
    ∃ after, Store.openDir codec disk = .ok ((Store.open codec disk).map Prod.fst, after) ∧
      (∀ store cut, Store.open codec disk = .ok (store, cut) → after = cut) ∧
      ∀ e, Store.open codec disk = .error e →
        ChunkFile.data after = ChunkFile.data disk ∧
          ∀ file, file ≠ .chunks → after file = disk file := by
  have hdata : ChunkFile.data (ChunkFile.open disk) = ChunkFile.data disk :=
    ChunkFile.data_of_some (Function.update_self ..)
  have hframe : ∀ file, file ≠ .chunks → ChunkFile.open disk file = disk file :=
    fun file hother => Function.update_of_ne hother _ _
  unfold Store.openDir Store.open
  cases Frontier.load codec disk with
  | error e =>
      refine ⟨disk, rfl, ?_, fun _ _ => ⟨rfl, fun _ _ => rfl⟩⟩
      rintro store cut hok
      cases hok
  | ok loaded =>
      simp only [ok_bind]
      cases Mmr.fromState (loaded.getD default).leafCount (loaded.getD default).peaks with
      | error fault =>
          refine ⟨disk, rfl, ?_, fun _ _ => ⟨rfl, fun _ _ => rfl⟩⟩
          rintro store cut hok
          cases hok
      | ok mmr =>
          simp only [Except.mapError, ok_bind]
          rw [Store.recover_eq _ _ (by rw [ChunkFile.lenBytes, hdata]; exact hfits)]
          split
          · refine ⟨_, rfl, ?_, fun _ _ => ⟨hdata, hframe⟩⟩
            rintro store cut hok
            cases hok
          · split
            · refine ⟨_, rfl, ?_, fun _ _ => ⟨hdata, hframe⟩⟩
              rintro store cut hok
              cases hok
            · split
              · refine ⟨_, rfl, ?_, ?_⟩
                · rintro store cut hok
                  exact (Prod.mk.inj (Except.ok.inj hok)).2
                · rintro e herror
                  cases herror
              · refine ⟨_, rfl, ?_, ?_⟩
                · rintro store cut hok
                  exact (Prod.mk.inj (Except.ok.inj hok)).2
                · rintro e herror
                  cases herror

/-- How `open` may end, on a directory: it refuses and keeps the chunk file, or it cuts
the file at an existing frontier, or the directory is fresh. -/
inductive Opens (codec : Codec Frontier) (disk : Disk DataFile) :
    Except StoreError Store → Disk DataFile → Prop where
  | refuses {e : StoreError} {after : Disk DataFile}
      (hkept : ChunkFile.data after = ChunkFile.data disk) : Opens codec disk (.error e) after
  | resumes {bytes : ByteString} {frontier : Frontier} {after : Disk DataFile}
      (hfile : disk (.state .frontier) = some bytes) (hread : codec.fromSlice bytes = .ok frontier)
      (hheld : 31 * frontier.leafCount ≤ (ChunkFile.data disk).length)
      (hcut : after .chunks = some ((ChunkFile.data disk).take (31 * frontier.leafCount))) :
      Opens codec disk (.ok ⟨frontier⟩) after
  | starts {after : Disk DataFile} (hfile : disk (.state .frontier) = none)
      (hempty : ChunkFile.data disk = []) (hchunks : after .chunks = some []) :
      Opens codec disk (.ok ⟨default⟩) after

/-- Opening does not overflow, and takes nothing away but bytes behind an existing
frontier; no file but the chunk file changes. -/
theorem open_keeps_committed (codec : Codec Frontier) (disk : Disk DataFile)
    (hfits : (ChunkFile.data disk).length < 2 ^ 64) :
    ∃ result after, Store.openDir codec disk = .ok (result, after) ∧
      Opens codec disk result after ∧ ∀ file, file ≠ .chunks → after file = disk file := by
  obtain ⟨after, hrun, hok, herror⟩ := @Store.openDir_eq codec _ hfits
  refine ⟨_, after, hrun, ?_⟩
  cases hopen : Store.open codec disk with
  | error e =>
      obtain ⟨hkept, hframe⟩ := herror e hopen
      exact ⟨.refuses hkept, hframe⟩
  | ok opened =>
      obtain ⟨⟨frontier⟩, cut⟩ := opened
      obtain rfl := hok _ cut hopen
      obtain ⟨loaded, hload, hfrontier, _, hempty, hheld, rfl⟩ := Store.open_eq_ok.mp hopen
      simp only at hfrontier hheld
      refine ⟨?_, fun file hother => Function.update_of_ne hother _ _⟩
      rw [Nat.mul_comm] at hheld
      cases hfile : disk (.state .frontier) with
      | none =>
          rw [Frontier.load, hfile] at hload
          obtain rfl := Except.ok.inj hload
          subst hfrontier
          refine .starts hfile (hempty rfl) ?_
          rw [Function.update_self, hempty rfl, List.take_nil]
      | some bytes =>
          rw [Frontier.load, hfile] at hload
          have hread := mapError_eq_ok.mp hload
          cases hparse : codec.fromSlice bytes with
          | error detail =>
              rw [hparse] at hread
              cases hread
          | ok parsed =>
              rw [hparse] at hread
              obtain rfl := Except.ok.inj hread
              subst hfrontier
              refine .resumes hfile hparse hheld ?_
              rw [Function.update_self, Nat.mul_comm]

end

/-- A frontier file that claims all leaves there can be, beside five bytes. -/
def absurdDisk : Disk DataFile
  | .chunks => some [1, 2, 3, 4, 5]
  | .state .frontier => some []
  | _ => none

def absurdCodec : Codec Frontier where
  toVec := frontierJson
  fromSlice _ := .ok ⟨0, 2 ^ 64 - 1, List.replicate 64 (Vector.replicate 32 0)⟩

theorem open_keeps_committed_absurd : ∃ result after,
    Store.openDir absurdCodec absurdDisk = .ok (result, after) ∧
      Opens absurdCodec absurdDisk result after ∧
      ∀ file, file ≠ .chunks → after file = absurdDisk file :=
  open_keeps_committed absurdCodec absurdDisk (by decide)

end Blobsitter.Daemon
