import Blobsitter.Library.DurableFile

/-!
# The daemon's data directory

The chunk file, and two small state files that are only ever replaced whole through a
temporary file beside them.
-/

namespace Blobsitter.Daemon

open Library

/-- `frontier.json` and `challenges.json`. -/
inductive StateFile where
  | frontier
  | challenges
  deriving DecidableEq, Repr

/-- Files of the data directory; a temporary file has the extension `json.tmp`. -/
inductive DataFile where
  | chunks
  | state (file : StateFile)
  | tmp (file : StateFile)
  deriving DecidableEq, Repr

theorem DataFile.state_ne_tmp (file : StateFile) : DataFile.state file ≠ .tmp file := by
  intro heq
  cases heq

/-- What `serde_json` does for a type: `to_vec_pretty` and `from_slice`. -/
structure Codec (α : Type) where
  toVec : α → ByteString
  fromSlice : ByteString → Except String α

/-- The value is read back from its own text. -/
def Codec.ReadsBack {α : Type} (codec : Codec α) (value : α) : Prop :=
  codec.fromSlice (codec.toVec value) = .ok value

def hexDigit (n : Nat) : Char := "0123456789abcdef".toList.getD n '0'

/-- `serde_hex`: a quoted hash, with the prefix `0x`. -/
def hexText (bytes : ByteString) : String :=
  "\"0x" ++ String.ofList (bytes.flatMap fun byte =>
    [hexDigit (byte.toNat / 16), hexDigit (byte.toNat % 16)]) ++ "\""

/-- `write_atomic`: temp file, sync, rename, sync of the directory. -/
def writeAtomic (file : StateFile) (bytes : ByteString) : List (DiskOp DataFile) :=
  replaceFile (.tmp file) (.state file) bytes

/-- One call of `write_atomic` as it goes: it completes, or returns an error after any
part of its operations. -/
structure WriteAttempt (file : StateFile) where
  run : Disk DataFile → ByteString → Except String Unit × Disk DataFile
  possible : ∀ disk bytes, run disk bytes = (.ok (), runAll (writeAtomic file bytes) disk) ∨
    ∃ error left, run disk bytes = (.error error, left) ∧ Crash (writeAtomic file bytes) disk left

namespace WriteAttempt

variable {file : StateFile}

/-- The write that does what it should. -/
def completes (file : StateFile) : WriteAttempt file :=
  ⟨fun disk bytes => (.ok (), runAll (writeAtomic file bytes) disk), fun _ _ => Or.inl rfl⟩

/-- The write whose first operation fails. -/
def fails (file : StateFile) (error : String) : WriteAttempt file :=
  ⟨fun disk _ => (.error error, disk), fun disk _ =>
    Or.inr ⟨error, disk, rfl, .inside .untouched⟩⟩

/-- The new content is in place, whatever the call returns. -/
def Replaces (write : WriteAttempt file) (disk : Disk DataFile) (bytes : ByteString) : Prop :=
  (write.run disk bytes).2 (.state file) = some bytes

/-- The call returns without an error. -/
def Returns (write : WriteAttempt file) (disk : Disk DataFile) (bytes : ByteString) : Prop :=
  (write.run disk bytes).1 = .ok ()

variable {write : WriteAttempt file} {disk : Disk DataFile} {bytes : ByteString}

theorem replaced_of_runAll {left : Disk DataFile}
    (hleft : left = runAll (writeAtomic file bytes) disk) : left (.state file) = some bytes := by
  rw [hleft, writeAtomic, runAll_replaceFile, Function.update_of_ne (DataFile.state_ne_tmp file),
    Function.update_self]

/-- A write that returns has replaced the file. -/
theorem Returns.replaces (hreturns : write.Returns disk bytes) : write.Replaces disk bytes := by
  rcases write.possible disk bytes with hrun | ⟨error, left, hrun, _⟩
  · rw [Replaces, hrun]
    exact replaced_of_runAll rfl
  · rw [Returns, hrun] at hreturns
    cases hreturns

/-- A write leaves the old file or the new one. -/
theorem replaces_or_kept (write : WriteAttempt file) (disk : Disk DataFile) (bytes : ByteString) :
    write.Replaces disk bytes ∨
      ¬write.Returns disk bytes ∧ (write.run disk bytes).2 (.state file) = disk (.state file) := by
  rcases write.possible disk bytes with hrun | ⟨error, left, hrun, hcrash⟩
  · left
    rw [Replaces, hrun]
    exact replaced_of_runAll rfl
  · rcases crash_replaceFile hcrash with ⟨content, hleft⟩ | hleft
    · right
      rw [Returns, hrun, hleft]
      refine ⟨?_, Function.update_of_ne (DataFile.state_ne_tmp file) content disk⟩
      intro herror
      cases herror
    · left
      rw [Replaces, hrun]
      exact replaced_of_runAll hleft

end WriteAttempt

end Blobsitter.Daemon
