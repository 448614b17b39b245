import Blobsitter.Daemon.Persist
import Blobsitter.Reference.Hashing
import Std.Data.ExtTreeMap

/-!
# The challenge ledger

The open challenges of the provider, in memory and in `challenges.json`.  A call first
changes the entries in memory and then replaces the file; a call whose check on the
entries in memory finds nothing to do does not look at the file.
-/

namespace Blobsitter.Daemon

open Library
open Reference (Hash)
open Std (ExtTreeMap)

structure OpenChallenge where
  challengeId : Nat
  indices : List Nat
  pinnedRoot : Hash
  pinnedLeafCount : Nat
  deadline : Nat
  respondedTx : Option String
  deriving DecidableEq

/-- `BTreeMap<u64, OpenChallenge>`. -/
abbrev Entries := ExtTreeMap Nat OpenChallenge compare

structure Ledger where
  entries : Entries

section

variable (codec : Codec Entries)

def Ledger.open (disk : Disk DataFile) : Except String Ledger :=
  match disk (.state .challenges) with
  | none => .ok ⟨∅⟩
  | some bytes =>
      ((codec.fromSlice bytes).map Ledger.mk).mapError
        ("corrupt challenge ledger challenges.json: " ++ ·)

namespace Ledger

variable (ledger : Ledger) (write : WriteAttempt .challenges) (disk : Disk DataFile)

def persist : Except String Unit × Disk DataFile :=
  let outcome := write.run disk (codec.toVec ledger.entries)
  (outcome.1.mapError ("cannot persist challenge ledger: " ++ ·), outcome.2)

/-- An entry of this id that is there already stays as it is. -/
def insert (challenge : OpenChallenge) : Except String Unit × Ledger × Disk DataFile :=
  if ledger.entries.contains challenge.challengeId then (.ok (), ledger, disk)
  else
    let changed : Ledger := ⟨ledger.entries.insert challenge.challengeId challenge⟩
    let outcome := changed.persist codec write disk
    (outcome.1, changed, outcome.2)

def markResponded (id : Nat) (txHash : String) : Except String Unit × Ledger × Disk DataFile :=
  match ledger.entries[id]? with
  | some entry =>
      let changed : Ledger := ⟨ledger.entries.insert id { entry with respondedTx := some txHash }⟩
      let outcome := changed.persist codec write disk
      (outcome.1, changed, outcome.2)
  | none => (.ok (), ledger, disk)

def remove (id : Nat) : Except String Unit × Ledger × Disk DataFile :=
  if ledger.entries.contains id then
    let changed : Ledger := ⟨ledger.entries.erase id⟩
    let outcome := changed.persist codec write disk
    (outcome.1, changed, outcome.2)
  else (.ok (), ledger, disk)

end Ledger

inductive LedgerCall where
  | insert (challenge : OpenChallenge)
  | markResponded (id : Nat) (txHash : String)
  | remove (id : Nat)

def Ledger.call (ledger : Ledger) (write : WriteAttempt .challenges) (disk : Disk DataFile) :
    LedgerCall → Except String Unit × Ledger × Disk DataFile
  | .insert challenge => ledger.insert codec write disk challenge
  | .markResponded id txHash => ledger.markResponded codec write disk id txHash
  | .remove id => ledger.remove codec write disk id

/-- The entries that a call leaves in memory and writes; `none` when it writes nothing. -/
def LedgerCall.changed (entries : Entries) : LedgerCall → Option Entries
  | .insert challenge =>
      if entries.contains challenge.challengeId then none
      else some (entries.insert challenge.challengeId challenge)
  | .markResponded id txHash =>
      entries[id]?.map fun entry => entries.insert id { entry with respondedTx := some txHash }
  | .remove id => if entries.contains id then some (entries.erase id) else none

end

section

variable {codec : Codec Entries} {ledger : Ledger} {write : WriteAttempt .challenges}
variable {disk : Disk DataFile} {call : LedgerCall}

/-- A call with nothing to change returns at once. -/
theorem Ledger.call_unchanged (hnone : call.changed ledger.entries = none) :
    ledger.call codec write disk call = (.ok (), ledger, disk) := by
  cases call with
  | insert challenge =>
      rw [LedgerCall.changed] at hnone
      split at hnone
      · rename_i hcontains
        exact if_pos hcontains
      · cases hnone
  | markResponded id txHash =>
      rw [LedgerCall.changed, Option.map_eq_none_iff] at hnone
      rw [call, markResponded, hnone]
  | remove id =>
      rw [LedgerCall.changed] at hnone
      split at hnone
      · cases hnone
      · rename_i hcontains
        exact if_neg hcontains

/-- Any other call changes the entries in memory, whatever becomes of the write. -/
theorem Ledger.call_changed {entries : Entries} (hsome : call.changed ledger.entries = some entries) :
    ledger.call codec write disk call =
      ((Ledger.mk entries).persist codec write disk |>.1, ⟨entries⟩,
        ((Ledger.mk entries).persist codec write disk).2) := by
  cases call with
  | insert challenge =>
      rw [LedgerCall.changed] at hsome
      split at hsome
      · cases hsome
      · rename_i hcontains
        obtain rfl := Option.some.inj hsome
        exact if_neg hcontains
  | markResponded id txHash =>
      rw [LedgerCall.changed, Option.map_eq_some_iff] at hsome
      obtain ⟨entry, hentry, rfl⟩ := hsome
      rw [call, markResponded, hentry]
  | remove id =>
      rw [LedgerCall.changed] at hsome
      split at hsome
      · rename_i hcontains
        obtain rfl := Option.some.inj hsome
        exact if_pos hcontains
      · cases hsome

theorem Ledger.persist_ok_iff {entries : Entries} :
    ((Ledger.mk entries).persist codec write disk).1 = .ok () ↔
      write.Returns disk (codec.toVec entries) := by
  rw [persist, WriteAttempt.Returns]
  cases (write.run disk (codec.toVec entries)).1 with
  | error e => simp [Except.mapError]
  | ok u => simp [Except.mapError]

end

end Blobsitter.Daemon
