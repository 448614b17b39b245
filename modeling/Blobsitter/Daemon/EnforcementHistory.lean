import Blobsitter.Daemon.EnforcementScan

/-!
# The enforcement history up to a position

What the ledger is once the first logs of a finalized history are dispatched, and how one
call of the ledger moves it from a position to the next.
-/

namespace Blobsitter.Daemon

open Library
open Std (ExtTreeMap)

/-- The log opens the challenge against the provider. -/
def Log.Opens (providerId : Nat) (log : Log) (challenge : OpenChallenge) : Prop :=
  log.ledgerCall providerId = some (.insert challenge)

/-- The log resolves the challenge of this id, whoever answers for it. -/
def Log.Resolves (providerId : Nat) (log : Log) (id : Nat) : Prop :=
  log.ledgerCall providerId = some (.remove id)

/-- The finalized logs of the instance in the order of the blocks.  A challenge is opened
once and only resolved later. -/
structure FinalizedHistory (config : ScanConfig) (history : List Log) : Prop where
  ordered : Ordered Log.block history
  deployed : ∀ log ∈ history, config.scanFloor < log.block
  openedOnce : history.Pairwise fun log later => ∀ first second : OpenChallenge,
    log.Opens config.providerId first → later.Opens config.providerId second →
      first.challengeId ≠ second.challengeId
  resolvedLater : history.Pairwise fun log later => ∀ challenge : OpenChallenge,
    later.Opens config.providerId challenge →
      ¬log.Resolves config.providerId challenge.challengeId

/-- The challenge is opened up to the block and not resolved up to it. -/
def OpenAt (config : ScanConfig) (history : List Log) (bound : Nat) (challenge : OpenChallenge) :
    Prop :=
  (∃ log ∈ history, log.Opens config.providerId challenge ∧ log.block ≤ bound) ∧
    ∀ log ∈ history, log.block ≤ bound → ¬log.Resolves config.providerId challenge.challengeId

section

variable {config : ScanConfig} {history : List Log} {log other : Log} {providerId : Nat}
variable {challenge : OpenChallenge}

theorem Log.isEnforcement_of_call {call : LedgerCall}
    (hcall : log.ledgerCall providerId = some call) : log.isEnforcement = true := by
  obtain ⟨block, event⟩ := log
  cases event <;> first | rfl | cases hcall

theorem mem_enforcementLogs {call : LedgerCall} (hcall : log.ledgerCall providerId = some call) :
    log ∈ enforcementLogs history ↔ log ∈ history := by
  rw [enforcementLogs, List.mem_filter]
  exact and_iff_left (Log.isEnforcement_of_call hcall)

namespace FinalizedHistory

theorem enforcement (hhistory : FinalizedHistory config history) :
    FinalizedHistory config (enforcementLogs history) where
  ordered := hhistory.ordered.filter _
  deployed log hmem := hhistory.deployed log (List.mem_of_mem_filter hmem)
  openedOnce := hhistory.openedOnce.filter _
  resolvedLater := hhistory.resolvedLater.filter _

/-- An id stands for one challenge. -/
theorem same_challenge (hhistory : FinalizedHistory config history) {second : OpenChallenge}
    (hlog : log ∈ history) (hother : other ∈ history) (hopens : log.Opens config.providerId challenge)
    (hsecond : other.Opens config.providerId second)
    (hid : challenge.challengeId = second.challengeId) : challenge = second := by
  obtain ⟨i, hi, rfl⟩ := List.mem_iff_getElem.mp hlog
  obtain ⟨j, hj, rfl⟩ := List.mem_iff_getElem.mp hother
  have honce := List.pairwise_iff_getElem.mp hhistory.openedOnce
  rcases Nat.lt_trichotomy i j with hlt | rfl | hgt
  · exact absurd hid (honce i j hi hj hlt _ _ hopens hsecond)
  · have hsame : some (LedgerCall.insert challenge) = some (.insert second) :=
      hopens.symm.trans hsecond
    exact LedgerCall.insert.inj (Option.some.inj hsame)
  · exact absurd hid.symm (honce j i hj hi hgt _ _ hsecond hopens)

/-- A challenge is not resolved before the position that opens it. -/
theorem resolved_after (hhistory : FinalizedHistory config history) {i j : Nat}
    (hi : history[i]? = some log) (hj : history[j]? = some other)
    (hresolves : log.Resolves config.providerId challenge.challengeId)
    (hopens : other.Opens config.providerId challenge) : ¬i < j := by
  obtain ⟨hilt, rfl⟩ := List.getElem?_eq_some_iff.mp hi
  obtain ⟨hjlt, rfl⟩ := List.getElem?_eq_some_iff.mp hj
  intro hlt
  exact List.pairwise_iff_getElem.mp hhistory.resolvedLater i j hilt hjlt hlt _ hopens hresolves

end FinalizedHistory

end

/-- What the call was for holds of the entries. -/
def LedgerCall.Recorded (entries : Entries) : LedgerCall → Prop
  | .insert challenge => entries[challenge.challengeId]? ≠ none
  | .markResponded _ _ => True
  | .remove id => entries[id]? = none

/-- The entries after the first `p` logs: all are challenges of the provider; the opened
ones are there unless they were resolved by now or dropped, and the resolved ones are not. -/
structure Consumed (config : ScanConfig) (logs : List Log) (highest : Nat) (dropped : Nat → Bool)
    (p : Nat) (entries : Entries) : Prop where
  own : ∀ id entry, entries[id]? = some entry → ∃ log ∈ logs, ∃ challenge : OpenChallenge,
    log.Opens config.providerId challenge ∧ log.block ≤ highest ∧ challenge.challengeId = id ∧
      entry.Records challenge
  covered : ∀ (i : Nat) log (challenge : OpenChallenge), i < p → logs[i]? = some log →
    log.Opens config.providerId challenge →
    (∀ other ∈ logs, other.block ≤ highest →
      ¬other.Resolves config.providerId challenge.challengeId) →
    dropped challenge.challengeId = false → entries[challenge.challengeId]? ≠ none
  cleared : ∀ (i : Nat) log id, i < p → logs[i]? = some log → log.Resolves config.providerId id →
    entries[id]? = none

namespace Consumed

variable {config : ScanConfig} {logs : List Log} {highest p : Nat} {dropped : Nat → Bool}
variable {entries : Entries} {log : Log} {challenge : OpenChallenge} {id : Nat}

/-- Less is consumed before, when less was finalized and more was dropped. -/
theorem mono (hconsumed : Consumed config logs highest dropped p entries) {later before : Nat}
    {more : Nat → Bool} (hlater : highest ≤ later) (hbefore : before ≤ p)
    (hmore : ∀ id, dropped id = true → more id = true) :
    Consumed config logs later more before entries where
  own id entry hentry := by
    obtain ⟨log, hmem, challenge, hopens, hblock, hid, hrecords⟩ := hconsumed.own id entry hentry
    exact ⟨log, hmem, challenge, hopens, hblock.trans hlater, hid, hrecords⟩
  covered i log challenge hi hlog hopens hunresolved hkept := by
    refine hconsumed.covered i log challenge (hi.trans_le hbefore) hlog hopens ?_ ?_
    · intro other hmem hblock
      exact hunresolved other hmem (hblock.trans hlater)
    · cases hdropped : dropped challenge.challengeId with
      | false => rfl
      | true =>
          rw [hmore _ hdropped] at hkept
          cases hkept
  cleared i log id hi hlog hresolves :=
    hconsumed.cleared i log id (hi.trans_le hbefore) hlog hresolves

/-- Inserting what the next log opens keeps what the logs before it left. -/
theorem insert (hhistory : FinalizedHistory config logs)
    (hconsumed : Consumed config logs highest dropped p entries) (hlog : logs[p]? = some log)
    (hblock : log.block ≤ highest) (hopens : log.Opens config.providerId challenge) :
    Consumed config logs highest dropped p (entries.insert challenge.challengeId challenge) where
  own id entry hentry := by
    rw [getElem?_insert_entry] at hentry
    split at hentry
    · rename_i hid
      obtain rfl := Option.some.inj hentry
      exact ⟨log, List.mem_of_getElem? hlog, challenge, hopens, hblock, hid, challenge.records_self⟩
    · exact hconsumed.own id entry hentry
  covered i log' other hi hlog' hopens' hunresolved hkept := by
    rw [getElem?_insert_entry]
    split
    · exact Option.some_ne_none _
    · exact hconsumed.covered i log' other hi hlog' hopens' hunresolved hkept
  cleared i log' id hi hlog' hresolves := by
    rw [getElem?_insert_entry]
    split
    · rename_i hid
      -- what this log opens was not resolved before it
      rw [← hid] at hresolves
      exact absurd hi (hhistory.resolved_after hlog' hlog hresolves hopens)
    · exact hconsumed.cleared i log' id hi hlog' hresolves

/-- Erasing is allowed once the challenge is resolved or dropped. -/
theorem erase (hconsumed : Consumed config logs highest dropped p entries)
    (hgone : (∃ other ∈ logs, other.block ≤ highest ∧ other.Resolves config.providerId id) ∨
      dropped id = true) :
    Consumed config logs highest dropped p (entries.erase id) where
  own key entry hentry := by
    rw [getElem?_erase_entry] at hentry
    split at hentry
    · cases hentry
    · exact hconsumed.own key entry hentry
  covered i log other hi hlog hopens hunresolved hkept := by
    rw [getElem?_erase_entry]
    split
    · rename_i hid
      subst hid
      rcases hgone with ⟨found, hmem, hblock, hresolves⟩ | hdropped
      · exact absurd hresolves (hunresolved found hmem hblock)
      · rw [hdropped] at hkept
        cases hkept
    · exact hconsumed.covered i log other hi hlog hopens hunresolved hkept
  cleared i log key hi hlog hresolves := by
    rw [getElem?_erase_entry]
    split
    · rfl
    · exact hconsumed.cleared i log key hi hlog hresolves

/-- Marking an entry changes nothing. -/
theorem respond (hconsumed : Consumed config logs highest dropped p entries) {entry : OpenChallenge}
    (hentry : entries[id]? = some entry) (tx : Option String) :
    Consumed config logs highest dropped p (entries.insert id { entry with respondedTx := tx }) where
  own key found hfound := by
    rw [getElem?_insert_entry] at hfound
    split at hfound
    · rename_i hid
      obtain rfl := Option.some.inj hfound
      rw [← hid]
      exact hconsumed.own id entry hentry
    · exact hconsumed.own key found hfound
  covered i log other hi hlog hopens hunresolved hkept := by
    rw [getElem?_insert_entry]
    split
    · exact Option.some_ne_none _
    · exact hconsumed.covered i log other hi hlog hopens hunresolved hkept
  cleared i log key hi hlog hresolves := by
    have hnone := hconsumed.cleared i log key hi hlog hresolves
    rw [getElem?_insert_entry, if_neg, hnone]
    rintro rfl
    rw [hnone] at hentry
    cases hentry

/-- One position on, if what the log does is done. -/
theorem succ (hconsumed : Consumed config logs highest dropped p entries)
    (hlog : logs[p]? = some log)
    (hopened : ∀ challenge : OpenChallenge, log.Opens config.providerId challenge →
      entries[challenge.challengeId]? ≠ none)
    (hresolved : ∀ id, log.Resolves config.providerId id → entries[id]? = none) :
    Consumed config logs highest dropped (p + 1) entries where
  own := hconsumed.own
  covered i log' challenge hi hlog' hopens hunresolved hkept := by
    rcases Nat.lt_succ_iff_lt_or_eq.mp hi with hlt | rfl
    · exact hconsumed.covered i log' challenge hlt hlog' hopens hunresolved hkept
    · obtain rfl := Option.some.inj (hlog.symm.trans hlog')
      exact hopened challenge hopens
  cleared i log' id hi hlog' hresolves := by
    rcases Nat.lt_succ_iff_lt_or_eq.mp hi with hlt | rfl
    · exact hconsumed.cleared i log' id hlt hlog' hresolves
    · obtain rfl := Option.some.inj (hlog.symm.trans hlog')
      exact hresolved id hresolves

theorem succ_quiet (hconsumed : Consumed config logs highest dropped p entries)
    (hlog : logs[p]? = some log) (hnone : log.ledgerCall config.providerId = none) :
    Consumed config logs highest dropped (p + 1) entries := by
  refine hconsumed.succ hlog ?_ ?_
  · intro challenge hopens
    rw [Log.Opens, hnone] at hopens
    cases hopens
  · intro id hresolves
    rw [Log.Resolves, hnone] at hresolves
    cases hresolves

theorem succ_recorded (hconsumed : Consumed config logs highest dropped p entries)
    (hlog : logs[p]? = some log) {call : LedgerCall}
    (hcall : log.ledgerCall config.providerId = some call) (hrecorded : call.Recorded entries) :
    Consumed config logs highest dropped (p + 1) entries := by
  refine hconsumed.succ hlog ?_ ?_
  · intro challenge hopens
    rw [Log.Opens, hcall, Option.some.injEq] at hopens
    subst hopens
    exact hrecorded
  · intro id hresolves
    rw [Log.Resolves, hcall, Option.some.injEq] at hresolves
    subst hresolves
    exact hrecorded

end Consumed

/-! ## Calls of the ledger -/

namespace EnforcementScan

/-- A call that returns is recorded on disk. -/
def Lands (codec : Codec Entries) (s : EnforcementScan) (write : WriteAttempt .challenges)
    (call : LedgerCall) : Prop :=
  (s.ledger.call codec write s.disk call).1 = .ok () → ∃ found,
    Ledger.open codec (s.callLedger codec write call).disk = .ok found ∧ call.Recorded found.entries

/-- `serde_json` reads back what the call writes. -/
def ReadsBack (codec : Codec Entries) (s : EnforcementScan) (call : LedgerCall) : Prop :=
  ∀ entries, call.changed s.ledger.entries = some entries → codec.ReadsBack entries

/-- It holds in memory and of whatever a restart would read. -/
def Everywhere (codec : Codec Entries) (P : Entries → Prop) (s : EnforcementScan) : Prop :=
  P s.ledger.entries ∧ ∀ found, Ledger.open codec s.disk = .ok found → P found.entries

section

variable {codec : Codec Entries} {s : EnforcementScan} {write : WriteAttempt .challenges}
variable {call : LedgerCall} {P Q : Entries → Prop}

theorem Everywhere.imp (hholds : s.Everywhere codec P) (himp : ∀ entries, P entries → Q entries) :
    s.Everywhere codec Q :=
  ⟨himp _ hholds.1, fun found hfound => himp _ (hholds.2 found hfound)⟩

/-- A call leaves the old entries or the changed ones, in memory and on disk. -/
theorem Everywhere.callLedger (hholds : s.Everywhere codec P) (hreads : s.ReadsBack codec call)
    (hchanged : ∀ entries, call.changed s.ledger.entries = some entries → P entries) :
    (s.callLedger codec write call).Everywhere codec P := by
  unfold EnforcementScan.callLedger
  cases hcall : call.changed s.ledger.entries with
  | none =>
      rw [Ledger.call_unchanged hcall]
      exact hholds
  | some entries =>
      rw [Ledger.call_changed hcall]
      refine ⟨hchanged entries hcall, ?_⟩
      intro found hfound
      rcases write.replaces_or_kept s.disk (codec.toVec entries) with hreplaces | ⟨_, hkept⟩
      · have hopen := Intake.open_replaced hreplaces (hreads entries hcall)
        obtain rfl := Except.ok.inj (hopen.symm.trans hfound)
        exact hchanged entries hcall
      · have hopen : Ledger.open codec s.disk = .ok found :=
          (Intake.open_congr hkept).symm.trans hfound
        exact hholds.2 found hopen

/-- In memory every call is recorded. -/
theorem recorded_memory : call.Recorded (s.callLedger codec write call).ledger.entries := by
  unfold EnforcementScan.callLedger
  cases hcall : call.changed s.ledger.entries with
  | none =>
      rw [Ledger.call_unchanged hcall]
      cases call with
      | insert challenge =>
          rw [LedgerCall.changed] at hcall
          split at hcall
          · rename_i hcontains
            exact Intake.contains_iff.mp hcontains
          · cases hcall
      | markResponded id txHash => trivial
      | remove id =>
          rw [LedgerCall.changed] at hcall
          split at hcall
          · cases hcall
          · rename_i habsent
            exact not_not.mp fun hsome => habsent (Intake.contains_iff.mpr hsome)
  | some entries =>
      rw [Ledger.call_changed hcall]
      cases call with
      | insert challenge =>
          rw [LedgerCall.changed] at hcall
          split at hcall
          · cases hcall
          · obtain rfl := Option.some.inj hcall
            rw [LedgerCall.Recorded, getElem?_insert_entry, if_pos rfl]
            exact Option.some_ne_none _
      | markResponded id txHash => trivial
      | remove id =>
          rw [LedgerCall.changed] at hcall
          split at hcall
          · obtain rfl := Option.some.inj hcall
            rw [LedgerCall.Recorded, getElem?_erase_entry, if_pos rfl]
          · cases hcall

/-- A call that returned and landed is recorded everywhere. -/
theorem Lands.everywhere (hlands : s.Lands codec write call)
    (hreturns : (s.ledger.call codec write s.disk call).1 = .ok ()) :
    (s.callLedger codec write call).Everywhere codec fun entries => call.Recorded entries := by
  obtain ⟨found, hopen, hrecorded⟩ := hlands hreturns
  refine ⟨recorded_memory, ?_⟩
  intro again hagain
  obtain rfl := Except.ok.inj (hopen.symm.trans hagain)
  exact hrecorded

/-- An insert keeps every entry that is there. -/
theorem callLedger_insert_kept {challenge entry : OpenChallenge} {id : Nat}
    (hentry : s.ledger.entries[id]? = some entry) :
    (s.callLedger codec write (.insert challenge)).ledger.entries[id]? = some entry := by
  unfold EnforcementScan.callLedger
  cases hcall : (LedgerCall.insert challenge).changed s.ledger.entries with
  | none =>
      rw [Ledger.call_unchanged hcall]
      exact hentry
  | some entries =>
      rw [Ledger.call_changed hcall]
      rw [LedgerCall.changed] at hcall
      split at hcall
      · cases hcall
      · rename_i habsent
        obtain rfl := Option.some.inj hcall
        rw [getElem?_insert_entry, if_neg, hentry]
        rintro rfl
        refine habsent (Intake.contains_iff.mpr ?_)
        rw [hentry]
        exact Option.some_ne_none _

end

end EnforcementScan

end Blobsitter.Daemon
