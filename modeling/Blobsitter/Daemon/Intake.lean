import Blobsitter.Daemon.Ledger

/-!
# Durable intake of challenges

Runs of the ledger: calls whose write may fail anywhere, calls that are repeated, and
restarts.  A call that returns acknowledges its event, so the follower never delivers
it again.  What is acknowledged stays on disk exactly in the runs whose calls never
rest on an entry in memory that the file does not share.
-/

namespace Blobsitter.Daemon

open Library
open Reference (Hash)
open Std (ExtTreeMap)

/-- The entry is the challenge, responded to or not. -/
def OpenChallenge.Records (entry challenge : OpenChallenge) : Prop :=
  { entry with respondedTx := challenge.respondedTx } = challenge

def Holds (entries : Entries) (id : Nat) (challenge : OpenChallenge) : Prop :=
  ∃ entry, entries[id]? = some entry ∧ entry.Records challenge

theorem OpenChallenge.records_self (challenge : OpenChallenge) : challenge.Records challenge := rfl

theorem getElem?_insert_entry (entries : Entries) (key id : Nat) (entry : OpenChallenge) :
    (entries.insert key entry)[id]? = if key = id then some entry else entries[id]? := by
  rw [ExtTreeMap.getElem?_insert]
  simp only [compare_eq_iff_eq]

theorem getElem?_erase_entry (entries : Entries) (key id : Nat) :
    (entries.erase key)[id]? = if key = id then none else entries[id]? := by
  rw [ExtTreeMap.getElem?_erase]
  simp only [compare_eq_iff_eq]

theorem holds_insert {entries : Entries} {key id : Nat} {entry challenge : OpenChallenge} :
    Holds (entries.insert key entry) id challenge ↔
      if key = id then entry.Records challenge else Holds entries id challenge := by
  simp only [Holds, getElem?_insert_entry]
  split
  · constructor
    · rintro ⟨_, heq, hrecords⟩
      obtain rfl := Option.some.inj heq
      exact hrecords
    · exact fun hrecords => ⟨entry, rfl, hrecords⟩
  · exact Iff.rfl

theorem holds_erase {entries : Entries} {key id : Nat} {challenge : OpenChallenge} :
    Holds (entries.erase key) id challenge ↔ id ≠ key ∧ Holds entries id challenge := by
  simp only [Holds, getElem?_erase_entry]
  by_cases hsame : key = id
  · rw [if_pos hsame]
    constructor
    · rintro ⟨_, hnone, _⟩
      cases hnone
    · exact fun both => absurd hsame.symm both.1
  · rw [if_neg hsame]
    exact ⟨fun hholds => ⟨fun heq => hsame heq.symm, hholds⟩, fun both => both.2⟩

/-- Marking an entry as responded to changes nothing that is recorded. -/
theorem holds_responded {entries : Entries} {key : Nat} {entry : OpenChallenge}
    (hentry : entries[key]? = some entry) (tx : Option String) {id : Nat} {challenge : OpenChallenge} :
    Holds (entries.insert key { entry with respondedTx := tx }) id challenge ↔
      Holds entries id challenge := by
  rw [holds_insert]
  split
  · rename_i hsame
    subst hsame
    constructor
    · exact fun hrecords => ⟨entry, hentry, hrecords⟩
    · rintro ⟨found, hfound, hrecords⟩
      rw [hentry] at hfound
      obtain rfl := Option.some.inj hfound
      exact hrecords
  · exact Iff.rfl

/-- The ledger of a running daemon, its directory, and what its calls have returned:
the challenges whose insert returned and whose remove has not since, and the ids whose
remove returned and that have not been inserted since. -/
structure Intake where
  ledger : Ledger
  disk : Disk DataFile
  acknowledged : Nat → Option OpenChallenge
  removed : Nat → Bool

/-- A call whose write goes one way or another, or a restart.  A crash inside a call is
the call with a write that fails there, then a restart. -/
inductive Happening where
  | call (call : LedgerCall) (write : WriteAttempt .challenges)
  | restart

namespace Intake

variable (codec : Codec Entries) (s : Intake)

def acknowledge (returned : Bool) : LedgerCall → Nat → Option OpenChallenge
  | .insert challenge =>
      if returned then Function.update s.acknowledged challenge.challengeId (some challenge)
      else s.acknowledged
  | .markResponded _ _ => s.acknowledged
  | .remove id => if returned then Function.update s.acknowledged id none else s.acknowledged

def forget (returned : Bool) : LedgerCall → Nat → Bool
  | .insert challenge => Function.update s.removed challenge.challengeId false
  | .markResponded _ _ => s.removed
  | .remove id => if returned then Function.update s.removed id true else s.removed

def step : Happening → Except String Intake
  | .call call write =>
      let outcome := s.ledger.call codec write s.disk call
      .ok ⟨outcome.2.1, outcome.2.2, s.acknowledge outcome.1.isOk call, s.forget outcome.1.isOk call⟩
  | .restart => (Ledger.open codec s.disk).map fun ledger => { s with ledger := ledger }

/-- A daemon that has just opened its ledger. -/
def Starts : Prop :=
  Ledger.open codec s.disk = .ok s.ledger ∧ (∀ id, s.acknowledged id = none) ∧
    ∀ id, s.removed id = false

end Intake

/-- A run, with the state before each happening.  `serde_json` reads back every text that
a call of the run tries to write. -/
inductive Run (codec : Codec Entries) (start : Intake) :
    List (Intake × Happening) → Intake → Prop where
  | start : Run codec start [] start
  | next {trace : List (Intake × Happening)} {s next : Intake} {happening : Happening}
      (hrun : Run codec start trace s)
      (hreads : ∀ call write entries, happening = .call call write →
        call.changed s.ledger.entries = some entries → codec.ReadsBack entries)
      (hstep : s.step codec happening = .ok next) :
      Run codec start (trace ++ [(s, happening)]) next

/-- What is acknowledged is recorded, what is removed is not. -/
def Law (entries : Entries) (acknowledged : Nat → Option OpenChallenge) (removed : Nat → Bool) :
    Prop :=
  (∀ id challenge, acknowledged id = some challenge → Holds entries id challenge) ∧
    ∀ id, removed id = true → entries[id]? = none

/-- The ledger on disk, as a restart would open it, obeys the law. -/
def Intake.Durable (codec : Codec Entries) (s : Intake) : Prop :=
  ∃ found, Ledger.open codec s.disk = .ok found ∧ Law found.entries s.acknowledged s.removed

/-- Every acknowledged challenge of another id is in memory. -/
def Intake.MemoryKeeps (s : Intake) (id : Nat) : Prop :=
  ∀ other, other ≠ id → ∀ known, s.acknowledged other = some known →
    Holds s.ledger.entries other known

/-- An insert that finds its id in memory finds the challenge in the file; a remove that
does not find its id in memory does not find it in the file.  A call that replaces the
file has every other acknowledged challenge in memory; and if it does not return, its
own challenge was not acknowledged, or is the one it writes. -/
def Intake.Meets (codec : Codec Entries) (s : Intake) : Happening → Prop
  | .restart => True
  | .call (.insert challenge) write =>
      if s.ledger.entries.contains challenge.challengeId then
        ∃ found, Ledger.open codec s.disk = .ok found ∧
          Holds found.entries challenge.challengeId challenge
      else
        let bytes := codec.toVec (s.ledger.entries.insert challenge.challengeId challenge)
        write.Replaces s.disk bytes → s.MemoryKeeps challenge.challengeId ∧
          (¬write.Returns s.disk bytes → ∀ known,
            s.acknowledged challenge.challengeId = some known → challenge.Records known)
  | .call (.markResponded id txHash) write =>
      match s.ledger.entries[id]? with
      | none => True
      | some entry =>
          write.Replaces s.disk (codec.toVec
              (s.ledger.entries.insert id { entry with respondedTx := some txHash })) →
            ∀ other known, s.acknowledged other = some known → Holds s.ledger.entries other known
  | .call (.remove id) write =>
      if s.ledger.entries.contains id then
        let bytes := codec.toVec (s.ledger.entries.erase id)
        write.Replaces s.disk bytes →
          s.MemoryKeeps id ∧ (¬write.Returns s.disk bytes → s.acknowledged id = none)
      else ∃ found, Ledger.open codec s.disk = .ok found ∧ found.entries[id]? = none

section

variable {codec : Codec Entries} {s next : Intake}

section

variable {entries : Entries} {acknowledged : Nat → Option OpenChallenge} {removed : Nat → Bool}

/-- The law after one id changed. -/
theorem law_update_iff {id : Nat} {value : Option OpenChallenge} {gone : Bool} :
    Law entries (Function.update acknowledged id value) (Function.update removed id gone) ↔
      ((∀ known, value = some known → Holds entries id known) ∧ ∀ other, other ≠ id →
        ∀ known, acknowledged other = some known → Holds entries other known) ∧
      (gone = true → entries[id]? = none) ∧
        ∀ other, other ≠ id → removed other = true → entries[other]? = none := by
  rw [Law, Function.forall_update_iff acknowledged fun other found =>
      ∀ known, found = some known → Holds entries other known,
    Function.forall_update_iff removed fun other found => found = true → entries[other]? = none]

theorem Law.acknowledge_iff (hlaw : Law entries acknowledged removed) {id : Nat}
    {challenge : OpenChallenge} :
    Law entries (Function.update acknowledged id (some challenge))
        (Function.update removed id false) ↔ Holds entries id challenge := by
  rw [law_update_iff]
  constructor
  · exact fun hnext => hnext.1.1 challenge rfl
  · intro hholds
    refine ⟨⟨?_, fun other _ => hlaw.1 other⟩, Bool.noConfusion, fun other _ => hlaw.2 other⟩
    intro known hknown
    rwa [← Option.some.inj hknown]

theorem Law.forget_iff (hlaw : Law entries acknowledged removed) {id : Nat} :
    Law entries (Function.update acknowledged id none) (Function.update removed id true) ↔
      entries[id]? = none := by
  rw [law_update_iff]
  constructor
  · exact fun hnext => hnext.2.1 rfl
  · intro hnone
    refine ⟨⟨?_, fun other _ => hlaw.1 other⟩, fun _ => hnone, fun other _ => hlaw.2 other⟩
    intro known hknown
    cases hknown

end

/-! ## One call -/

namespace Intake

/-- No removed id is in memory. -/
def Forgotten (s : Intake) : Prop := ∀ id, s.removed id = true → s.ledger.entries[id]? = none

theorem durable_iff_law {found : Ledger} (hopen : Ledger.open codec s.disk = .ok found) :
    s.Durable codec ↔ Law found.entries s.acknowledged s.removed := by
  constructor
  · rintro ⟨ledger, hledger, hlaw⟩
    obtain rfl := Except.ok.inj (hopen.symm.trans hledger)
    exact hlaw
  · exact fun hlaw => ⟨found, hopen, hlaw⟩

theorem contains_iff {entries : Entries} {id : Nat} :
    entries.contains id = true ↔ entries[id]? ≠ none := by
  rw [ExtTreeMap.contains_eq_isSome_getElem?, Option.isSome_iff_ne_none]

theorem forgotten_unchanged {call : LedgerCall} (hforgotten : s.Forgotten)
    (hchanged : call.changed s.ledger.entries = none) {id : Nat}
    (hremoved : s.forget true call id = true) : s.ledger.entries[id]? = none := by
  cases call with
  | insert challenge =>
      rw [forget, Function.update_apply] at hremoved
      split at hremoved
      · cases hremoved
      · exact hforgotten id hremoved
  | markResponded key txHash => exact hforgotten id hremoved
  | remove key =>
      rw [forget, if_pos rfl, Function.update_apply] at hremoved
      split at hremoved
      · rename_i hsame
        rw [LedgerCall.changed] at hchanged
        split at hchanged
        · cases hchanged
        · rename_i habsent
          rw [hsame]
          exact not_not.mp fun hsome => habsent (contains_iff.mpr hsome)
      · exact hforgotten id hremoved

theorem forgotten_changed {call : LedgerCall} {entries : Entries} (hforgotten : s.Forgotten)
    (hchanged : call.changed s.ledger.entries = some entries) {returned : Bool} {id : Nat}
    (hremoved : s.forget returned call id = true) : entries[id]? = none := by
  cases call with
  | insert challenge =>
      rw [LedgerCall.changed] at hchanged
      split at hchanged
      · cases hchanged
      · obtain rfl := Option.some.inj hchanged
        rw [forget, Function.update_apply] at hremoved
        split at hremoved
        · cases hremoved
        · rename_i hne
          rw [getElem?_insert_entry, if_neg fun heq => hne heq.symm]
          exact hforgotten id hremoved
  | markResponded key txHash =>
      rw [LedgerCall.changed, Option.map_eq_some_iff] at hchanged
      obtain ⟨entry, hentry, rfl⟩ := hchanged
      have hnone := hforgotten id hremoved
      rw [getElem?_insert_entry, if_neg, hnone]
      rintro rfl
      rw [hnone] at hentry
      cases hentry
  | remove key =>
      rw [LedgerCall.changed] at hchanged
      split at hchanged
      · obtain rfl := Option.some.inj hchanged
        rw [getElem?_erase_entry]
        split
        · rfl
        · rename_i hne
          rw [forget] at hremoved
          split at hremoved
          · rw [Function.update_of_ne fun heq => hne heq.symm] at hremoved
            exact hforgotten id hremoved
          · exact hforgotten id hremoved
      · cases hchanged

/-- A call that writes nothing keeps the law exactly when the file confirms its check. -/
theorem law_unchanged_iff {call : LedgerCall} {write : WriteAttempt .challenges} {found : Ledger}
    (hopen : Ledger.open codec s.disk = .ok found)
    (hlaw : Law found.entries s.acknowledged s.removed)
    (hchanged : call.changed s.ledger.entries = none) :
    Law found.entries (s.acknowledge true call) (s.forget true call) ↔
      s.Meets codec (.call call write) := by
  have hfound : ∀ P : Ledger → Prop,
      (∃ ledger, Ledger.open codec s.disk = .ok ledger ∧ P ledger) ↔ P found := by
    intro P
    constructor
    · rintro ⟨ledger, hledger, hP⟩
      obtain rfl := Except.ok.inj (hopen.symm.trans hledger)
      exact hP
    · exact fun hP => ⟨found, hopen, hP⟩
  cases call with
  | insert challenge =>
      rw [LedgerCall.changed] at hchanged
      split at hchanged
      · rename_i hcontains
        rw [Meets, if_pos hcontains, hfound fun ledger =>
          Holds ledger.entries challenge.challengeId challenge]
        exact hlaw.acknowledge_iff
      · cases hchanged
  | markResponded key txHash =>
      rw [LedgerCall.changed, Option.map_eq_none_iff] at hchanged
      rw [Meets, hchanged]
      exact iff_of_true hlaw trivial
  | remove key =>
      rw [LedgerCall.changed] at hchanged
      split at hchanged
      · cases hchanged
      · rename_i habsent
        rw [Meets, if_neg habsent, hfound fun ledger => ledger.entries[key]? = none]
        exact hlaw.forget_iff

theorem acknowledge_insert (returned : Bool) (challenge : OpenChallenge) :
    s.acknowledge returned (.insert challenge) = Function.update s.acknowledged
      challenge.challengeId
        (if returned then some challenge else s.acknowledged challenge.challengeId) := by
  cases returned with
  | true => rfl
  | false => exact (Function.update_eq_self _ _).symm

theorem acknowledge_remove (returned : Bool) (key : Nat) :
    s.acknowledge returned (.remove key) = Function.update s.acknowledged key
      (if returned then none else s.acknowledged key) := by
  cases returned with
  | true => rfl
  | false => exact (Function.update_eq_self _ _).symm

/-- A call that replaces the file keeps the law exactly when memory held what it should. -/
theorem law_replaced_iff {call : LedgerCall} {write : WriteAttempt .challenges} {entries : Entries}
    (hforgotten : s.Forgotten) (hchanged : call.changed s.ledger.entries = some entries)
    (hreplaces : write.Replaces s.disk (codec.toVec entries)) {returned : Bool}
    (hreturned : returned = true ↔ write.Returns s.disk (codec.toVec entries)) :
    Law entries (s.acknowledge returned call) (s.forget returned call) ↔
      s.Meets codec (.call call write) := by
  have hremoved : ∀ id, s.forget returned call id = true → entries[id]? = none :=
    fun id hid => forgotten_changed hforgotten hchanged hid
  have hlaw : Law entries (s.acknowledge returned call) (s.forget returned call) ↔
      ∀ id known, s.acknowledge returned call id = some known → Holds entries id known :=
    ⟨And.left, fun hkept => ⟨hkept, hremoved⟩⟩
  rw [hlaw]
  cases call with
  | insert challenge =>
      rw [LedgerCall.changed] at hchanged
      split at hchanged
      · cases hchanged
      · rename_i habsent
        obtain rfl := Option.some.inj hchanged
        rw [acknowledge_insert, Function.forall_update_iff s.acknowledged fun id value =>
          ∀ known, value = some known → Holds _ id known, and_comm]
        simp only [Meets, if_neg habsent, hreplaces, ← hreturned, holds_insert, if_true,
          true_imp_iff]
        refine and_congr ?_ ?_
        · refine forall₂_congr fun other hne => ?_
          simp only [if_neg hne.symm]
        · cases returned with
          | true => simp [challenge.records_self]
          | false => simp
  | markResponded key txHash =>
      rw [LedgerCall.changed, Option.map_eq_some_iff] at hchanged
      obtain ⟨entry, hentry, rfl⟩ := hchanged
      simp only [Meets, hentry, hreplaces, acknowledge, holds_responded hentry, true_imp_iff]
  | remove key =>
      rw [LedgerCall.changed] at hchanged
      split at hchanged
      · rename_i hcontains
        obtain rfl := Option.some.inj hchanged
        rw [acknowledge_remove, Function.forall_update_iff s.acknowledged fun id value =>
          ∀ known, value = some known → Holds _ id known, and_comm]
        simp only [Meets, if_pos hcontains, hreplaces, ← hreturned, holds_erase, true_imp_iff]
        refine and_congr ?_ ?_
        · refine forall₂_congr fun other hne => ?_
          simp only [ne_eq, hne, not_false_eq_true, true_and]
        · cases returned with
          | true => simp
          | false => simp [Option.eq_none_iff_forall_ne_some]
      · cases hchanged

/-- A call whose write leaves the old file acknowledges nothing. -/
theorem law_kept {call : LedgerCall} {entries : Entries}
    (hlaw : Law entries s.acknowledged s.removed) :
    Law entries (s.acknowledge false call) (s.forget false call) := by
  cases call with
  | insert challenge =>
      refine ⟨hlaw.1, ?_⟩
      intro id hremoved
      rw [forget, Function.update_apply] at hremoved
      split at hremoved
      · cases hremoved
      · exact hlaw.2 id hremoved
  | markResponded key txHash => exact hlaw
  | remove key => exact hlaw

theorem meets_of_kept {call : LedgerCall} {write : WriteAttempt .challenges} {entries : Entries}
    (hchanged : call.changed s.ledger.entries = some entries)
    (hkept : ¬write.Replaces s.disk (codec.toVec entries)) : s.Meets codec (.call call write) := by
  cases call with
  | insert challenge =>
      rw [LedgerCall.changed] at hchanged
      split at hchanged
      · cases hchanged
      · rename_i habsent
        obtain rfl := Option.some.inj hchanged
        rw [Meets, if_neg habsent]
        exact fun hreplaces => absurd hreplaces hkept
  | markResponded key txHash =>
      rw [LedgerCall.changed, Option.map_eq_some_iff] at hchanged
      obtain ⟨entry, hentry, rfl⟩ := hchanged
      rw [Meets, hentry]
      exact fun hreplaces => absurd hreplaces hkept
  | remove key =>
      rw [LedgerCall.changed] at hchanged
      split at hchanged
      · rename_i hcontains
        obtain rfl := Option.some.inj hchanged
        rw [Meets, if_pos hcontains]
        exact fun hreplaces => absurd hreplaces hkept
      · cases hchanged

theorem open_congr {disk disk' : Disk DataFile}
    (hfile : disk' (.state .challenges) = disk (.state .challenges)) :
    Ledger.open codec disk' = Ledger.open codec disk := by
  rw [Ledger.open, Ledger.open, hfile]

theorem open_replaced {entries : Entries} {disk : Disk DataFile}
    (hfile : disk (.state .challenges) = some (codec.toVec entries))
    (hreads : codec.ReadsBack entries) : Ledger.open codec disk = .ok ⟨entries⟩ := by
  have hback : codec.fromSlice (codec.toVec entries) = .ok entries := hreads
  simp only [Ledger.open, hfile, hback]
  rfl

/-- A call on a durable ledger leaves it durable exactly when it meets the condition. -/
theorem durable_call_iff {call : LedgerCall} {write : WriteAttempt .challenges}
    (hdurable : s.Durable codec) (hforgotten : s.Forgotten)
    (hreads : ∀ entries, call.changed s.ledger.entries = some entries → codec.ReadsBack entries)
    (hstep : s.step codec (.call call write) = .ok next) :
    next.Forgotten ∧ (next.Durable codec ↔ s.Meets codec (.call call write)) := by
  obtain ⟨found, hopen, hlaw⟩ := hdurable
  obtain rfl := Except.ok.inj hstep
  cases hchanged : call.changed s.ledger.entries with
  | none =>
      rw [Ledger.call_unchanged hchanged]
      refine ⟨fun id hremoved => forgotten_unchanged hforgotten hchanged hremoved, ?_⟩
      exact Iff.trans (durable_iff_law hopen) (law_unchanged_iff hopen hlaw hchanged)
  | some entries =>
      rw [Ledger.call_changed hchanged]
      refine ⟨fun id hremoved => forgotten_changed hforgotten hchanged hremoved, ?_⟩
      by_cases hreplaces : write.Replaces s.disk (codec.toVec entries)
      · have hnext : Ledger.open codec ((Ledger.mk entries).persist codec write s.disk).2 =
            .ok ⟨entries⟩ := open_replaced hreplaces (hreads entries hchanged)
        refine Iff.trans (durable_iff_law hnext) (law_replaced_iff hforgotten hchanged hreplaces ?_)
        rw [← Ledger.persist_ok_iff]
        cases ((Ledger.mk entries).persist codec write s.disk).1 with
        | error e => exact ⟨nofun, nofun⟩
        | ok u => exact ⟨fun _ => rfl, fun _ => rfl⟩
      · obtain ⟨hfails, hfile⟩ :=
          (write.replaces_or_kept s.disk (codec.toVec entries)).resolve_left hreplaces
        have hreturned : ((Ledger.mk entries).persist codec write s.disk).1.isOk = false := by
          rw [← Ledger.persist_ok_iff] at hfails
          cases hresult : ((Ledger.mk entries).persist codec write s.disk).1 with
          | error e => rfl
          | ok u => exact absurd hresult hfails
        have hnext : Ledger.open codec ((Ledger.mk entries).persist codec write s.disk).2 =
            .ok found := (open_congr hfile).trans hopen
        refine Iff.trans (durable_iff_law hnext)
          (iff_of_true ?_ (meets_of_kept hchanged hreplaces))
        simp only [hreturned]
        exact law_kept hlaw

/-- A restart reads the file into memory and changes neither file nor acknowledgements. -/
theorem durable_restart (hdurable : s.Durable codec) (hstep : s.step codec .restart = .ok next) :
    next.Forgotten ∧ next.Durable codec := by
  obtain ⟨found, hopen, hlaw⟩ := hdurable
  rw [step, hopen] at hstep
  obtain rfl := Except.ok.inj hstep
  exact ⟨hlaw.2, found, hopen, hlaw⟩

end Intake

/-! ## Runs -/

/-- Along a run the ledger on disk obeys the law exactly when every call meets the
condition. -/
theorem intake_durable_iff {start final : Intake} {trace : List (Intake × Happening)}
    (hstart : start.Starts codec) (hrun : Run codec start trace final) :
    ((∀ entry ∈ trace, entry.1.Durable codec) ∧ final.Durable codec) ↔
      ∀ entry ∈ trace, entry.1.Meets codec entry.2 := by
  have hbegin : start.Forgotten ∧ start.Durable codec := by
    obtain ⟨hopen, hnone, hfalse⟩ := hstart
    refine ⟨?_, start.ledger, hopen, ?_, ?_⟩
    · intro id hremoved
      rw [hfalse] at hremoved
      cases hremoved
    · intro id known hknown
      rw [hnone] at hknown
      cases hknown
    · intro id hremoved
      rw [hfalse] at hremoved
      cases hremoved
  suffices hboth : ((∀ entry ∈ trace, entry.1.Durable codec) ∧ final.Durable codec →
      final.Forgotten) ∧ (((∀ entry ∈ trace, entry.1.Durable codec) ∧ final.Durable codec) ↔
        ∀ entry ∈ trace, entry.1.Meets codec entry.2) from hboth.2
  induction hrun with
  | start =>
      refine ⟨fun _ => hbegin.1, ?_⟩
      exact iff_of_true ⟨fun _ hmem => (List.not_mem_nil hmem).elim, hbegin.2⟩
        fun _ hmem => (List.not_mem_nil hmem).elim
  | @next trace s next happening _ hreads hstep ih =>
      obtain ⟨hforgotten, hiff⟩ := ih
      have hsplit : ∀ P : Intake × Happening → Prop, (∀ entry ∈ trace ++ [(s, happening)], P entry) ↔
          (∀ entry ∈ trace, P entry) ∧ P (s, happening) := by
        intro P
        rw [List.forall_mem_append, List.forall_mem_singleton]
      rw [hsplit fun entry => entry.1.Durable codec, hsplit fun entry => entry.1.Meets codec entry.2,
        ← hiff]
      have hone : (∀ entry ∈ trace, entry.1.Durable codec) ∧ s.Durable codec →
          next.Forgotten ∧ (next.Durable codec ↔ s.Meets codec happening) := by
        intro hbefore
        cases happening with
        | call call write =>
            exact Intake.durable_call_iff hbefore.2 (hforgotten hbefore)
              (fun entries => hreads call write entries rfl) hstep
        | restart =>
            obtain ⟨hnext, hdurable⟩ := Intake.durable_restart hbefore.2 hstep
            exact ⟨hnext, iff_of_true hdurable trivial⟩
      exact ⟨fun hall => (hone hall.1).1, and_congr_right fun hbefore => (hone hbefore).2⟩

end

def sampleChallenge : OpenChallenge where
  challengeId := 7
  indices := [0, 5, 5, 12]
  pinnedRoot := Vector.replicate 32 7
  pinnedLeafCount := 40
  deadline := 1700000007
  respondedTx := none

def challengeJson (challenge : OpenChallenge) : String :=
  "\x7b\n    \"challenge_id\": " ++ toString challenge.challengeId ++ ",\n    \"indices\": " ++
    (if challenge.indices = [] then "[]"
      else "[\n      " ++ ",\n      ".intercalate (challenge.indices.map toString) ++ "\n    ]") ++
    ",\n    \"pinned_root\": " ++ hexText challenge.pinnedRoot.toList ++
    ",\n    \"pinned_leaf_count\": " ++ toString challenge.pinnedLeafCount ++
    ",\n    \"deadline\": " ++ toString challenge.deadline ++ ",\n    \"responded_tx\": " ++
    (match challenge.respondedTx with
      | none => "null"
      | some tx => "\"" ++ tx ++ "\"") ++ "\n  \x7d"

/-- `to_vec_pretty` of the entries; a transaction hash needs no escapes. -/
def ledgerJson (entries : Entries) : ByteString :=
  let members := entries.toList.map fun entry =>
    "\"" ++ toString entry.1 ++ "\": " ++ challengeJson entry.2
  (if members = [] then "\x7b\x7d"
    else "\x7b\n  " ++ ",\n  ".intercalate members ++ "\n\x7d").toUTF8.toList

def sampleEntries : Entries := (∅ : Entries).insert 7 sampleChallenge

/-- The text format, read back for the one ledger of the sample. -/
def sampleLedgerCodec : Codec Entries where
  toVec := ledgerJson
  fromSlice bytes :=
    if bytes = ledgerJson sampleEntries then .ok sampleEntries else .error "expected value"

/-- A daemon on an empty directory. -/
def emptyIntake : Intake := ⟨⟨∅⟩, fun _ => none, fun _ => none, fun _ => false⟩

def fullDiskDelivery : Happening :=
  .call (.insert sampleChallenge) (.fails .challenges "No space left on device (os error 28)")

def redelivery : Happening := .call (.insert sampleChallenge) (.completes .challenges)

/-- The insert has failed: the challenge is in memory only. -/
def unsavedIntake : Intake :=
  ⟨⟨sampleEntries⟩, fun _ => none, fun _ => none, Function.update (fun _ => false) 7 false⟩

/-- The insert has been repeated and has returned. -/
def lostIntake : Intake :=
  ⟨⟨sampleEntries⟩, fun _ => none, Function.update (fun _ => none) 7 (some sampleChallenge),
    Function.update (Function.update (fun _ => false) 7 false) 7 false⟩

def lostTrace : List (Intake × Happening) :=
  [(emptyIntake, fullDiskDelivery), (unsavedIntake, redelivery)]

theorem emptyIntake_starts : emptyIntake.Starts sampleLedgerCodec :=
  ⟨rfl, fun _ => rfl, fun _ => rfl⟩

theorem lostIntake_run : Run sampleLedgerCodec emptyIntake lostTrace lostIntake := by
  have hfirst : (LedgerCall.insert sampleChallenge).changed emptyIntake.ledger.entries =
      some sampleEntries := by
    rw [LedgerCall.changed, if_neg (by simp [emptyIntake])]
    rfl
  have hagain : (LedgerCall.insert sampleChallenge).changed unsavedIntake.ledger.entries = none := by
    rw [LedgerCall.changed, if_pos (by simp [unsavedIntake, sampleEntries, sampleChallenge])]
  have hfails : emptyIntake.step sampleLedgerCodec fullDiskDelivery = .ok unsavedIntake := by
    rw [fullDiskDelivery, Intake.step, Ledger.call_changed hfirst]
    rfl
  have hreturns : unsavedIntake.step sampleLedgerCodec redelivery = .ok lostIntake := by
    rw [redelivery, Intake.step, Ledger.call_unchanged hagain]
    rfl
  refine .next (.next .start ?_ hfails) ?_ hreturns
  · intro call write entries hcall hchanged
    obtain ⟨rfl, -⟩ := Happening.call.inj hcall
    rw [hfirst] at hchanged
    obtain rfl := Option.some.inj hchanged
    exact if_pos rfl
  · intro call write entries hcall hchanged
    obtain ⟨rfl, -⟩ := Happening.call.inj hcall
    rw [hagain] at hchanged
    cases hchanged

theorem intake_durable_iff_lost :
    ((∀ entry ∈ lostTrace, entry.1.Durable sampleLedgerCodec) ∧
        lostIntake.Durable sampleLedgerCodec) ↔
      ∀ entry ∈ lostTrace, entry.1.Meets sampleLedgerCodec entry.2 :=
  intake_durable_iff emptyIntake_starts lostIntake_run

/-- After a failed write, the repeated insert returns and nothing is on disk. -/
theorem acknowledged_challenge_lost :
    emptyIntake.Starts sampleLedgerCodec ∧
      Run sampleLedgerCodec emptyIntake lostTrace lostIntake ∧
      lostIntake.acknowledged 7 = some sampleChallenge ∧
      Ledger.open sampleLedgerCodec lostIntake.disk = .ok ⟨∅⟩ ∧
      ¬lostIntake.Durable sampleLedgerCodec := by
  have hopen : Ledger.open sampleLedgerCodec lostIntake.disk = .ok ⟨∅⟩ := rfl
  refine ⟨emptyIntake_starts, lostIntake_run, rfl, hopen, ?_⟩
  rintro ⟨found, hfound, hlaw, -⟩
  obtain rfl := Except.ok.inj (hopen.symm.trans hfound)
  obtain ⟨entry, hentry, -⟩ := hlaw 7 sampleChallenge rfl
  rw [ExtTreeMap.getElem?_empty] at hentry
  cases hentry

end Blobsitter.Daemon
