import Blobsitter.Contract.Resolutions
import Blobsitter.Daemon.IntakeDeficit
import Blobsitter.Daemon.Responder

/-!
# Responses that are owed

Whether an answer is still owed stands in three places: on the chain, in the ledger and
among the jobs.  A tick compares the last two only, so a response that was confirmed and
then taken back by a reorg is owed again without being noticed.
-/

namespace Blobsitter.Daemon

open Library
open Contract (World Reachable Deployment system)

/-- The responder with the scan that shares its ledger, and the chain: its finalized block
and its head. -/
structure Duty where
  scan : EnforcementScan
  jobs : Nat → Option Job
  finalized : World
  head : World

inductive DutyInput where
  | scan (input : ScanInput)
  | drive (chainNow : Nat)
  /-- The job finds the challenge resolved and removes the entry. -/
  | cleanUp (id : Nat) (write : WriteAttempt .challenges)
  /-- `send_until` returns the hash of a confirmed response. -/
  | confirm (id : Nat) (txHash : String)
  /-- The job records the confirmation. -/
  | record (id : Nat) (write : WriteAttempt .challenges)
  /-- The job ends without a confirmed response. -/
  | fail (id : Nat)
  | reconcile (id : Nat) (write : WriteAttempt .challenges)
  | mined (head : World)
  | finalize (world : World)
  /-- The blocks after the finalized one are replaced. -/
  | reorg (head : World)

section

variable (config : ScanConfig) (codec : Codec Entries)

namespace Duty

def responder (self : Duty) : Responder := ⟨self.scan.ledger, self.jobs⟩

/-- A call of the ledger by a job, or by `reconcile`. -/
def callLedger (self : Duty) (call : LedgerCall) (write : WriteAttempt .challenges) :
    Option Duty :=
  (self.scan.step config codec (.job call write)).map fun scan => { self with scan := scan }

def setJob (self : Duty) (id : Nat) (job : Job) : Duty :=
  { self with jobs := Function.update self.jobs id (some job) }

def step (self : Duty) : DutyInput → Option Duty
  | .scan input =>
      (self.scan.step config codec input).map fun scan =>
        match input with
        | .restart => { self with scan := scan, jobs := fun _ => none }
        | _ => { self with scan := scan }
  | .drive chainNow =>
      match self.scan.phase with
      | .idle => some { self with jobs := (self.responder.drive chainNow).jobs }
      | _ => none
  | .cleanUp id write =>
      match self.jobs id with
      | some .answering => (self.setJob id .finished).callLedger config codec (.remove id) write
      | _ => none
  | .confirm id txHash =>
      match self.jobs id with
      | some .answering => some (self.setJob id (.confirmed txHash))
      | _ => none
  | .record id write =>
      match self.jobs id with
      | some (.confirmed txHash) =>
          (self.setJob id .finished).callLedger config codec (.markResponded id txHash) write
      | _ => none
  | .fail id =>
      match self.jobs id with
      | some .answering => some (self.setJob id .finished)
      | _ => none
  | .reconcile id write => self.callLedger config codec (.remove id) write
  | .mined head => some { self with head := head }
  | .finalize world => some { self with finalized := world }
  | .reorg head => some { self with head := head }

end Duty

variable (keccak256 : ByteString → Reference.Hash) (dep : Deployment)

/-- What a run may meet: the chain grows by calls of the contract and is replaced after its
finalized block only, a job learns from the head, and the ledger reads back what it wrote. -/
def DutyInput.Possible (self : Duty) : DutyInput → Prop
  | .scan (.job _ _) => False
  | .scan (.dispatch _ _) => ∀ finalized to_ log rest call,
      self.scan.phase = .dispatching finalized to_ (log :: rest) →
      log.ledgerCall config.providerId = some call → self.scan.ReadsBack codec call
  | .scan _ => True
  | .drive _ => True
  | .cleanUp id _ => self.head.Resolved id ∧ self.scan.ReadsBack codec (.remove id)
  | .confirm id _ => self.head.Answered id
  | .record id _ => ∀ txHash, self.jobs id = some (.confirmed txHash) →
      self.scan.ReadsBack codec (.markResponded id txHash)
  | .fail _ => True
  | .reconcile id _ => self.head.Resolved id ∧ self.scan.ReadsBack codec (.remove id)
  | .mined head => head.stack = [] ∧ (system keccak256 dep).Steps self.head head
  | .finalize world => world.stack = [] ∧ (system keccak256 dep).Steps self.finalized world ∧
      (system keccak256 dep).Steps world self.head
  | .reorg head => head.stack = [] ∧ (system keccak256 dep).Steps self.finalized head

/-- The first start: no ledger and no jobs. -/
structure Duty.Starts (duty : Duty) : Prop where
  ledger : duty.scan.ledger.entries = ∅
  file : duty.scan.disk (.state .challenges) = none
  jobs : duty.jobs = fun _ => none
  finalized : Reachable keccak256 dep duty.finalized ∧ duty.finalized.stack = []
  head : duty.head.stack = [] ∧ (system keccak256 dep).Steps duty.finalized duty.head

/-- A run, with the state before each input. -/
inductive DutyRun (start : Duty) : List (Duty × DutyInput) → Duty → Prop where
  | start : DutyRun start [] start
  | next {trace : List (Duty × DutyInput)} {self next : Duty} {input : DutyInput}
      (hrun : DutyRun start trace self)
      (hpossible : input.Possible config codec keccak256 dep self)
      (hstep : self.step config codec input = some next) :
      DutyRun start (trace ++ [(self, input)]) next

end

/-- An entry of the ledger before its deadline whose challenge the chain reports unresolved,
with no job running. -/
structure Duty.Owes (duty : Duty) (chainNow : Nat) (entry : OpenChallenge) : Prop where
  held : entry ∈ duty.scan.ledger.entries.toList.map Prod.snd
  open_ : chainNow < entry.deadline
  unresolved : ¬duty.head.Resolved entry.challengeId
  idle : ∀ job, duty.jobs entry.challengeId = some job → job.isFinished = true

/-- The tick starts a job for the challenge. -/
def Duty.StartsJob (self : Duty) (chainNow id : Nat) : Prop :=
  (self.responder.drive chainNow).jobs id = some .answering

/-- A job saw a response to the challenge confirmed. -/
def ResponseConfirmed (trace : List (Duty × DutyInput)) (id : Nat) : Prop :=
  ∃ self txHash, (self, DutyInput.confirm id txHash) ∈ trace

/-- No reorg takes back the resolution of a challenge whose response a job saw confirmed. -/
def KeepsAnswers (trace : List (Duty × DutyInput)) : Prop :=
  ∀ before self head after, trace = before ++ (self, .reorg head) :: after →
    ∀ id, ResponseConfirmed before id → head.Resolved id

/-- Entries stand under their own ids, and their responses are known ones. -/
def Ledgered (known : Nat → Prop) (entries : Entries) : Prop :=
  ∀ id entry, entries[id]? = some entry →
    entry.challengeId = id ∧ (entry.respondedTx ≠ none → known id)

section

variable {known : Nat → Prop} {entries : Entries}

namespace Ledgered

theorem mono (hledgered : Ledgered known entries) {more : Nat → Prop}
    (hmore : ∀ id, known id → more id) : Ledgered more entries := by
  intro id entry hentry
  obtain ⟨hid, hknown⟩ := hledgered id entry hentry
  exact ⟨hid, fun hresponded => hmore id (hknown hresponded)⟩

theorem insert (hledgered : Ledgered known entries) {challenge : OpenChallenge} {key : Nat}
    (hkey : challenge.challengeId = key) (hknown : challenge.respondedTx ≠ none → known key) :
    Ledgered known (entries.insert key challenge) := by
  intro id entry hentry
  rw [getElem?_insert_entry] at hentry
  split at hentry
  · rename_i hid
    obtain rfl := Option.some.inj hentry
    subst hid
    exact ⟨hkey, hknown⟩
  · exact hledgered id entry hentry

theorem erase (hledgered : Ledgered known entries) (key : Nat) :
    Ledgered known (entries.erase key) := by
  intro id entry hentry
  rw [getElem?_erase_entry] at hentry
  split at hentry
  · cases hentry
  · exact hledgered id entry hentry

/-- Only a recorded response makes an entry responded. -/
theorem changed (hledgered : Ledgered known entries) {call : LedgerCall} {after : Entries}
    (hinsert : ∀ challenge, call = .insert challenge → challenge.respondedTx = none)
    (hrespond : ∀ id txHash, call = .markResponded id txHash → known id)
    (hchanged : call.changed entries = some after) : Ledgered known after := by
  cases call with
  | insert challenge =>
      rw [LedgerCall.changed] at hchanged
      split at hchanged
      · cases hchanged
      · obtain rfl := Option.some.inj hchanged
        exact hledgered.insert rfl fun hresponded => absurd (hinsert challenge rfl) hresponded
  | markResponded id txHash =>
      rw [LedgerCall.changed, Option.map_eq_some_iff] at hchanged
      obtain ⟨entry, hentry, rfl⟩ := hchanged
      exact hledgered.insert (hledgered id entry hentry).1 fun _ => hrespond id txHash rfl
  | remove id =>
      rw [LedgerCall.changed] at hchanged
      split at hchanged
      · obtain rfl := Option.some.inj hchanged
        exact hledgered.erase id
      · cases hchanged

/-- An entry is found under the id of its challenge. -/
theorem held (hledgered : Ledgered known entries) {entry : OpenChallenge}
    (hmem : entry ∈ entries.toList.map Prod.snd) :
    entries[entry.challengeId]? = some entry := by
  obtain ⟨⟨id, found⟩, hpair, rfl⟩ := List.mem_map.mp hmem
  have hentry := Std.ExtTreeMap.mem_toList_iff_getElem?_eq_some.mp hpair
  rw [(hledgered id found hentry).1]
  exact hentry

end Ledgered

/-- The follower inserts challenges without a response. -/
theorem Log.ledgerCall_unanswered {log : Log} {providerId : Nat} {challenge : OpenChallenge}
    (hopens : log.ledgerCall providerId = some (.insert challenge)) :
    challenge.respondedTx = none := by
  obtain ⟨block, event⟩ := log
  cases event with
  | challengeOpened =>
      unfold Log.ledgerCall at hopens
      simp only at hopens
      split at hopens
      · cases hopens
        rfl
      · cases hopens
  | _ => cases hopens

theorem Log.ledgerCall_ne_markResponded {log : Log} {providerId id : Nat} {txHash : String} :
    log.ledgerCall providerId ≠ some (.markResponded id txHash) := by
  intro hcall
  obtain ⟨block, event⟩ := log
  cases event with
  | challengeOpened =>
      unfold Log.ledgerCall at hcall
      simp only at hcall
      split at hcall
      · cases hcall
      · cases hcall
  | _ => cases hcall

/-- The scan records no responses. -/
theorem EnforcementScan.Everywhere.ledgered_step {config : ScanConfig} {codec : Codec Entries}
    {scan next : EnforcementScan} {input : ScanInput}
    (hledgered : scan.Everywhere codec (Ledgered known))
    (hjob : ∀ call write, input ≠ .job call write)
    (hreads : ∀ write rewind, input = .dispatch write rewind → ∀ finalized to_ log rest call,
      scan.phase = .dispatching finalized to_ (log :: rest) →
      log.ledgerCall config.providerId = some call → scan.ReadsBack codec call)
    (hstep : scan.step config codec input = some next) :
    next.Everywhere codec (Ledgered known) := by
  cases input with
  | tick finalized currentPage write =>
      obtain ⟨_, rfl | rfl⟩ := EnforcementScan.tick_eq_some hstep
      · cases write <;> exact hledgered
      · exact hledgered
  | page answer =>
      obtain ⟨_, _, _, ⟨_, _, rfl⟩ | rfl⟩ := EnforcementScan.page_eq_some hstep
      · exact hledgered
      · exact hledgered
  | dispatch write rewind =>
      obtain ⟨finalized, to_, log, rest, hphase, ⟨_, rfl⟩ | ⟨call, hcall, hnext⟩⟩ :=
        EnforcementScan.dispatch_eq_some hstep
      · exact hledgered
      · have hinsert : ∀ challenge, call = .insert challenge → challenge.respondedTx = none := by
          rintro challenge rfl
          exact Log.ledgerCall_unanswered hcall
        have hrespond : ∀ id txHash, call = .markResponded id txHash → known id := by
          rintro id txHash rfl
          exact absurd hcall Log.ledgerCall_ne_markResponded
        have hcalled := @EnforcementScan.Everywhere.callLedger _ _ write _ _ hledgered
          (hreads write rewind rfl finalized to_ log rest call hphase hcall)
          fun after hchanged => hledgered.1.changed hinsert hrespond hchanged
        rcases hnext with ⟨_, rfl⟩ | rfl
        · exact hcalled
        · cases rewind <;> exact hcalled
  | unreadable =>
      obtain ⟨_, rfl⟩ := EnforcementScan.unreadable_eq_some hstep
      exact hledgered
  | pageDone write =>
      obtain ⟨_, _, _, rfl⟩ := EnforcementScan.pageDone_eq_some hstep
      cases write <;> exact hledgered
  | done =>
      obtain ⟨_, _, _, rfl⟩ := EnforcementScan.done_eq_some hstep
      exact hledgered
  | requestRescan =>
      obtain ⟨_, rfl⟩ := EnforcementScan.requestRescan_eq_some hstep
      exact hledgered
  | job call write => exact absurd rfl (hjob call write)
  | restart =>
      obtain ⟨ledger, _, hledger, _, rfl⟩ := EnforcementScan.restart_eq_some hstep
      exact ⟨hledgered.2 ledger hledger, hledgered.2⟩

end

/-! ## What a run keeps -/

/-- Every response on record, and every one that a job is about to record, was seen
confirmed. -/
structure Duty.Recorded (codec : Codec Entries) (trace : List (Duty × DutyInput)) (duty : Duty) :
    Prop where
  ledger : duty.scan.Everywhere codec (Ledgered (ResponseConfirmed trace))
  jobs : ∀ id txHash, duty.jobs id = some (.confirmed txHash) → ResponseConfirmed trace id

/-- The head extends the finalized block. -/
structure Duty.OnChain (keccak256 : ByteString → Reference.Hash) (dep : Deployment)
    (duty : Duty) : Prop where
  reachable : Reachable keccak256 dep duty.finalized
  finalizedIdle : duty.finalized.stack = []
  headIdle : duty.head.stack = []
  extends_ : (system keccak256 dep).Steps duty.finalized duty.head

section

variable {config : ScanConfig} {codec : Codec Entries}
variable {keccak256 : ByteString → Reference.Hash} {dep : Deployment}
variable {start self next last : Duty} {trace : List (Duty × DutyInput)} {input : DutyInput}
variable {id : Nat}

theorem ResponseConfirmed.append (hconfirmed : ResponseConfirmed trace id)
    (extra : List (Duty × DutyInput)) : ResponseConfirmed (trace ++ extra) id := by
  obtain ⟨self, txHash, hmem⟩ := hconfirmed
  exact ⟨self, txHash, List.mem_append_left _ hmem⟩

namespace Duty

theorem step_scan {input : ScanInput} {scan : EnforcementScan} (hinput : input ≠ .restart)
    (hstep : self.scan.step config codec input = some scan) :
    self.step config codec (.scan input) = some { self with scan := scan } := by
  refine Option.map_eq_some_iff.mpr ⟨scan, hstep, ?_⟩
  split
  · exact absurd rfl hinput
  · rfl

theorem callLedger_eq_some {call : LedgerCall} {write : WriteAttempt .challenges}
    (hstep : self.callLedger config codec call write = some next) :
    next = { self with scan := self.scan.callLedger codec write call } := by
  obtain ⟨scan, hscan, rfl⟩ := Option.map_eq_some_iff.mp hstep
  obtain ⟨_, rfl⟩ := EnforcementScan.job_eq_some hscan
  rfl

namespace Recorded

theorem append (hrecorded : Recorded codec trace self) (extra : List (Duty × DutyInput)) :
    Recorded codec (trace ++ extra) self where
  ledger := hrecorded.ledger.imp fun _ hledgered =>
    hledgered.mono fun _ hconfirmed => hconfirmed.append extra
  jobs id txHash hjob := (hrecorded.jobs id txHash hjob).append extra

/-- A job may come to its end at any time. -/
theorem setJob (hrecorded : Recorded codec trace self) {job : Job}
    (hconfirmed : ∀ txHash, job = .confirmed txHash → ResponseConfirmed trace id) :
    Recorded codec trace (self.setJob id job) where
  ledger := hrecorded.ledger
  jobs other txHash hjob := by
    unfold Duty.setJob at hjob
    simp only [Function.update_apply] at hjob
    split at hjob
    · rename_i hid
      rw [hid]
      exact hconfirmed txHash (Option.some.inj hjob)
    · exact hrecorded.jobs other txHash hjob

theorem finish (hrecorded : Recorded codec trace self) :
    Recorded codec trace (self.setJob id .finished) :=
  hrecorded.setJob fun _ hjob => Job.noConfusion hjob

theorem callLedger (hrecorded : Recorded codec trace self) {call : LedgerCall}
    {write : WriteAttempt .challenges} (hreads : self.scan.ReadsBack codec call)
    (hinsert : ∀ challenge, call ≠ .insert challenge)
    (hrespond : ∀ id txHash, call = .markResponded id txHash → ResponseConfirmed trace id)
    (hstep : self.callLedger config codec call write = some next) :
    Recorded codec trace next := by
  rw [callLedger_eq_some hstep]
  refine ⟨hrecorded.ledger.callLedger hreads ?_, hrecorded.jobs⟩
  intro after hchanged
  exact hrecorded.ledger.1.changed (fun challenge hcall => absurd hcall (hinsert challenge))
    hrespond hchanged

/-- What one step keeps: only `confirm` adds to what was seen confirmed, and only `record`
writes it down. -/
theorem step (hrecorded : Recorded codec trace self)
    (hpossible : input.Possible config codec keccak256 dep self)
    (hstep : self.step config codec input = some next) :
    Recorded codec (trace ++ [(self, input)]) next := by
  have hmore := hrecorded.append [(self, input)]
  cases input with
  | scan input =>
      obtain ⟨scan, hscan, rfl⟩ := Option.map_eq_some_iff.mp hstep
      have hledger : scan.Everywhere codec
          (Ledgered (ResponseConfirmed (trace ++ [(self, .scan input)]))) := by
        refine hmore.ledger.ledgered_step ?_ ?_ hscan
        · rintro call write rfl
          exact hpossible
        · rintro write rewind rfl
          exact hpossible
      cases input with
      | restart =>
          refine ⟨hledger, ?_⟩
          intro _ _ hjob
          cases hjob
      | _ => exact ⟨hledger, hmore.jobs⟩
  | drive chainNow =>
      unfold Duty.step at hstep
      simp only at hstep
      split at hstep
      · obtain rfl := Option.some.inj hstep
        exact ⟨hmore.ledger, fun id txHash hjob => hmore.jobs id txHash
          (Responder.drive_confirmed hjob)⟩
      · cases hstep
  | cleanUp id write =>
      unfold Duty.step at hstep
      simp only at hstep
      split at hstep
      · exact hmore.finish.callLedger hpossible.2 (by simp) (by simp) hstep
      · cases hstep
  | confirm id txHash =>
      unfold Duty.step at hstep
      simp only at hstep
      split at hstep
      · obtain rfl := Option.some.inj hstep
        exact hmore.setJob fun _ _ =>
          ⟨self, txHash, List.mem_append_right _ (List.mem_singleton_self _)⟩
      · cases hstep
  | record id write =>
      unfold Duty.step at hstep
      simp only at hstep
      split at hstep
      · rename_i txHash hjob
        have hconfirmed := hmore.jobs id txHash hjob
        refine hmore.finish.callLedger (hpossible txHash hjob) (by simp) ?_ hstep
        rintro other hash hcall
        obtain ⟨rfl, _⟩ := LedgerCall.markResponded.inj hcall
        exact hconfirmed
      · cases hstep
  | fail id =>
      unfold Duty.step at hstep
      simp only at hstep
      split at hstep
      · obtain rfl := Option.some.inj hstep
        exact hmore.finish
      · cases hstep
  | reconcile id write => exact hmore.callLedger hpossible.2 (by simp) (by simp) hstep
  | mined head =>
      obtain rfl := Option.some.inj hstep
      exact ⟨hmore.ledger, hmore.jobs⟩
  | finalize world =>
      obtain rfl := Option.some.inj hstep
      exact ⟨hmore.ledger, hmore.jobs⟩
  | reorg head =>
      obtain rfl := Option.some.inj hstep
      exact ⟨hmore.ledger, hmore.jobs⟩

end Recorded

/-- Only three steps move the chain. -/
theorem step_chain (hstep : self.step config codec input = some next) :
    (next.finalized = self.finalized ∧ next.head = self.head) ∨
      (∃ head, input = .mined head ∧ next.finalized = self.finalized ∧ next.head = head) ∨
      (∃ world, input = .finalize world ∧ next.finalized = world ∧ next.head = self.head) ∨
      ∃ head, input = .reorg head ∧ next.finalized = self.finalized ∧ next.head = head := by
  have hcall : ∀ {duty : Duty} {call : LedgerCall} {write : WriteAttempt .challenges},
      duty.callLedger config codec call write = some next →
      next.finalized = duty.finalized ∧ next.head = duty.head := by
    intro duty call write hcalled
    rw [callLedger_eq_some hcalled]
    exact ⟨rfl, rfl⟩
  unfold Duty.step at hstep
  cases input with
  | scan input =>
      obtain ⟨_, _, rfl⟩ := Option.map_eq_some_iff.mp hstep
      cases input <;> exact Or.inl ⟨rfl, rfl⟩
  | drive chainNow =>
      simp only at hstep
      split at hstep
      · obtain rfl := Option.some.inj hstep
        exact Or.inl ⟨rfl, rfl⟩
      · cases hstep
  | cleanUp id write =>
      simp only at hstep
      split at hstep
      · have hkept := hcall hstep
        exact Or.inl hkept
      · cases hstep
  | confirm id txHash =>
      simp only at hstep
      split at hstep
      · obtain rfl := Option.some.inj hstep
        exact Or.inl ⟨rfl, rfl⟩
      · cases hstep
  | record id write =>
      simp only at hstep
      split at hstep
      · have hkept := hcall hstep
        exact Or.inl hkept
      · cases hstep
  | fail id =>
      simp only at hstep
      split at hstep
      · obtain rfl := Option.some.inj hstep
        exact Or.inl ⟨rfl, rfl⟩
      · cases hstep
  | reconcile id write => exact Or.inl (hcall hstep)
  | mined head =>
      obtain rfl := Option.some.inj hstep
      exact Or.inr (Or.inl ⟨head, rfl, rfl, rfl⟩)
  | finalize world =>
      obtain rfl := Option.some.inj hstep
      exact Or.inr (Or.inr (Or.inl ⟨world, rfl, rfl, rfl⟩))
  | reorg head =>
      obtain rfl := Option.some.inj hstep
      exact Or.inr (Or.inr (Or.inr ⟨head, rfl, rfl, rfl⟩))

namespace OnChain

theorem headReachable (hchain : OnChain keccak256 dep self) : Reachable keccak256 dep self.head :=
  hchain.reachable.steps hchain.extends_

theorem step (hchain : OnChain keccak256 dep self)
    (hpossible : input.Possible config codec keccak256 dep self)
    (hstep : self.step config codec input = some next) : OnChain keccak256 dep next := by
  obtain ⟨hreach, hfinalized, hhead, hextends⟩ := hchain
  obtain ⟨scan, jobs, finalized, head⟩ := next
  rcases step_chain hstep with ⟨rfl, rfl⟩ | ⟨head, rfl, rfl, rfl⟩ | ⟨world, rfl, rfl, rfl⟩ |
    ⟨head, rfl, rfl, rfl⟩
  · exact ⟨hreach, hfinalized, hhead, hextends⟩
  · exact ⟨hreach, hfinalized, hpossible.1, hextends.trans hpossible.2⟩
  · exact ⟨hreach.steps hpossible.2.1, hpossible.1, hhead, hpossible.2.2⟩
  · exact ⟨hreach, hfinalized, hpossible.1, hpossible.2⟩

/-- What the head reports resolved it reports so until a reorg. -/
theorem resolved (hchain : OnChain keccak256 dep self) (hresolved : self.head.Resolved id)
    (hpossible : input.Possible config codec keccak256 dep self)
    (hstep : self.step config codec input = some next)
    (hreorg : ∀ head, input = .reorg head → head.Resolved id) : next.head.Resolved id := by
  rcases step_chain hstep with ⟨_, hsame⟩ | ⟨head, rfl, _, hhead⟩ | ⟨_, _, _, hsame⟩ |
    ⟨head, rfl, _, hhead⟩
  · rw [hsame]
    exact hresolved
  · rw [hhead]
    exact hresolved.steps hchain.headReachable hchain.headIdle hpossible.2
  · rw [hsame]
    exact hresolved
  · rw [hhead]
    exact hreorg head rfl

end OnChain

/-- An owed entry gets its job exactly if no response to it is on record. -/
theorem Recorded.startsJob_iff (hrecorded : Recorded codec trace self) {chainNow : Nat}
    {entry : OpenChallenge} (howes : self.Owes chainNow entry) :
    self.StartsJob chainNow entry.challengeId ↔ entry.respondedTx = none := by
  have hfree : Responder.retain self.jobs entry.challengeId = none := by
    rw [Responder.retain, Option.filter_eq_none_iff]
    intro job hjob
    rw [howes.idle job hjob]
    exact Bool.false_ne_true
  constructor
  · intro hstarts
    have hcases := @Responder.foldl_driveEntry_cases chainNow _ _
      (self.scan.ledger.entries.toList.map Prod.snd) hfree
    rcases hcases with hnone | ⟨_, other, hother, hid, hunanswered⟩
    · cases hnone.symm.trans hstarts
    · have hfound := hrecorded.ledger.1.held hother
      rw [hid, hrecorded.ledger.1.held howes.held] at hfound
      rw [Option.some.inj hfound]
      exact hunanswered
  · intro hunanswered
    exact Responder.foldl_driveEntry_starts howes.held howes.open_ hunanswered hfree

theorem Starts.recorded (hstarts : start.Starts keccak256 dep) : Recorded codec [] start := by
  have hnone : ∀ known, Ledgered known (∅ : Entries) := by
    intro known id entry hentry
    cases Std.ExtTreeMap.getElem?_empty.symm.trans hentry
  refine ⟨⟨?_, ?_⟩, ?_⟩
  · rw [hstarts.ledger]
    exact hnone _
  · intro found hfound
    rw [Ledger.open, hstarts.file] at hfound
    obtain rfl := Except.ok.inj hfound
    exact hnone _
  · intro id txHash hjob
    rw [hstarts.jobs] at hjob
    cases hjob

theorem Starts.onChain (hstarts : start.Starts keccak256 dep) : OnChain keccak256 dep start :=
  ⟨hstarts.finalized.1, hstarts.finalized.2, hstarts.head.1, hstarts.head.2⟩

end Duty

namespace DutyRun

theorem recorded (hstart : start.Starts keccak256 dep)
    (hrun : DutyRun config codec keccak256 dep start trace last) :
    last.Recorded codec trace := by
  induction hrun with
  | start => exact hstart.recorded
  | next _ hpossible hstep ih => exact ih.step hpossible hstep

theorem onChain (hstart : start.Starts keccak256 dep)
    (hrun : DutyRun config codec keccak256 dep start trace last) :
    last.OnChain keccak256 dep := by
  induction hrun with
  | start => exact hstart.onChain
  | next _ hpossible hstep ih => exact ih.step hpossible hstep

/-- The state before an input of a run ends a run of its own. -/
theorem before (hrun : DutyRun config codec keccak256 dep start trace last)
    (hmem : (self, input) ∈ trace) :
    ∃ first rest, trace = first ++ rest ∧ DutyRun config codec keccak256 dep start first self := by
  induction hrun with
  | start => cases hmem
  | @next trace _ _ _ hrun _ _ ih =>
      rcases List.mem_append.mp hmem with hold | hnew
      · obtain ⟨first, rest, rfl, hfirst⟩ := ih hold
        exact ⟨first, rest ++ _, List.append_assoc _ _ _, hfirst⟩
      · cases List.mem_singleton.mp hnew
        exact ⟨trace, _, rfl, hrun⟩

/-- By induction on the run: where no reorg takes a confirmed response back, the head reports
every challenge resolved whose response was seen confirmed. -/
theorem resolved (hstart : start.Starts keccak256 dep)
    (hrun : DutyRun config codec keccak256 dep start trace last) (hkept : KeepsAnswers trace)
    (hconfirmed : ResponseConfirmed trace id) : last.head.Resolved id := by
  induction hrun with
  | start =>
      obtain ⟨_, _, hmem⟩ := hconfirmed
      cases hmem
  | @next trace self next input hrun hpossible hstep ih =>
      have hchain := hrun.onChain hstart
      have hearlier : KeepsAnswers trace := by
        rintro first duty head rest rfl
        exact hkept first duty head (rest ++ [(self, input)]) (List.append_assoc _ _ _)
      obtain ⟨duty, txHash, hmem⟩ := hconfirmed
      rcases List.mem_append.mp hmem with hold | hnew
      · refine hchain.resolved (ih hearlier ⟨duty, txHash, hold⟩) hpossible hstep ?_
        rintro head rfl
        exact hkept trace self head [] rfl id ⟨duty, txHash, hold⟩
      · cases List.mem_singleton.mp hnew
        refine hchain.resolved (hchain.headReachable.resolved_of_answered hpossible) hpossible
          hstep ?_
        intro head hreorg
        cases hreorg

end DutyRun

/-- At every tick of a run an entry that is owed gets its job exactly if no response to it is
on record.  And in a run whose reorgs take back no resolution of a challenge whose response a
job saw confirmed, every tick starts a job for every entry that is owed. -/
theorem response_started (hstart : start.Starts keccak256 dep)
    (hrun : DutyRun config codec keccak256 dep start trace last) :
    (∀ self chainNow entry, (self, .drive chainNow) ∈ trace → self.Owes chainNow entry →
      (self.StartsJob chainNow entry.challengeId ↔ entry.respondedTx = none)) ∧
    (KeepsAnswers trace → ∀ self chainNow entry, (self, .drive chainNow) ∈ trace →
      self.Owes chainNow entry → self.StartsJob chainNow entry.challengeId) := by
  have hiff : ∀ self chainNow entry, (self, DutyInput.drive chainNow) ∈ trace →
      self.Owes chainNow entry →
      (self.StartsJob chainNow entry.challengeId ↔ entry.respondedTx = none) := by
    intro self chainNow entry hmem howes
    obtain ⟨first, rest, _, hbefore⟩ := hrun.before hmem
    exact (hbefore.recorded hstart).startsJob_iff howes
  refine ⟨hiff, ?_⟩
  intro hkept self chainNow entry hmem howes
  obtain ⟨first, rest, htrace, hbefore⟩ := hrun.before hmem
  refine (hiff self chainNow entry hmem howes).mpr ?_
  by_contra hresponded
  have hkeptBefore : KeepsAnswers first := by
    rintro early duty head late rfl
    exact hkept early duty head (late ++ rest) (htrace.trans (List.append_assoc _ _ _))
  have hledgered := (hbefore.recorded hstart).ledger.1
  have hconfirmed := (hledgered _ entry (hledgered.held howes.held)).2 hresponded
  exact howes.unresolved (hbefore.resolved hstart hkeptBefore hconfirmed)

end

/-! ## A response taken back by a reorg -/

def respondedChallenge : OpenChallenge := { firstChallenge with respondedTx := some "0xab" }

def openEntries : Entries := (∅ : Entries).insert 0 firstChallenge

def respondedEntries : Entries := openEntries.insert 0 respondedChallenge

/-- The text format, read back for the two ledgers of the run. -/
def responseCodec : Codec Entries where
  toVec := ledgerJson
  fromSlice bytes :=
    if bytes = ledgerJson openEntries then .ok openEntries
    else if bytes = ledgerJson respondedEntries then .ok respondedEntries
    else .error "expected value"

/-- Every finalized block is scanned; challenge 0 is open. -/
def heldScan : EnforcementScan := (openedScan responseCodec).swept .idle

/-- The finalized block has the one challenge. -/
def dutyAt (scan : EnforcementScan) : Duty :=
  ⟨scan, fun _ => none, Contract.challengedWorld, Contract.rechallengedWorld⟩

/-- The job has sent its response, and the head has it. -/
def answeredDuty : Duty :=
  { (dutyAt heldScan).setJob 0 .answering with head := Contract.answeredWorld }

def confirmedDuty : Duty := answeredDuty.setJob 0 (.confirmed "0xab")

def recordedDuty : Duty :=
  { confirmedDuty.setJob 0 .finished with
    scan := heldScan.callLedger responseCodec (.completes .challenges) (.markResponded 0 "0xab") }

/-- The head is again without the response. -/
def reorgedDuty : Duty := { recordedDuty with head := Contract.rechallengedWorld }

def openedTrace : List (Duty × DutyInput) :=
  [(dutyAt freshScan, .scan (.tick 9 10 .completes)),
    (dutyAt { freshScan with phase := .paging 9 }, .scan (.page (.ok [firstOpened]))),
    (dutyAt (pageScan [firstOpened]), .scan (.dispatch (.completes .challenges) .completes)),
    (dutyAt (openedScan responseCodec), .scan (.pageDone .completes)),
    (dutyAt ((openedScan responseCodec).swept (.paging 9)), .scan .done),
    (dutyAt heldScan, .drive 50)]

def reorgTrace : List (Duty × DutyInput) :=
  openedTrace ++
    [((dutyAt heldScan).setJob 0 .answering, .mined Contract.answeredWorld),
      (answeredDuty, .confirm 0 "0xab"), (confirmedDuty, .record 0 (.completes .challenges)),
      (recordedDuty, .reorg Contract.rechallengedWorld), (reorgedDuty, .drive 50)]

theorem ledgerJson_single {entries : Entries} {id : Nat} {challenge : OpenChallenge}
    (hentries : entries.toList = [(id, challenge)]) : ledgerJson entries =
      ("\x7b\n  " ++ ("\"" ++ toString id ++ "\": " ++ challengeJson challenge) ++
        "\n\x7d").toUTF8.toList := by
  rw [ledgerJson, hentries]
  rfl

/-- The two texts differ where the response stands. -/
theorem challengeJson_responded (challenge : OpenChallenge) (txHash : String)
    (hunanswered : challenge.respondedTx = none) :
    challengeJson challenge ≠ challengeJson { challenge with respondedTx := some txHash } := by
  intro heq
  unfold challengeJson at heq
  rw [hunanswered] at heq
  simp only [String.append_left_inj, String.append_right_inj] at heq
  have hlist := congrArg String.toList heq
  simp at hlist

theorem openEntries_readsBack : responseCodec.ReadsBack openEntries := if_pos rfl

theorem respondedEntries_readsBack : responseCodec.ReadsBack respondedEntries := by
  have hdiffer : ledgerJson respondedEntries ≠ ledgerJson openEntries := by
    rw [ledgerJson_single (show respondedEntries.toList = [(0, respondedChallenge)] from rfl),
      ledgerJson_single (show openEntries.toList = [(0, firstChallenge)] from rfl)]
    intro heq
    have htext := toUTF8_toList_inj heq
    simp only [String.append_left_inj, String.append_right_inj] at htext
    exact challengeJson_responded firstChallenge "0xab" rfl htext.symm
  exact (if_neg hdiffer).trans (if_pos rfl)

theorem heldScan_entries : heldScan.ledger.entries = openEntries := openedScan_entries responseCodec

theorem dutyAt_starts : (dutyAt freshScan).Starts Keccak.keccak256 Contract.sampleDeployment where
  ledger := rfl
  file := rfl
  jobs := rfl
  finalized := ⟨Contract.challengedWorld_reachable, rfl⟩
  head := ⟨rfl, Contract.rechallengedWorld_steps⟩

theorem heldScan_drive : (dutyAt heldScan).step sampleScanConfig responseCodec (.drive 50) =
    some ((dutyAt heldScan).setJob 0 .answering) := by
  have hjobs : ((dutyAt heldScan).responder.drive 50).jobs =
      ((dutyAt heldScan).setJob 0 .answering).jobs := by
    unfold Responder.drive Duty.responder dutyAt
    simp only
    rw [heldScan_entries]
    rfl
  change some { dutyAt heldScan with jobs := ((dutyAt heldScan).responder.drive 50).jobs } = _
  rw [hjobs]
  rfl

theorem openedTrace_run : DutyRun sampleScanConfig responseCodec Keccak.keccak256
    Contract.sampleDeployment (dutyAt freshScan) openedTrace
    ((dutyAt heldScan).setJob 0 .answering) := by
  have htick : (dutyAt freshScan).step sampleScanConfig responseCodec
      (.scan (.tick 9 10 .completes)) = some (dutyAt { freshScan with phase := .paging 9 }) := rfl
  have hpage : (dutyAt { freshScan with phase := .paging 9 }).step sampleScanConfig responseCodec
      (.scan (.page (.ok [firstOpened]))) = some (dutyAt (pageScan [firstOpened])) := rfl
  have hdispatch := @Duty.step_scan _ _ (dutyAt (pageScan [firstOpened])) _ _ (by simp)
    (openedScan_dispatched responseCodec)
  have hpageDone : (dutyAt (openedScan responseCodec)).step sampleScanConfig responseCodec
      (.scan (.pageDone .completes)) =
        some (dutyAt ((openedScan responseCodec).swept (.paging 9))) := rfl
  have hdone : (dutyAt ((openedScan responseCodec).swept (.paging 9))).step sampleScanConfig
      responseCodec (.scan .done) = some (dutyAt heldScan) := rfl
  refine .next (.next (.next (.next (.next (.next .start ?_ htick) ?_ hpage) ?_ hdispatch) ?_
    hpageDone) ?_ hdone) ?_ heldScan_drive
  · exact trivial
  · exact trivial
  · intro finalized to_ log rest call hphase hcall entries hchanged
    cases hphase
    obtain rfl := Option.some.inj (firstOpened_opens.symm.trans hcall)
    obtain rfl := Option.some.inj (firstChallenge_changed.symm.trans hchanged)
    exact openEntries_readsBack
  · exact trivial
  · exact trivial
  · exact trivial

theorem recordedDuty_changed : (LedgerCall.markResponded 0 "0xab").changed
    confirmedDuty.scan.ledger.entries = some respondedEntries := by
  change (LedgerCall.markResponded 0 "0xab").changed heldScan.ledger.entries = _
  rw [heldScan_entries, LedgerCall.changed, openEntries, getElem?_insert_entry]
  rfl

theorem recordedDuty_entries : recordedDuty.scan.ledger.entries = respondedEntries := by
  have hchanged : (LedgerCall.markResponded 0 "0xab").changed heldScan.ledger.entries =
      some respondedEntries := recordedDuty_changed
  unfold recordedDuty EnforcementScan.callLedger
  rw [Ledger.call_changed hchanged]

theorem reorgTrace_run : ∃ last, DutyRun sampleScanConfig responseCodec Keccak.keccak256
    Contract.sampleDeployment (dutyAt freshScan) reorgTrace last := by
  have hmined : ((dutyAt heldScan).setJob 0 .answering).step sampleScanConfig responseCodec
      (.mined Contract.answeredWorld) = some answeredDuty := rfl
  have hconfirm : answeredDuty.step sampleScanConfig responseCodec (.confirm 0 "0xab") =
      some confirmedDuty := rfl
  have hrecord : confirmedDuty.step sampleScanConfig responseCodec
      (.record 0 (.completes .challenges)) = some recordedDuty := rfl
  have hreorg : recordedDuty.step sampleScanConfig responseCodec
      (.reorg Contract.rechallengedWorld) = some reorgedDuty := rfl
  have hdrive : reorgedDuty.step sampleScanConfig responseCodec (.drive 50) =
      some { reorgedDuty with jobs := (reorgedDuty.responder.drive 50).jobs } := rfl
  refine ⟨_, .next (.next (.next (.next (.next openedTrace_run ?_ hmined) ?_ hconfirm) ?_ hrecord)
    ?_ hreorg) ?_ hdrive⟩
  · exact ⟨rfl, Contract.answeredWorld_steps⟩
  · exact Contract.answeredWorld_answered
  · intro txHash hjob entries hchanged
    have hsame : some (Job.confirmed "0xab") = some (Job.confirmed txHash) := hjob
    obtain rfl := Job.confirmed.inj (Option.some.inj hsame)
    obtain rfl := Option.some.inj (recordedDuty_changed.symm.trans hchanged)
    exact respondedEntries_readsBack
  · exact ⟨rfl, Contract.rechallengedWorld_steps⟩
  · exact trivial

theorem reorgedDuty_owes : reorgedDuty.Owes 50 respondedChallenge where
  held := by
    change respondedChallenge ∈ recordedDuty.scan.ledger.entries.toList.map Prod.snd
    rw [recordedDuty_entries]
    exact List.mem_singleton_self _
  open_ := by decide
  unresolved := Contract.rechallengedWorld_unresolved
  idle := by
    intro job hjob
    have hsame : some Job.finished = some job := hjob
    rw [← Option.some.inj hsame]
    rfl

theorem reorgedDuty_idle : ¬reorgedDuty.StartsJob 50 0 := by
  have hjobs : (reorgedDuty.responder.drive 50).jobs 0 = none := by
    change ((⟨recordedDuty.scan.ledger, recordedDuty.jobs⟩ : Responder).drive 50).jobs 0 = none
    unfold Responder.drive
    simp only
    rw [recordedDuty_entries]
    rfl
  rw [Duty.StartsJob, hjobs]
  intro hstarts
  cases hstarts

/-- The response to challenge 0 is recorded as soon as it is confirmed; a reorg takes it back,
and the tick at 50, before the deadline 107, starts no job. -/
theorem response_not_started :
    (dutyAt freshScan).Starts Keccak.keccak256 Contract.sampleDeployment ∧
    (∃ last, DutyRun sampleScanConfig responseCodec Keccak.keccak256 Contract.sampleDeployment
      (dutyAt freshScan) reorgTrace last) ∧
    ∃ self entry, (self, .drive 50) ∈ reorgTrace ∧ self.Owes 50 entry ∧
      ¬self.StartsJob 50 entry.challengeId := by
  refine ⟨dutyAt_starts, reorgTrace_run, reorgedDuty, respondedChallenge, ?_, reorgedDuty_owes,
    reorgedDuty_idle⟩
  exact List.mem_append_right _ (.tail _ (.tail _ (.tail _ (.tail _ (.head _)))))

theorem heldScan_owes : (dutyAt heldScan).Owes 50 firstChallenge where
  held := by
    change firstChallenge ∈ heldScan.ledger.entries.toList.map Prod.snd
    rw [heldScan_entries]
    exact List.mem_singleton_self _
  open_ := by decide
  unresolved := Contract.rechallengedWorld_unresolved
  idle := by
    intro job hjob
    cases hjob

theorem response_started_opened : (dutyAt heldScan).StartsJob 50 0 := by
  have hkept : KeepsAnswers openedTrace := by
    intro first duty head rest htrace
    have hmem : (duty, DutyInput.reorg head) ∈ openedTrace := by
      rw [htrace]
      exact List.mem_append_right _ List.mem_cons_self
    simp [openedTrace] at hmem
  exact (response_started dutyAt_starts openedTrace_run).2 hkept (dutyAt heldScan) 50
    firstChallenge (List.mem_of_getLast? rfl) heldScan_owes

end Blobsitter.Daemon
