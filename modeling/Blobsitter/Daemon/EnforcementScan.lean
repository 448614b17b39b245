import Blobsitter.Contract.State
import Blobsitter.Library.Segments
import Blobsitter.Daemon.Cursor
import Blobsitter.Daemon.Intake

/-!
# The enforcement scan

The follower reads the enforcement logs page by page, behind a cursor of their own, and
hands each to the ledger.  The scan is a machine of small steps: between any two of them a
response job may call the ledger, and the process may stop and start again.
-/

namespace Blobsitter.Daemon

open Library
open Reference (Hash)
open Contract (Event)

/-- A log of the instance and its block. -/
structure Log where
  block : Nat
  event : Event

/-- `ENFORCEMENT_TOPICS`. -/
def Log.isEnforcement (log : Log) : Bool :=
  match log.event with
  | .challengeOpened _ _ _ _ _ _ _ => true
  | .challengeAnswered _ => true
  | .challengeRefunded _ => true
  | .challengeTimedOut _ => true
  | .slashed _ _ _ => true
  | .unbondingInitiated _ _ _ => true
  | _ => false

/-- The enforcement logs of a history. -/
def enforcementLogs (history : List Log) : List Log := history.filter Log.isEnforcement

/-- What `dispatch_enforcement` asks of the ledger; the other logs only alarm. -/
def Log.ledgerCall (providerId : Nat) (log : Log) : Option LedgerCall :=
  match log.event with
  | .challengeOpened challengeId owner indices _ pinnedRoot pinnedLeafCount deadline =>
      if owner = providerId then
        some (.insert ⟨challengeId, indices, pinnedRoot, pinnedLeafCount, deadline, none⟩)
      else none
  | .challengeAnswered challengeId => some (.remove challengeId)
  | .challengeRefunded challengeId => some (.remove challengeId)
  | .challengeTimedOut challengeId => some (.remove challengeId)
  | _ => none

/-- The parameters of the scan. -/
structure ScanConfig where
  providerId : Nat
  deploymentBlock : Nat
  logPage : Nat

/-- The block before deployment. -/
def ScanConfig.scanFloor (config : ScanConfig) : Nat := config.deploymentBlock - 1

/-- Where the scan stands; `dead` once the process has died inside a step. -/
inductive ScanPhase where
  | idle
  | paging (finalized : Nat)
  | dispatching (finalized to_ : Nat) (logs : List Log)
  | dead

structure EnforcementScan where
  ledger : Ledger
  disk : Disk DataFile
  cursorFile : Option (List Char)
  enfCursor : Nat
  currentPage : Nat
  rescanRequested : Bool
  phase : ScanPhase

/-- One step of the scan with what it meets: the answer of the RPC node, the outcome of a
write. -/
inductive ScanInput where
  /-- A tick reaches `scan_enforcement`, with the page size as the other scan left it. -/
  | tick (finalized currentPage : Nat) (write : CursorWrite)
  | page (answer : Except String (List Log))
  | dispatch (write : WriteAttempt .challenges) (rewind : CursorWrite)
  /-- The log cannot be decoded, or its block's timestamp cannot be read. -/
  | unreadable
  | pageDone (write : CursorWrite)
  | done
  | requestRescan
  /-- A call from outside the scan: `reconcile`, or a response job. -/
  | job (call : LedgerCall) (write : WriteAttempt .challenges)
  | restart

namespace EnforcementScan

variable (config : ScanConfig) (codec : Codec Entries) (s : EnforcementScan)

/-- `set_enf_cursor`, and the phase that follows if it succeeds. -/
def setEnfCursor (write : CursorWrite) (block : Nat) (after : ScanPhase) : EnforcementScan :=
  let written := { s with cursorFile := write.left s.cursorFile block }
  match write with
  | .completes => { written with enfCursor := block, phase := after }
  | .refused => { written with phase := .idle }
  | .emptied => { written with phase := .idle }
  | .dies _ => { written with phase := .dead }

/-- One call of the ledger. -/
def callLedger (write : WriteAttempt .challenges) (call : LedgerCall) : EnforcementScan :=
  let outcome := s.ledger.call codec write s.disk call
  { s with ledger := outcome.2.1, disk := outcome.2.2 }

/-- The last block of the page behind the cursor. -/
def pageEnd (finalized : Nat) : Nat := min finalized (s.enfCursor + s.currentPage)

/-- A new process on the same directory. -/
def reopen : Except String EnforcementScan := do
  let ledger ← Ledger.open codec s.disk
  let cursor ← loadCursor config.scanFloor s.cursorFile
  return ⟨ledger, s.disk, s.cursorFile, cursor, config.logPage, false, .idle⟩

/-- The loops of `scan_enforcement` and `dispatch_enforcement`, and what may come between;
`none` when the phase does not admit the step. -/
def step : ScanInput → Option EnforcementScan
  | .tick finalized currentPage write =>
      match s.phase with
      | .idle =>
          let ready := { s with currentPage := currentPage }
          if s.rescanRequested then
            some ({ ready with rescanRequested := false }.setEnfCursor write config.scanFloor
              (.paging finalized))
          else some { ready with phase := .paging finalized }
      | _ => none
  | .page answer =>
      match s.phase with
      | .paging finalized =>
          if s.enfCursor < finalized then
            match answer with
            | .ok logs =>
                some { s with
                  currentPage := grownPage config.logPage s.currentPage
                  phase := .dispatching finalized (s.pageEnd finalized) logs }
            | .error _ => some { s with currentPage := shrunkPage s.currentPage, phase := .idle }
          else none
      | _ => none
  | .dispatch write rewind =>
      match s.phase with
      | .dispatching finalized to_ (log :: rest) =>
          match log.ledgerCall config.providerId with
          | none => some { s with phase := .dispatching finalized to_ rest }
          | some call =>
              match (s.ledger.call codec write s.disk call).1 with
              | .ok () => some { s.callLedger codec write call with
                  phase := .dispatching finalized to_ rest }
              | .error _ =>
                  some ((s.callLedger codec write call).setEnfCursor rewind (log.block - 1) .idle)
      | _ => none
  | .unreadable =>
      match s.phase with
      | .dispatching _ _ (_ :: _) => some { s with phase := .idle }
      | _ => none
  | .pageDone write =>
      match s.phase with
      | .dispatching finalized to_ [] => some (s.setEnfCursor write to_ (.paging finalized))
      | _ => none
  | .done =>
      match s.phase with
      | .paging finalized =>
          if s.enfCursor < finalized then none else some { s with phase := .idle }
      | _ => none
  | .requestRescan =>
      match s.phase with
      | .idle => some { s with rescanRequested := true }
      | _ => none
  | .job call write =>
      match s.phase with
      | .dead => none
      | _ => some (s.callLedger codec write call)
  | .restart => (s.reopen config codec).toOption

/-! ## What a step can do -/

section

variable {config : ScanConfig} {codec : Codec Entries} {s next : EnforcementScan}

theorem tick_eq_some {finalized currentPage : Nat} {write : CursorWrite}
    (hstep : s.step config codec (.tick finalized currentPage write) = some next) :
    s.phase = .idle ∧
      (next = { s with currentPage := currentPage, rescanRequested := false }.setEnfCursor write
          config.scanFloor (.paging finalized) ∨
        next = { s with currentPage := currentPage, phase := .paging finalized }) := by
  unfold step at hstep
  simp only at hstep
  split at hstep
  · rename_i hphase
    refine ⟨hphase, ?_⟩
    split at hstep
    · exact Or.inl (Option.some.inj hstep).symm
    · exact Or.inr (Option.some.inj hstep).symm
  · cases hstep

theorem page_eq_some {answer : Except String (List Log)}
    (hstep : s.step config codec (.page answer) = some next) :
    ∃ finalized, s.phase = .paging finalized ∧ s.enfCursor < finalized ∧
      ((∃ logs, answer = .ok logs ∧ next = { s with
          currentPage := grownPage config.logPage s.currentPage
          phase := .dispatching finalized (s.pageEnd finalized) logs }) ∨
        next = { s with currentPage := shrunkPage s.currentPage, phase := .idle }) := by
  unfold step at hstep
  simp only at hstep
  split at hstep
  · rename_i finalized hphase
    refine ⟨finalized, hphase, ?_⟩
    split at hstep
    · rename_i hmore
      refine ⟨hmore, ?_⟩
      cases answer with
      | ok logs => exact Or.inl ⟨logs, rfl, (Option.some.inj hstep).symm⟩
      | error detail => exact Or.inr (Option.some.inj hstep).symm
    · cases hstep
  · cases hstep

theorem dispatch_eq_some {write : WriteAttempt .challenges} {rewind : CursorWrite}
    (hstep : s.step config codec (.dispatch write rewind) = some next) :
    ∃ finalized to_ log rest, s.phase = .dispatching finalized to_ (log :: rest) ∧
      ((log.ledgerCall config.providerId = none ∧
          next = { s with phase := .dispatching finalized to_ rest }) ∨
        ∃ call, log.ledgerCall config.providerId = some call ∧
          (((s.ledger.call codec write s.disk call).1 = .ok () ∧
              next = { s.callLedger codec write call with
                phase := .dispatching finalized to_ rest }) ∨
            next = (s.callLedger codec write call).setEnfCursor rewind (log.block - 1) .idle)) := by
  unfold step at hstep
  simp only at hstep
  split at hstep
  · rename_i finalized to_ log rest hphase
    refine ⟨finalized, to_, log, rest, hphase, ?_⟩
    split at hstep
    · rename_i hnone
      exact Or.inl ⟨hnone, (Option.some.inj hstep).symm⟩
    · rename_i call hcall
      refine Or.inr ⟨call, hcall, ?_⟩
      split at hstep
      · rename_i hresult
        exact Or.inl ⟨hresult, (Option.some.inj hstep).symm⟩
      · exact Or.inr (Option.some.inj hstep).symm
  · cases hstep

theorem dispatch_returned {write : WriteAttempt .challenges} (rewind : CursorWrite)
    {finalized to_ : Nat} {log : Log} {rest : List Log} {call : LedgerCall}
    (hphase : s.phase = .dispatching finalized to_ (log :: rest))
    (hcall : log.ledgerCall config.providerId = some call)
    (hresult : (s.ledger.call codec write s.disk call).1 = .ok ()) :
    s.step config codec (.dispatch write rewind) =
      some { s.callLedger codec write call with phase := .dispatching finalized to_ rest } := by
  unfold step
  simp only [hphase, hcall, hresult]

theorem unreadable_eq_some (hstep : s.step config codec .unreadable = some next) :
    (∃ finalized to_ logs, s.phase = .dispatching finalized to_ logs) ∧
      next = { s with phase := .idle } := by
  unfold step at hstep
  simp only at hstep
  split at hstep
  · rename_i hphase
    exact ⟨⟨_, _, _, hphase⟩, (Option.some.inj hstep).symm⟩
  · cases hstep

theorem pageDone_eq_some {write : CursorWrite}
    (hstep : s.step config codec (.pageDone write) = some next) :
    ∃ finalized to_, s.phase = .dispatching finalized to_ [] ∧
      next = s.setEnfCursor write to_ (.paging finalized) := by
  unfold step at hstep
  simp only at hstep
  split at hstep
  · rename_i finalized to_ hphase
    exact ⟨finalized, to_, hphase, (Option.some.inj hstep).symm⟩
  · cases hstep

theorem done_eq_some (hstep : s.step config codec .done = some next) :
    ∃ finalized ≤ s.enfCursor, s.phase = .paging finalized ∧ next = { s with phase := .idle } := by
  unfold step at hstep
  simp only at hstep
  split at hstep
  · rename_i finalized hphase
    split at hstep
    · cases hstep
    · rename_i hdone
      exact ⟨finalized, Nat.le_of_not_lt hdone, hphase, (Option.some.inj hstep).symm⟩
  · cases hstep

theorem requestRescan_eq_some (hstep : s.step config codec .requestRescan = some next) :
    s.phase = .idle ∧ next = { s with rescanRequested := true } := by
  unfold step at hstep
  simp only at hstep
  split at hstep
  · rename_i hphase
    exact ⟨hphase, (Option.some.inj hstep).symm⟩
  · cases hstep

theorem job_eq_some {call : LedgerCall} {write : WriteAttempt .challenges}
    (hstep : s.step config codec (.job call write) = some next) :
    s.phase ≠ .dead ∧ next = s.callLedger codec write call := by
  unfold step at hstep
  simp only at hstep
  split at hstep
  · cases hstep
  · rename_i halive
    exact ⟨halive, (Option.some.inj hstep).symm⟩

theorem restart_eq_some (hstep : s.step config codec .restart = some next) :
    ∃ ledger cursor, Ledger.open codec s.disk = .ok ledger ∧
      loadCursor config.scanFloor s.cursorFile = .ok cursor ∧
      next = ⟨ledger, s.disk, s.cursorFile, cursor, config.logPage, false, .idle⟩ := by
  have hopen : s.reopen config codec = .ok next := by
    unfold step at hstep
    cases hreopen : s.reopen config codec with
    | ok found =>
        rw [hreopen] at hstep
        exact congrArg Except.ok (Option.some.inj hstep)
    | error detail =>
        rw [hreopen] at hstep
        cases hstep
  obtain ⟨ledger, hledger, hrest⟩ := bind_eq_ok.mp hopen
  obtain ⟨cursor, hcursor, hnext⟩ := bind_eq_ok.mp hrest
  exact ⟨ledger, cursor, hledger, hcursor, (Except.ok.inj hnext).symm⟩

end

end EnforcementScan

end Blobsitter.Daemon
