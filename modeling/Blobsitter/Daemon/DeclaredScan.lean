import Blobsitter.Daemon.Delivery
import Blobsitter.Daemon.EnforcementScan

/-!
# The declaration scan

The follower reads the `Declared` logs page by page and hands each to the ingestor.  A nonce
past the one that is owed moves the cursor back to the floor; after any other failure the
scan resumes with the log's block.
-/

namespace Blobsitter.Daemon

open Library
open Reference (Hash)

/-- `declared_event`, with the timestamp of the log's block. -/
def Log.declaredEvent (timestamp : Nat) (log : Log) : Option DeclaredEvent :=
  match log.event with
  | .declared nonce newLeafCount blobVersionedHashes newSubtreePeaks _ _ =>
      if hfits : newLeafCount < 2 ^ 64 then
        some ⟨nonce, newLeafCount, blobVersionedHashes, newSubtreePeaks, log.block, timestamp,
          hfits⟩
      else none
  | _ => none

structure DeclaredScan where
  ingestor : Ingestor
  cursorFile : Option (List Char)
  cursor : Nat
  currentPage : Nat
  phase : ScanPhase

/-- One step of the scan with what it meets. -/
inductive DeclaredInput where
  /-- A tick reaches `scan_declared`, with the page size as the other scan left it. -/
  | tick (finalized currentPage : Nat)
  | page (answer : Except String (List Log))
  | dispatch (timestamp : Nat) (sources : List BlobSource) (rewind : CursorWrite)
  /-- The log cannot be decoded, or its block's timestamp cannot be read. -/
  | unreadable
  /-- The process dies inside a commit. -/
  | crash (left : Disk DataFile)
  | pageDone (write : CursorWrite)
  | done
  | restart

namespace DeclaredScan

variable (keccak256 : ByteString → Hash) (versionedHash : RawBlob → Except VerifyError Hash)
variable (config : ScanConfig) (codec : Codec Frontier) (s : DeclaredScan)

/-- `set_cursor`, and the phase that follows if it succeeds. -/
def setCursor (write : CursorWrite) (block : Nat) (after : ScanPhase) : DeclaredScan :=
  let written := { s with cursorFile := write.left s.cursorFile block }
  match write with
  | .completes => { written with cursor := block, phase := after }
  | .refused => { written with phase := .idle }
  | .emptied => { written with phase := .idle }
  | .dies _ => { written with phase := .dead }

/-- The last block of the page behind the cursor. -/
def pageEnd (finalized : Nat) : Nat := min finalized (s.cursor + s.currentPage)

/-- `dispatch_declared`, once the event is read. -/
def dispatchDeclared (finalized to_ : Nat) (rest : List Log) (event : DeclaredEvent)
    (sources : List BlobSource) (rewind : CursorWrite) : DeclaredScan :=
  let outcome := s.ingestor.call keccak256 versionedHash codec ⟨event, sources⟩
  let called := { s with ingestor := outcome.2 }
  match outcome.1 with
  | .ok _ => { called with phase := .dispatching finalized to_ rest }
  | .error (.returned (.nonceGap _ _)) => called.setCursor rewind config.scanFloor .idle
  | .error (.returned _) => called.setCursor rewind (event.blockNumber - 1) .idle
  | .error (.panicked _) => { called with phase := .dead }

/-- A new process on the same directory. -/
def reopen : Option DeclaredScan :=
  match Store.open codec s.ingestor.disk, loadCursor config.scanFloor s.cursorFile with
  | .ok (store, disk), .ok cursor =>
      some ⟨⟨store, disk⟩, s.cursorFile, cursor, config.logPage, .idle⟩
  | _, _ => none

/-- The loop of `scan_declared`, and what may come between; `none` when the phase does not
admit the step. -/
def step : DeclaredInput → Option DeclaredScan
  | .tick finalized currentPage =>
      match s.phase with
      | .idle => some { s with currentPage := currentPage, phase := .paging finalized }
      | _ => none
  | .page answer =>
      match s.phase with
      | .paging finalized =>
          if s.cursor < finalized then
            match answer with
            | .ok logs =>
                some { s with
                  currentPage := grownPage config.logPage s.currentPage
                  phase := .dispatching finalized (s.pageEnd finalized) logs }
            | .error _ => some { s with currentPage := shrunkPage s.currentPage, phase := .idle }
          else none
      | _ => none
  | .dispatch timestamp sources rewind =>
      match s.phase with
      | .dispatching finalized to_ (log :: rest) =>
          (log.declaredEvent timestamp).map fun event =>
            s.dispatchDeclared keccak256 versionedHash config codec finalized to_ rest event sources
              rewind
      | _ => none
  | .unreadable =>
      match s.phase with
      | .dispatching _ _ (_ :: _) => some { s with phase := .idle }
      | _ => none
  | .crash left =>
      match s.phase with
      | .dispatching _ _ (_ :: _) =>
          some { s with ingestor := ⟨s.ingestor.store, left⟩, phase := .dead }
      | _ => none
  | .pageDone write =>
      match s.phase with
      | .dispatching finalized to_ [] => some (s.setCursor write to_ (.paging finalized))
      | _ => none
  | .done =>
      match s.phase with
      | .paging finalized =>
          if s.cursor < finalized then none else some { s with phase := .idle }
      | _ => none
  | .restart => s.reopen config codec

/-! ## What a step can do -/

section

variable {keccak256 : ByteString → Hash} {versionedHash : RawBlob → Except VerifyError Hash}
variable {config : ScanConfig} {codec : Codec Frontier} {s next : DeclaredScan}

theorem tick_eq_some {finalized currentPage : Nat}
    (hstep : s.step keccak256 versionedHash config codec (.tick finalized currentPage) = some next) :
    s.phase = .idle ∧ next = { s with currentPage := currentPage, phase := .paging finalized } := by
  unfold step at hstep
  simp only at hstep
  split at hstep
  · rename_i hphase
    exact ⟨hphase, (Option.some.inj hstep).symm⟩
  · cases hstep

theorem page_eq_some {answer : Except String (List Log)}
    (hstep : s.step keccak256 versionedHash config codec (.page answer) = some next) :
    ∃ finalized, s.phase = .paging finalized ∧ s.cursor < finalized ∧
      ((∃ logs, answer = .ok logs ∧ next = { s with
          currentPage := grownPage config.logPage s.currentPage
          phase := .dispatching finalized (s.pageEnd finalized) logs }) ∨
        (∃ detail, answer = .error detail) ∧
          next = { s with currentPage := shrunkPage s.currentPage, phase := .idle }) := by
  unfold step at hstep
  simp only at hstep
  split at hstep
  · rename_i finalized hphase
    refine ⟨finalized, hphase, ?_⟩
    split at hstep
    · rename_i hmore
      refine ⟨hmore, ?_⟩
      cases answer with
      | ok logs => exact Or.inl ⟨logs, rfl, (Option.some.inj hstep).symm⟩
      | error detail => exact Or.inr ⟨⟨detail, rfl⟩, (Option.some.inj hstep).symm⟩
    · cases hstep
  · cases hstep

theorem dispatch_eq_some {timestamp : Nat} {sources : List BlobSource} {rewind : CursorWrite}
    (hstep : s.step keccak256 versionedHash config codec (.dispatch timestamp sources rewind) =
      some next) :
    ∃ finalized to_ log rest event, s.phase = .dispatching finalized to_ (log :: rest) ∧
      log.declaredEvent timestamp = some event ∧
      next = s.dispatchDeclared keccak256 versionedHash config codec finalized to_ rest event
        sources rewind := by
  unfold step at hstep
  simp only at hstep
  split at hstep
  · rename_i finalized to_ log rest hphase
    obtain ⟨event, hevent, hnext⟩ := Option.map_eq_some_iff.mp hstep
    exact ⟨finalized, to_, log, rest, event, hphase, hevent, hnext.symm⟩
  · cases hstep

theorem unreadable_eq_some
    (hstep : s.step keccak256 versionedHash config codec .unreadable = some next) :
    s.phase ≠ .dead ∧ next = { s with phase := .idle } := by
  unfold step at hstep
  simp only at hstep
  split at hstep
  · rename_i hphase
    refine ⟨?_, (Option.some.inj hstep).symm⟩
    rw [hphase]
    simp
  · cases hstep

theorem crash_eq_some {left : Disk DataFile}
    (hstep : s.step keccak256 versionedHash config codec (.crash left) = some next) :
    next = { s with ingestor := ⟨s.ingestor.store, left⟩, phase := .dead } := by
  unfold step at hstep
  simp only at hstep
  split at hstep
  · exact (Option.some.inj hstep).symm
  · cases hstep

theorem pageDone_eq_some {write : CursorWrite}
    (hstep : s.step keccak256 versionedHash config codec (.pageDone write) = some next) :
    ∃ finalized to_, s.phase = .dispatching finalized to_ [] ∧
      next = s.setCursor write to_ (.paging finalized) := by
  unfold step at hstep
  simp only at hstep
  split at hstep
  · rename_i finalized to_ hphase
    exact ⟨finalized, to_, hphase, (Option.some.inj hstep).symm⟩
  · cases hstep

theorem done_eq_some (hstep : s.step keccak256 versionedHash config codec .done = some next) :
    ∃ finalized ≤ s.cursor, s.phase = .paging finalized ∧ next = { s with phase := .idle } := by
  unfold step at hstep
  simp only at hstep
  split at hstep
  · rename_i finalized hphase
    split at hstep
    · cases hstep
    · rename_i hdone
      exact ⟨finalized, Nat.le_of_not_lt hdone, hphase, (Option.some.inj hstep).symm⟩
  · cases hstep

theorem restart_eq_some (hstep : s.step keccak256 versionedHash config codec .restart = some next) :
    ∃ store disk cursor, Store.open codec s.ingestor.disk = .ok (store, disk) ∧
      loadCursor config.scanFloor s.cursorFile = .ok cursor ∧
      next = ⟨⟨store, disk⟩, s.cursorFile, cursor, config.logPage, .idle⟩ := by
  have hreopen : s.reopen config codec = some next := hstep
  unfold reopen at hreopen
  split at hreopen
  · rename_i store disk cursor hopen hcursor
    exact ⟨store, disk, cursor, hopen, hcursor, (Option.some.inj hreopen).symm⟩
  · cases hreopen

/-- No step but a dispatch and a restart touches the ingestor. -/
theorem setCursor_ingestor (s : DeclaredScan) (write : CursorWrite) (block : Nat)
    (after : ScanPhase) : (s.setCursor write block after).ingestor = s.ingestor := by
  cases write <;> rfl

theorem setCursor_phase (s : DeclaredScan) (write : CursorWrite) (block : Nat)
    (after : ScanPhase) : (s.setCursor write block after).phase = after ∨
      (s.setCursor write block after).phase = .idle ∨
      (s.setCursor write block after).phase = .dead := by
  cases write with
  | completes => exact Or.inl rfl
  | refused => exact Or.inr (Or.inl rfl)
  | emptied => exact Or.inr (Or.inl rfl)
  | dies kept => exact Or.inr (Or.inr rfl)

section

variable {finalized to_ : Nat} {rest : List Log} {event : DeclaredEvent}
variable {sources : List BlobSource} {rewind : CursorWrite}

theorem dispatchDeclared_ingestor :
    (s.dispatchDeclared keccak256 versionedHash config codec finalized to_ rest event sources
      rewind).ingestor = (s.ingestor.call keccak256 versionedHash codec ⟨event, sources⟩).2 := by
  unfold dispatchDeclared
  simp only
  split
  · rfl
  · rw [setCursor_ingestor]
  · rw [setCursor_ingestor]
  · rfl

theorem dispatchDeclared_phase :
    let next := s.dispatchDeclared keccak256 versionedHash config codec finalized to_ rest event
      sources rewind
    next.phase = .dispatching finalized to_ rest ∨ next.phase = .idle ∨ next.phase = .dead := by
  unfold dispatchDeclared
  simp only
  split
  · exact Or.inl rfl
  · rcases setCursor_phase _ rewind config.scanFloor .idle with hidle | hrest
    · exact Or.inr (Or.inl hidle)
    · exact Or.inr hrest
  · rcases setCursor_phase _ rewind (event.blockNumber - 1) .idle with hidle | hrest
    · exact Or.inr (Or.inl hidle)
    · exact Or.inr hrest
  · exact Or.inr (Or.inr rfl)

theorem dispatchDeclared_ok {committed : Bool}
    (hcall : (s.ingestor.call keccak256 versionedHash codec ⟨event, sources⟩).1 = .ok committed) :
    s.dispatchDeclared keccak256 versionedHash config codec finalized to_ rest event sources rewind =
      { s with
        ingestor := (s.ingestor.call keccak256 versionedHash codec ⟨event, sources⟩).2
        phase := .dispatching finalized to_ rest } := by
  unfold dispatchDeclared
  simp only
  rw [hcall]

theorem dispatchDeclared_currentPage :
    (s.dispatchDeclared keccak256 versionedHash config codec finalized to_ rest event sources
      rewind).currentPage = s.currentPage := by
  unfold dispatchDeclared
  simp only
  split
  · rfl
  · cases rewind <;> rfl
  · cases rewind <;> rfl
  · rfl

/-- At a gap the scan starts over. -/
theorem dispatchDeclared_gap {expected got : Nat}
    (hcall : s.ingestor.call keccak256 versionedHash codec ⟨event, sources⟩ =
      (.error (.returned (.nonceGap expected got)), s.ingestor)) :
    s.dispatchDeclared keccak256 versionedHash config codec finalized to_ rest event sources rewind =
      s.setCursor rewind config.scanFloor .idle := by
  unfold dispatchDeclared
  simp only
  rw [hcall]

end

section

variable {finalized to_ : Nat} {log : Log} {rest : List Log} {event : DeclaredEvent}

theorem step_tick {currentPage : Nat} (hphase : s.phase = .idle) :
    s.step keccak256 versionedHash config codec (.tick finalized currentPage) =
      some { s with currentPage := currentPage, phase := .paging finalized } := by
  unfold step
  simp only [hphase]

theorem step_page {logs : List Log} (hphase : s.phase = .paging finalized)
    (hmore : s.cursor < finalized) :
    s.step keccak256 versionedHash config codec (.page (.ok logs)) = some { s with
      currentPage := grownPage config.logPage s.currentPage
      phase := .dispatching finalized (s.pageEnd finalized) logs } := by
  unfold step
  simp only [hphase, if_pos hmore]

theorem step_dispatch {timestamp : Nat} {sources : List BlobSource} {rewind : CursorWrite}
    (hphase : s.phase = .dispatching finalized to_ (log :: rest))
    (hevent : log.declaredEvent timestamp = some event) :
    s.step keccak256 versionedHash config codec (.dispatch timestamp sources rewind) =
      some (s.dispatchDeclared keccak256 versionedHash config codec finalized to_ rest event sources
        rewind) := by
  unfold step
  simp only [hphase, hevent, Option.map_some]

theorem step_pageDone {write : CursorWrite} (hphase : s.phase = .dispatching finalized to_ []) :
    s.step keccak256 versionedHash config codec (.pageDone write) =
      some (s.setCursor write to_ (.paging finalized)) := by
  unfold step
  simp only [hphase]

theorem step_done (hphase : s.phase = .paging finalized) (hdone : finalized ≤ s.cursor) :
    s.step keccak256 versionedHash config codec .done = some { s with phase := .idle } := by
  unfold step
  simp only [hphase, if_neg (Nat.not_lt_of_le hdone)]

theorem step_restart {store : Store} {disk : Disk DataFile} {cursor : Nat}
    (hopen : Store.open codec s.ingestor.disk = .ok (store, disk))
    (hload : loadCursor config.scanFloor s.cursorFile = .ok cursor) :
    s.step keccak256 versionedHash config codec .restart =
      some ⟨⟨store, disk⟩, s.cursorFile, cursor, config.logPage, .idle⟩ := by
  change s.reopen config codec = _
  unfold reopen
  simp only [hopen, hload]

end

end

end DeclaredScan

end Blobsitter.Daemon
