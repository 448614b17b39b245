import Blobsitter.Daemon.EnforcementHistory
import Mathlib.Logic.Relation

/-!
# Replaying the enforcement history

A finalized history is replayed any number of times: pages fail, a dispatch fails and moves
the cursor back, the process dies, a rescan starts over.  What one dispatch keeps is stated
for a position in the history, and the scan only ever moves between positions.
-/

namespace Blobsitter.Daemon

open Library
open Std (ExtTreeMap)

/-! ## Runs -/

/-- The scan in its world: the highest finalized block that a tick has read, the ids that
the chain reports resolved, and those dropped from the ledger for it. -/
structure Replay where
  scan : EnforcementScan
  highest : Nat
  reported : Nat → Bool
  dropped : Nat → Bool

/-- Steps that meet nothing from outside the process, and restarts. -/
def ScanInput.IsQuiet : ScanInput → Prop
  | .unreadable => True
  | .pageDone _ => True
  | .done => True
  | .requestRescan => True
  | .restart => True
  | _ => False

section

variable (config : ScanConfig) (codec : Codec Entries) (history : List Log)

/-- One step of a replay.  Pages that return are complete, a call of a dispatch that returns
has landed, entries are dropped only when the chain reports them resolved, and what it has
reported resolved stays so. -/
inductive ReplayStep : Replay → Replay → Prop where
  | tick {r : Replay} {finalized currentPage : Nat} {write : CursorWrite} {next : EnforcementScan}
      (hstep : r.scan.step config codec (.tick finalized currentPage write) = some next) :
      ReplayStep r { r with scan := next, highest := max r.highest finalized }
  | page {r : Replay} {answer : Except String (List Log)} {next : EnforcementScan}
      (hcomplete : ∀ finalized logs, r.scan.phase = .paging finalized → answer = .ok logs →
        logs = between Log.block (enforcementLogs history) r.scan.enfCursor
          (r.scan.pageEnd finalized))
      (hstep : r.scan.step config codec (.page answer) = some next) :
      ReplayStep r { r with scan := next }
  | dispatch {r : Replay} {write : WriteAttempt .challenges} {rewind : CursorWrite}
      {next : EnforcementScan}
      (hlands : ∀ finalized to_ log rest call, r.scan.phase = .dispatching finalized to_ (log :: rest) →
        log.ledgerCall config.providerId = some call →
        r.scan.ReadsBack codec call ∧ r.scan.Lands codec write call)
      (hstep : r.scan.step config codec (.dispatch write rewind) = some next) :
      ReplayStep r { r with scan := next }
  | quiet {r : Replay} {input : ScanInput} {next : EnforcementScan} (hquiet : input.IsQuiet)
      (hstep : r.scan.step config codec input = some next) : ReplayStep r { r with scan := next }
  | drop {r : Replay} {id : Nat} {write : WriteAttempt .challenges} {next : EnforcementScan}
      (hreported : r.reported id = true) (hreads : r.scan.ReadsBack codec (.remove id))
      (hstep : r.scan.step config codec (.job (.remove id) write) = some next) :
      ReplayStep r { r with scan := next, dropped := Function.update r.dropped id true }
  | respond {r : Replay} {id : Nat} {txHash : String} {write : WriteAttempt .challenges}
      {next : EnforcementScan} (hreads : r.scan.ReadsBack codec (.markResponded id txHash))
      (hstep : r.scan.step config codec (.job (.markResponded id txHash) write) = some next) :
      ReplayStep r { r with scan := next }
  | report {r : Replay} (id : Nat) :
      ReplayStep r { r with reported := Function.update r.reported id true }

/-- A pass is about to begin: the cursor is at the floor, in memory and in its file.  The
ledger holds whatever challenges of the provider. -/
structure StartsPass (r : Replay) : Prop where
  phase : r.scan.phase = .idle ∨ ∃ finalized ≤ r.highest, r.scan.phase = .paging finalized
  cursor : r.scan.enfCursor = config.scanFloor
  file : ∀ value, loadCursor config.scanFloor r.scan.cursorFile = .ok value →
    value ≤ config.scanFloor
  own : r.scan.Everywhere codec fun entries => ∀ id entry, entries[id]? = some entry →
    ∃ log ∈ enforcementLogs history, ∃ challenge : OpenChallenge,
      log.Opens config.providerId challenge ∧ log.block ≤ r.highest ∧ challenge.challengeId = id ∧
        entry.Records challenge
  dropped : ∀ id, r.dropped id = false

/-- What every state of a replay is like, at a position of the history. -/
structure Replaying (p : Nat) (r : Replay) : Prop where
  consumed : r.scan.Everywhere codec
    (Consumed config (enforcementLogs history) r.highest r.dropped p)
  cursor : upTo Log.block (enforcementLogs history) r.scan.enfCursor ≤ p
  file : ∀ value, loadCursor config.scanFloor r.scan.cursorFile = .ok value →
    upTo Log.block (enforcementLogs history) value ≤ p
  alive : r.scan.phase ≠ .dead → ∀ value,
    loadCursor config.scanFloor r.scan.cursorFile = .ok value → value ≤ r.scan.enfCursor
  paging : ∀ finalized, r.scan.phase = .paging finalized → finalized ≤ r.highest
  dispatching : ∀ finalized to_ logs, r.scan.phase = .dispatching finalized to_ logs →
    to_ ≤ r.highest ∧ finalized ≤ r.highest ∧
      logs = ((enforcementLogs history).take (upTo Log.block (enforcementLogs history) to_)).drop p
  reported : ∀ id, r.dropped id = true → r.reported id = true

end

/-- What was marked before stays marked. -/
theorem update_true {marks : Nat → Bool} {other : Nat} (hother : marks other = true) (id : Nat) :
    Function.update marks id true other = true := by
  rw [Function.update_apply]
  split
  · rfl
  · exact hother

namespace Replaying

variable {config : ScanConfig} {codec : Codec Entries} {history : List Log} {p : Nat} {r : Replay}

/-- A later finalized block changes nothing. -/
theorem raise (hr : Replaying config codec history p r) {later : Nat} (hlater : r.highest ≤ later) :
    Replaying config codec history p { r with highest := later } where
  consumed := hr.consumed.imp fun _ hconsumed => hconsumed.mono hlater le_rfl fun _ hid => hid
  cursor := hr.cursor
  file := hr.file
  alive := hr.alive
  paging finalized hphase := (hr.paging finalized hphase).trans hlater
  dispatching finalized to_ logs hphase := by
    obtain ⟨hto, hfinalized, hlogs⟩ := hr.dispatching finalized to_ logs hphase
    exact ⟨hto.trans hlater, hfinalized.trans hlater, hlogs⟩
  reported := hr.reported

/-- A step inside the scan that leaves cursor and ledger alone. -/
theorem rephase (hr : Replaying config codec history p r) (halive : r.scan.phase ≠ .dead)
    {q size : Nat} {rescan : Bool} {phase : ScanPhase} (hq : q ≤ p)
    (hcursor : upTo Log.block (enforcementLogs history) r.scan.enfCursor ≤ q)
    (hpaging : ∀ finalized, phase = .paging finalized → finalized ≤ r.highest)
    (hdispatching : ∀ finalized to_ logs, phase = .dispatching finalized to_ logs →
      to_ ≤ r.highest ∧ finalized ≤ r.highest ∧
        logs = ((enforcementLogs history).take (upTo Log.block (enforcementLogs history) to_)).drop q) :
    Replaying config codec history q
      { r with scan :=
        { r.scan with currentPage := size, rescanRequested := rescan, phase := phase } } where
  consumed := hr.consumed.imp fun _ hconsumed => hconsumed.mono le_rfl hq fun _ hid => hid
  cursor := hcursor
  file value hvalue := (upTo_mono Log.block _ (hr.alive halive value hvalue)).trans hcursor
  alive _ := hr.alive halive
  paging := hpaging
  dispatching := hdispatching
  reported := hr.reported

/-- The scan ends with an error or is done. -/
theorem settle (hr : Replaying config codec history p r) (halive : r.scan.phase ≠ .dead)
    {size : Nat} :
    Replaying config codec history p
      { r with scan := { r.scan with currentPage := size, phase := .idle } } := by
  refine hr.rephase halive le_rfl hr.cursor ?_ ?_
  · intro _ hpaging
    cases hpaging
  · intro _ _ _ hdispatching
    cases hdispatching

/-- The cursor moves to a block that is consumed. -/
theorem setEnfCursor {s : EnforcementScan} {highest : Nat} {reported dropped : Nat → Bool}
    (hconsumed : s.Everywhere codec (Consumed config (enforcementLogs history) highest dropped p))
    (hcursor : upTo Log.block (enforcementLogs history) s.enfCursor ≤ p)
    (halive : ∀ value, loadCursor config.scanFloor s.cursorFile = .ok value → value ≤ s.enfCursor)
    (hreported : ∀ id, dropped id = true → reported id = true) {block : Nat}
    (hblock : upTo Log.block (enforcementLogs history) block ≤ p) {after : ScanPhase}
    (hafter : after = .idle ∨ ∃ finalized ≤ highest, after = .paging finalized)
    (write : CursorWrite) :
    Replaying config codec history p ⟨s.setEnfCursor write block after, highest, reported, dropped⟩ := by
  have hfile : ∀ value,
      loadCursor config.scanFloor (write.left s.cursorFile block) = .ok value →
      write = .refused ∧ value ≤ s.enfCursor ∨ value ≤ block := by
    intro value hvalue
    rcases write.loadCursor_left hvalue with ⟨hwrite, hold⟩ | hle
    · exact Or.inl ⟨hwrite, halive value hold⟩
    · exact Or.inr hle
  have hposition : ∀ value,
      loadCursor config.scanFloor (write.left s.cursorFile block) = .ok value →
      upTo Log.block (enforcementLogs history) value ≤ p := by
    intro value hvalue
    rcases hfile value hvalue with ⟨_, hle⟩ | hle
    · exact (upTo_mono Log.block _ hle).trans hcursor
    · exact (upTo_mono Log.block _ hle).trans hblock
  cases write with
  | completes =>
      refine ⟨hconsumed, hblock, hposition, ?_, ?_, ?_, hreported⟩
      · intro _ value hvalue
        rcases hfile value hvalue with ⟨hwrite, _⟩ | hle
        · cases hwrite
        · exact hle
      · intro finalized hphase
        rcases hafter with rfl | ⟨_, hle, rfl⟩
        · cases hphase
        · cases hphase
          exact hle
      · intro finalized to_ logs hphase
        rcases hafter with rfl | ⟨_, _, rfl⟩ <;> cases hphase
  | refused =>
      refine ⟨hconsumed, hcursor, hposition, fun _ => halive, ?_, ?_, hreported⟩
      · intro finalized hphase
        cases hphase
      · intro finalized to_ logs hphase
        cases hphase
  | emptied =>
      refine ⟨hconsumed, hcursor, hposition, ?_, ?_, ?_, hreported⟩
      · intro _ value hvalue
        cases hvalue
      · intro finalized hphase
        cases hphase
      · intro finalized to_ logs hphase
        cases hphase
  | dies kept =>
      refine ⟨hconsumed, hcursor, hposition, ?_, ?_, ?_, hreported⟩
      · intro hdead
        exact absurd rfl hdead
      · intro finalized hphase
        cases hphase
      · intro finalized to_ logs hphase
        cases hphase

theorem tick (hhistory : FinalizedHistory config history) (hr : Replaying config codec history p r)
    {finalized currentPage : Nat} {write : CursorWrite} {next : EnforcementScan}
    (hstep : r.scan.step config codec (.tick finalized currentPage write) = some next) :
    ∃ q, Replaying config codec history q
      { r with scan := next, highest := max r.highest finalized } := by
  have hr := hr.raise (le_max_left r.highest finalized)
  have hfloor : upTo Log.block (enforcementLogs history) config.scanFloor ≤ p := by
    refine (Nat.eq_zero_of_not_pos ?_).le.trans (Nat.zero_le p)
    intro hpos
    obtain ⟨log, hlog⟩ := List.exists_mem_of_length_pos hpos
    obtain ⟨hmem, hle⟩ := List.mem_filter.mp hlog
    exact absurd (of_decide_eq_true hle) (not_le.mpr (hhistory.enforcement.deployed log hmem))
  obtain ⟨hphase, rfl | rfl⟩ := EnforcementScan.tick_eq_some hstep
  · refine ⟨p, setEnfCursor ?_ ?_ ?_ hr.reported hfloor ?_ write⟩
    · exact hr.consumed
    · exact hr.cursor
    · exact hr.alive (hphase ▸ ScanPhase.noConfusion)
    · exact Or.inr ⟨finalized, le_max_right _ _, rfl⟩
  · refine ⟨p, hr.rephase (hphase ▸ ScanPhase.noConfusion) le_rfl hr.cursor ?_ ?_⟩
    · intro _ hpaging
      cases hpaging
      exact le_max_right _ _
    · intro _ _ _ hother
      cases hother

/-- A page that is answered whole is the segment behind the cursor. -/
theorem page (hhistory : FinalizedHistory config history) (hr : Replaying config codec history p r)
    {answer : Except String (List Log)} {next : EnforcementScan}
    (hcomplete : ∀ finalized logs, r.scan.phase = .paging finalized → answer = .ok logs →
      logs = between Log.block (enforcementLogs history) r.scan.enfCursor (r.scan.pageEnd finalized))
    (hstep : r.scan.step config codec (.page answer) = some next) :
    ∃ q, Replaying config codec history q { r with scan := next } := by
  obtain ⟨finalized, hphase, _, hnext⟩ := EnforcementScan.page_eq_some hstep
  have hfinalized := hr.paging finalized hphase
  rcases hnext with ⟨logs, hanswer, rfl⟩ | rfl
  · have hlogs := hcomplete finalized logs hphase hanswer
    rw [hhistory.enforcement.ordered.between_eq] at hlogs
    refine ⟨_, hr.rephase (hphase ▸ ScanPhase.noConfusion) hr.cursor le_rfl ?_ ?_⟩
    · intro _ hpaging
      cases hpaging
    · intro _ _ _ hdispatching
      cases hdispatching
      exact ⟨(Nat.min_le_left _ _).trans hfinalized, hfinalized, hlogs⟩
  · exact ⟨p, hr.settle (hphase ▸ ScanPhase.noConfusion)⟩

/-- The log that is dispatched next is the one at the position. -/
theorem next_log (hr : Replaying config codec history p r) {finalized to_ : Nat} {log : Log}
    {rest : List Log} (hphase : r.scan.phase = .dispatching finalized to_ (log :: rest)) :
    (enforcementLogs history)[p]? = some log ∧
      p < upTo Log.block (enforcementLogs history) to_ ∧
      rest = ((enforcementLogs history).take
        (upTo Log.block (enforcementLogs history) to_)).drop (p + 1) := by
  obtain ⟨_, _, hlogs⟩ := hr.dispatching finalized to_ _ hphase
  have hhead := congrArg (fun logs => logs[0]?) hlogs
  have htail := congrArg List.tail hlogs
  simp only [List.getElem?_cons_zero, List.getElem?_drop, Nat.add_zero] at hhead
  rw [List.tail_cons, List.tail_drop] at htail
  rw [List.getElem?_take] at hhead
  split at hhead
  · rename_i hlt
    exact ⟨hhead.symm, hlt, htail⟩
  · cases hhead

/-- A call for the next log keeps what the logs before it left. -/
theorem dispatched (hhistory : FinalizedHistory config history)
    (hr : Replaying config codec history p r) {finalized to_ : Nat} {log : Log} {rest : List Log}
    (hphase : r.scan.phase = .dispatching finalized to_ (log :: rest)) {call : LedgerCall}
    (hcall : log.ledgerCall config.providerId = some call) (hreads : r.scan.ReadsBack codec call)
    (write : WriteAttempt .challenges) :
    (r.scan.callLedger codec write call).Everywhere codec
      (Consumed config (enforcementLogs history) r.highest r.dropped p) := by
  obtain ⟨hlog, hlt, _⟩ := hr.next_log hphase
  have hblock : log.block ≤ r.highest :=
    ((hhistory.enforcement.ordered.lt_upTo_iff hlog to_).mp hlt).trans
      (hr.dispatching finalized to_ _ hphase).1
  refine hr.consumed.callLedger hreads ?_
  intro entries hchanged
  cases call with
  | insert challenge =>
      rw [LedgerCall.changed] at hchanged
      split at hchanged
      · cases hchanged
      · obtain rfl := Option.some.inj hchanged
        exact hr.consumed.1.insert hhistory.enforcement hlog hblock hcall
  | markResponded id txHash =>
      rw [LedgerCall.changed, Option.map_eq_some_iff] at hchanged
      obtain ⟨entry, hentry, rfl⟩ := hchanged
      exact hr.consumed.1.respond hentry _
  | remove id =>
      rw [LedgerCall.changed] at hchanged
      split at hchanged
      · obtain rfl := Option.some.inj hchanged
        exact hr.consumed.1.erase (Or.inl ⟨log, List.mem_of_getElem? hlog, hblock, hcall⟩)
      · cases hchanged

/-- The scan goes on behind the log once what it did is recorded. -/
theorem advance (hr : Replaying config codec history p r) {finalized to_ : Nat} {log : Log}
    {rest : List Log} (hphase : r.scan.phase = .dispatching finalized to_ (log :: rest))
    {ledger : Ledger} {disk : Disk DataFile}
    (hconsumed : EnforcementScan.Everywhere codec
      (Consumed config (enforcementLogs history) r.highest r.dropped (p + 1))
      { r.scan with ledger := ledger, disk := disk }) :
    Replaying config codec history (p + 1)
      { r with scan :=
        { r.scan with ledger := ledger, disk := disk, phase := .dispatching finalized to_ rest } } := by
  obtain ⟨hto, hfinalized, _⟩ := hr.dispatching finalized to_ _ hphase
  obtain ⟨_, _, hrest⟩ := hr.next_log hphase
  have halive : r.scan.phase ≠ .dead := by
    rw [hphase]
    exact ScanPhase.noConfusion
  refine ⟨hconsumed, hr.cursor.trans (Nat.le_succ p), ?_, fun _ => hr.alive halive, ?_, ?_,
    hr.reported⟩
  · exact fun value hvalue => (hr.file value hvalue).trans (Nat.le_succ p)
  · intro _ hpaging
    cases hpaging
  · intro _ _ _ hdispatching
    cases hdispatching
    exact ⟨hto, hfinalized, hrest⟩

theorem dispatch (hhistory : FinalizedHistory config history)
    (hr : Replaying config codec history p r) {write : WriteAttempt .challenges}
    {rewind : CursorWrite} {next : EnforcementScan}
    (hlands : ∀ finalized to_ log rest call,
      r.scan.phase = .dispatching finalized to_ (log :: rest) →
      log.ledgerCall config.providerId = some call →
      r.scan.ReadsBack codec call ∧ r.scan.Lands codec write call)
    (hstep : r.scan.step config codec (.dispatch write rewind) = some next) :
    ∃ q, Replaying config codec history q { r with scan := next } := by
  obtain ⟨finalized, to_, log, rest, hphase, hnext⟩ := EnforcementScan.dispatch_eq_some hstep
  obtain ⟨hlog, _, _⟩ := hr.next_log hphase
  rcases hnext with ⟨hnone, rfl⟩ | ⟨call, hcall, hnext⟩
  · exact ⟨p + 1, hr.advance hphase
      (hr.consumed.imp fun _ hconsumed => hconsumed.succ_quiet hlog hnone)⟩
  · obtain ⟨hreads, hlanded⟩ := hlands finalized to_ log rest call hphase hcall
    have hkept := hr.dispatched hhistory hphase hcall hreads write
    rcases hnext with ⟨hresult, rfl⟩ | rfl
    · have hrecorded := hlanded.everywhere hresult
      refine ⟨p + 1, hr.advance hphase ⟨?_, ?_⟩⟩
      · exact hkept.1.succ_recorded hlog hcall hrecorded.1
      · intro found hfound
        exact (hkept.2 found hfound).succ_recorded hlog hcall (hrecorded.2 found hfound)
    · refine ⟨p, setEnfCursor hkept hr.cursor (hr.alive (hphase ▸ ScanPhase.noConfusion)) hr.reported
        ?_ (Or.inl rfl) rewind⟩
      -- the log itself lies behind the block before it
      by_contra hgt
      have hlate := (hhistory.enforcement.ordered.lt_upTo_iff hlog (log.block - 1)).mp
        (not_le.mp hgt)
      have hdeployed := hhistory.enforcement.deployed log (List.mem_of_getElem? hlog)
      omega

theorem quiet (hr : Replaying config codec history p r) {input : ScanInput} (hquiet : input.IsQuiet)
    {next : EnforcementScan} (hstep : r.scan.step config codec input = some next) :
    ∃ q, Replaying config codec history q { r with scan := next } := by
  cases input with
  | unreadable =>
      obtain ⟨⟨_, _, _, hphase⟩, rfl⟩ := EnforcementScan.unreadable_eq_some hstep
      exact ⟨p, hr.settle (hphase ▸ ScanPhase.noConfusion)⟩
  | pageDone write =>
      obtain ⟨finalized, to_, hphase, rfl⟩ := EnforcementScan.pageDone_eq_some hstep
      obtain ⟨_, hfinalized, hnone⟩ := hr.dispatching finalized to_ _ hphase
      have hlen := List.drop_eq_nil_iff.mp hnone.symm
      rw [List.length_take, Nat.min_eq_left (upTo_le_length _ _ _)] at hlen
      exact ⟨p, setEnfCursor hr.consumed hr.cursor (hr.alive (hphase ▸ ScanPhase.noConfusion))
        hr.reported hlen (Or.inr ⟨finalized, hfinalized, rfl⟩) write⟩
  | done =>
      obtain ⟨_, _, hphase, rfl⟩ := EnforcementScan.done_eq_some hstep
      exact ⟨p, hr.settle (hphase ▸ ScanPhase.noConfusion)⟩
  | requestRescan =>
      obtain ⟨hphase, rfl⟩ := EnforcementScan.requestRescan_eq_some hstep
      exact ⟨p, hr.consumed, hr.cursor, hr.file, hr.alive, hr.paging, hr.dispatching, hr.reported⟩
  | restart =>
      obtain ⟨ledger, cursor, hledger, hcursor, rfl⟩ := EnforcementScan.restart_eq_some hstep
      refine ⟨p, ⟨hr.consumed.2 ledger hledger, hr.consumed.2⟩, hr.file cursor hcursor, hr.file, ?_,
        ?_, ?_, hr.reported⟩
      · intro _ value hvalue
        exact (Except.ok.inj (hvalue.symm.trans hcursor)).le
      · intro _ hpaging
        cases hpaging
      · intro _ _ _ hdispatching
        cases hdispatching
  | tick _ _ _ => cases hquiet
  | page _ => cases hquiet
  | dispatch _ _ => cases hquiet
  | job _ _ => cases hquiet

/-- A job's call keeps what is consumed. -/
theorem job (hr : Replaying config codec history p r) {call : LedgerCall}
    {write : WriteAttempt .challenges} {dropped : Nat → Bool}
    (hdropped : ∀ id, dropped id = true → r.reported id = true)
    (hconsumed : (r.scan.callLedger codec write call).Everywhere codec
      (Consumed config (enforcementLogs history) r.highest dropped p)) :
    Replaying config codec history p
      { r with scan := r.scan.callLedger codec write call, dropped := dropped } :=
  ⟨hconsumed, hr.cursor, hr.file, hr.alive, hr.paging, hr.dispatching, hdropped⟩

theorem drop (hr : Replaying config codec history p r) {id : Nat} {write : WriteAttempt .challenges}
    {next : EnforcementScan} (hreported : r.reported id = true)
    (hreads : r.scan.ReadsBack codec (.remove id))
    (hstep : r.scan.step config codec (.job (.remove id) write) = some next) :
    Replaying config codec history p
      { r with scan := next, dropped := Function.update r.dropped id true } := by
  obtain ⟨_, rfl⟩ := EnforcementScan.job_eq_some hstep
  have hkept := hr.consumed.imp fun _ hconsumed =>
    hconsumed.mono le_rfl le_rfl fun other hother => update_true (hother : r.dropped other = true) id
  refine hr.job ?_ (hkept.callLedger hreads ?_)
  · intro other hother
    rw [Function.update_apply] at hother
    split at hother
    · rename_i hid
      rw [hid]
      exact hreported
    · exact hr.reported other hother
  · intro entries hchanged
    rw [LedgerCall.changed] at hchanged
    split at hchanged
    · obtain rfl := Option.some.inj hchanged
      exact hkept.1.erase (Or.inr (Function.update_self _ _ _))
    · cases hchanged

theorem respond (hr : Replaying config codec history p r) {id : Nat} {txHash : String}
    {write : WriteAttempt .challenges} {next : EnforcementScan}
    (hreads : r.scan.ReadsBack codec (.markResponded id txHash))
    (hstep : r.scan.step config codec (.job (.markResponded id txHash) write) = some next) :
    Replaying config codec history p { r with scan := next } := by
  obtain ⟨_, rfl⟩ := EnforcementScan.job_eq_some hstep
  refine hr.job hr.reported (hr.consumed.callLedger hreads ?_)
  intro entries hchanged
  rw [LedgerCall.changed, Option.map_eq_some_iff] at hchanged
  obtain ⟨entry, hentry, rfl⟩ := hchanged
  exact hr.consumed.1.respond hentry _

/-- What one step keeps. -/
theorem step (hhistory : FinalizedHistory config history) (hr : Replaying config codec history p r)
    {next : Replay} (hstep : ReplayStep config codec history r next) :
    ∃ q, Replaying config codec history q next := by
  cases hstep with
  | tick hstep => exact hr.tick hhistory hstep
  | page hcomplete hstep => exact hr.page hhistory hcomplete hstep
  | dispatch hlands hstep => exact hr.dispatch hhistory hlands hstep
  | quiet hquiet hstep => exact hr.quiet hquiet hstep
  | drop hreported hreads hstep => exact ⟨p, hr.drop hreported hreads hstep⟩
  | respond hreads hstep => exact ⟨p, hr.respond hreads hstep⟩
  | report id =>
      refine ⟨p, hr.consumed, hr.cursor, hr.file, hr.alive, hr.paging, hr.dispatching, ?_⟩
      exact fun other hother => update_true (hr.reported other hother) id

end Replaying

section

variable {config : ScanConfig} {codec : Codec Entries} {history : List Log} {start r : Replay}

theorem StartsPass.replaying (hhistory : FinalizedHistory config history)
    (hstart : StartsPass config codec history start) :
    Replaying config codec history 0 start := by
  have hfloor : ∀ value ≤ config.scanFloor,
      upTo Log.block (enforcementLogs history) value ≤ 0 := by
    intro value hvalue
    rw [Nat.le_zero, upTo, List.length_eq_zero_iff, List.filter_eq_nil_iff]
    intro log hmem hle
    have hdeployed := hhistory.enforcement.deployed log hmem
    exact absurd ((of_decide_eq_true hle).trans hvalue) (not_le.mpr hdeployed)
  refine ⟨hstart.own.imp ?_, hfloor _ hstart.cursor.le, fun value hvalue =>
    hfloor value (hstart.file value hvalue), ?_, ?_, ?_, ?_⟩
  · intro entries hown
    refine ⟨hown, ?_, ?_⟩
    · intro i log challenge hi
      exact absurd hi (Nat.not_lt_zero i)
    · intro i log id hi
      exact absurd hi (Nat.not_lt_zero i)
  · intro _ value hvalue
    rw [hstart.cursor]
    exact hstart.file value hvalue
  · intro finalized hpaging
    rcases hstart.phase with hidle | ⟨_, hle, hphase⟩
    · rw [hidle] at hpaging
      cases hpaging
    · rw [hphase] at hpaging
      cases hpaging
      exact hle
  · intro _ _ _ hdispatching
    rcases hstart.phase with hidle | ⟨_, _, hphase⟩
    · rw [hidle] at hdispatching
      cases hdispatching
    · rw [hphase] at hdispatching
      cases hdispatching
  · intro id hdropped
    rw [hstart.dropped id] at hdropped
    cases hdropped

/-- What every run keeps. -/
theorem replaying_of_run (hhistory : FinalizedHistory config history)
    (hstart : StartsPass config codec history start)
    (hrun : Relation.ReflTransGen (ReplayStep config codec history) start r) :
    ∃ p, Replaying config codec history p r := by
  induction hrun with
  | refl => exact ⟨0, hstart.replaying hhistory⟩
  | tail _ hstep ih =>
      obtain ⟨p, hr⟩ := ih
      exact hr.step hhistory hstep

/-- A consumed challenge that is neither resolved nor dropped is in the ledger. -/
theorem Consumed.holds (hhistory : FinalizedHistory config history) {highest p bound : Nat}
    {dropped : Nat → Bool} {entries : Entries}
    (hconsumed : Consumed config (enforcementLogs history) highest dropped p entries)
    (hbound : upTo Log.block (enforcementLogs history) bound ≤ p) {log : Log}
    {challenge : OpenChallenge} (hlog : log ∈ history) (hopens : log.Opens config.providerId challenge)
    (hblock : log.block ≤ bound)
    (hunresolved : ∀ other ∈ history, other.block ≤ highest →
      ¬other.Resolves config.providerId challenge.challengeId)
    (hkept : dropped challenge.challengeId = false) :
    Holds entries challenge.challengeId challenge := by
  obtain ⟨i, hi⟩ := List.mem_iff_getElem?.mp ((mem_enforcementLogs hopens).mpr hlog)
  have hbelow := ((hhistory.enforcement.ordered.lt_upTo_iff hi bound).mpr hblock).trans_le hbound
  have hthere := hconsumed.covered i log challenge hbelow hi hopens
    (fun other hmem => hunresolved other (List.mem_of_mem_filter hmem)) hkept
  obtain ⟨entry, hentry⟩ := Option.ne_none_iff_exists'.mp hthere
  obtain ⟨found, hfound, same, hsame, _, hid, hrecords⟩ := hconsumed.own _ entry hentry
  obtain rfl := hhistory.enforcement.same_challenge ((mem_enforcementLogs hopens).mpr hlog) hfound
    hopens hsame hid.symm
  exact ⟨entry, hentry, hrecords⟩

/-- Replays converge.  At every moment each challenge opened up to the cursor and resolved
nowhere is in the ledger, in memory and on disk; when a pass from the floor reaches the
finalized block, the ledger is what the history says, apart from entries dropped because
the chain reports them resolved; and a replayed open changes no entry. -/
theorem enforcement_replay_converges (hhistory : FinalizedHistory config history)
    (hstart : StartsPass config codec history start)
    (hrun : Relation.ReflTransGen (ReplayStep config codec history) start r) :
    (∀ log ∈ history, ∀ challenge : OpenChallenge, log.Opens config.providerId challenge →
      log.block ≤ r.scan.enfCursor →
      (∀ other ∈ history, ¬other.Resolves config.providerId challenge.challengeId) →
      r.reported challenge.challengeId = false →
      r.scan.Everywhere codec fun entries => Holds entries challenge.challengeId challenge) ∧
    (r.scan.enfCursor = r.highest →
      (∀ id entry, r.scan.ledger.entries[id]? = some entry → ∃ challenge : OpenChallenge,
        challenge.challengeId = id ∧ entry.Records challenge ∧
          OpenAt config history r.highest challenge) ∧
      ∀ challenge : OpenChallenge, OpenAt config history r.highest challenge →
        Holds r.scan.ledger.entries challenge.challengeId challenge ∨
          r.dropped challenge.challengeId = true ∧ r.reported challenge.challengeId = true) ∧
    ∀ write rewind (next : EnforcementScan),
      r.scan.step config codec (.dispatch write rewind) = some next →
      ∀ finalized to_ (log : Log) rest (challenge : OpenChallenge),
        r.scan.phase = .dispatching finalized to_ (log :: rest) →
        log.Opens config.providerId challenge →
        ∀ (id : Nat) (entry : OpenChallenge), r.scan.ledger.entries[id]? = some entry →
          next.ledger.entries[id]? = some entry := by
  obtain ⟨p, hr⟩ := replaying_of_run hhistory hstart hrun
  refine ⟨?_, ?_, ?_⟩
  · intro log hlog challenge hopens hblock hunresolved hunreported
    have hkept : r.dropped challenge.challengeId = false := by
      cases hdropped : r.dropped challenge.challengeId with
      | false => rfl
      | true =>
          rw [hr.reported _ hdropped] at hunreported
          cases hunreported
    exact hr.consumed.imp fun entries hconsumed => hconsumed.holds hhistory hr.cursor hlog hopens
      hblock (fun other hother _ => hunresolved other hother) hkept
  · intro hreached
    have hcursor := hr.cursor
    rw [hreached] at hcursor
    constructor
    · intro id entry hentry
      obtain ⟨log, hlog, challenge, hopens, hblock, hid, hrecords⟩ := hr.consumed.1.own id entry hentry
      refine ⟨challenge, hid, hrecords, ⟨log, (mem_enforcementLogs hopens).mp hlog, hopens, hblock⟩, ?_⟩
      intro other hother hbefore hresolves
      obtain ⟨i, hi⟩ := List.mem_iff_getElem?.mp ((mem_enforcementLogs hresolves).mpr hother)
      have hbelow := (hhistory.enforcement.ordered.lt_upTo_iff hi r.highest).mpr hbefore
      have hnone := hr.consumed.1.cleared i other _ (hbelow.trans_le hcursor) hi hresolves
      rw [hid, hentry] at hnone
      cases hnone
    · rintro challenge ⟨⟨log, hlog, hopens, hblock⟩, hunresolved⟩
      cases hdropped : r.dropped challenge.challengeId with
      | false => exact Or.inl (hr.consumed.1.holds hhistory hcursor hlog hopens hblock hunresolved hdropped)
      | true => exact Or.inr ⟨rfl, hr.reported _ hdropped⟩
  · intro write rewind next hstep finalized to_ log rest challenge hphase hopens id entry hentry
    obtain ⟨_, _, _, _, hsame, hnext⟩ := EnforcementScan.dispatch_eq_some hstep
    rw [hphase] at hsame
    cases hsame
    rcases hnext with ⟨_, rfl⟩ | ⟨call, hcall, hnext⟩
    · exact hentry
    · obtain rfl := Option.some.inj (hopens.symm.trans hcall)
      have hkept := @EnforcementScan.callLedger_insert_kept codec r.scan write challenge _ _ hentry
      rcases hnext with ⟨_, rfl⟩ | rfl
      · exact hkept
      · cases rewind <;> exact hkept

end

/-! ## One challenge, replayed from an empty directory -/

/-- The opening of the sample challenge against provider 1. -/
def openedLog : Log :=
  ⟨5, .challengeOpened 7 1 [0, 5, 5, 12] 200000 (Vector.replicate 32 7) 40 1700000007⟩

def sampleScanConfig : ScanConfig := ⟨1, 1, 10⟩

def freshScan : EnforcementScan := ⟨⟨∅⟩, fun _ => none, none, 0, 10, false, .idle⟩

def freshReplay : Replay := ⟨freshScan, 0, fun _ => false, fun _ => false⟩

/-- A tick has read that block 6 is finalized. -/
def tickedScan : EnforcementScan := { freshScan with phase := .paging 6 }

/-- The page up to block 6 has been answered. -/
def pagedScan : EnforcementScan :=
  { freshScan with phase := .dispatching 6 6 [openedLog] }

/-- Its log has been dispatched, and the cursor is written. -/
def caughtUpScan : EnforcementScan :=
  { pagedScan.callLedger sampleLedgerCodec (.completes .challenges) (.insert sampleChallenge) with
    cursorFile := some (cursorText 6)
    enfCursor := 6
    phase := .paging 6 }

theorem openedLog_opens : openedLog.Opens sampleScanConfig.providerId sampleChallenge := rfl

theorem openedLog_resolves (id : Nat) : ¬openedLog.Resolves sampleScanConfig.providerId id := by
  intro hresolves
  cases hresolves

theorem openedHistory : FinalizedHistory sampleScanConfig [openedLog] where
  ordered := List.pairwise_singleton _ _
  deployed log hmem := by
    rw [List.mem_singleton.mp hmem]
    decide
  openedOnce := List.pairwise_singleton _ _
  resolvedLater := List.pairwise_singleton _ _

theorem freshReplay_starts : StartsPass sampleScanConfig sampleLedgerCodec [openedLog] freshReplay where
  phase := Or.inl rfl
  cursor := rfl
  file value hvalue := (Except.ok.inj hvalue).symm.le
  own := by
    have hnone : ∀ (id : Nat) (entry : OpenChallenge), (∅ : Entries)[id]? ≠ some entry := by
      intro id entry hentry
      rw [ExtTreeMap.getElem?_empty] at hentry
      cases hentry
    refine ⟨fun id entry hentry => absurd hentry (hnone id entry), ?_⟩
    intro found hfound id entry hentry
    obtain rfl := Except.ok.inj hfound
    exact absurd hentry (hnone id entry)
  dropped _ := rfl

theorem insert_sample_changed : (LedgerCall.insert sampleChallenge).changed (∅ : Entries) =
    some sampleEntries := by
  rw [LedgerCall.changed, if_neg (by simp)]
  rfl

theorem sampleEntries_readsBack : sampleLedgerCodec.ReadsBack sampleEntries := if_pos rfl

theorem caughtUpScan_run : Relation.ReflTransGen
    (ReplayStep sampleScanConfig sampleLedgerCodec [openedLog]) freshReplay
    { freshReplay with scan := caughtUpScan, highest := 6 } := by
  have hreturns : (pagedScan.ledger.call sampleLedgerCodec (.completes .challenges) pagedScan.disk
      (.insert sampleChallenge)).1 = .ok () := by
    rw [show pagedScan.ledger = ⟨∅⟩ from rfl, Ledger.call_changed insert_sample_changed]
    rfl
  have hdisk : Ledger.open sampleLedgerCodec (pagedScan.callLedger sampleLedgerCodec
      (.completes .challenges) (.insert sampleChallenge)).disk = .ok ⟨sampleEntries⟩ := by
    refine Intake.open_replaced ?_ sampleEntries_readsBack
    unfold EnforcementScan.callLedger
    rw [show pagedScan.ledger = ⟨∅⟩ from rfl, Ledger.call_changed insert_sample_changed]
    rfl
  have hrecorded : (LedgerCall.insert sampleChallenge).Recorded sampleEntries := by
    rw [LedgerCall.Recorded, sampleEntries, getElem?_insert_entry]
    exact Option.some_ne_none sampleChallenge
  have htick : freshScan.step sampleScanConfig sampleLedgerCodec (.tick 6 10 .completes) =
      some tickedScan := rfl
  have hpage : tickedScan.step sampleScanConfig sampleLedgerCodec (.page (.ok [openedLog])) =
      some pagedScan := rfl
  have hdispatch := @EnforcementScan.dispatch_returned sampleScanConfig sampleLedgerCodec _ _
    .completes _ _ openedLog [] _ (show pagedScan.phase = .dispatching 6 6 [openedLog] from rfl)
    openedLog_opens hreturns
  have hdone : { pagedScan.callLedger sampleLedgerCodec (.completes .challenges)
        (.insert sampleChallenge) with phase := .dispatching 6 6 [] }.step sampleScanConfig
      sampleLedgerCodec (.pageDone .completes) = some caughtUpScan := rfl
  refine .tail (.tail (.tail (.tail .refl (.tick htick)) (.page ?_ hpage)) (.dispatch ?_ hdispatch))
    (.quiet (show ScanInput.IsQuiet (.pageDone .completes) from trivial) hdone)
  · intro finalized logs hphase hanswer
    cases hphase
    cases hanswer
    rfl
  · intro finalized to_ log rest call hphase hcall
    cases hphase
    obtain rfl := Option.some.inj (openedLog_opens.symm.trans hcall)
    refine ⟨?_, fun _ => ⟨_, hdisk, hrecorded⟩⟩
    intro entries hchanged
    obtain rfl := Option.some.inj (insert_sample_changed.symm.trans hchanged)
    exact sampleEntries_readsBack

theorem enforcement_replay_converges_caughtUp :
    Holds caughtUpScan.ledger.entries 7 sampleChallenge := by
  have hconverges := enforcement_replay_converges openedHistory freshReplay_starts caughtUpScan_run
  have hopen : OpenAt sampleScanConfig [openedLog] 6 sampleChallenge := by
    refine ⟨⟨openedLog, List.mem_singleton_self _, openedLog_opens, by decide⟩, ?_⟩
    intro log hmem _
    rw [List.mem_singleton.mp hmem]
    exact openedLog_resolves _
  rcases (hconverges.2.1 rfl).2 sampleChallenge hopen with hholds | ⟨hdropped, _⟩
  · exact hholds
  · cases hdropped

end Blobsitter.Daemon
