import Blobsitter.Daemon.Following

/-!
# Recovering a declaration that was missed

A declaration whose log was left out of a page is behind the cursor.  What brings it back is
a later declaration: its nonce shows the gap, and the scan starts over.  A tick is followed
along the history by the number of declarations in the store and the number behind the
cursor.
-/

namespace Blobsitter.Daemon

open Library
open Reference (Chunk Hash Mmr)
open Contract (declarations leafCountAfter firstPeaks DeclaredRecord Reachable Deployment World
  Storage)
open Relation (ReflTransGen)

section

variable {keccak256 : ByteString → Hash} {versionedHash : RawBlob → Except VerifyError Hash}
variable {stream : Nat → Chunk} {published : Nat → List RawBlob} {config : ScanConfig}
variable {codec : Codec Frontier} {ds : List (Nat × DeclaredRecord)} {history : List Log}
variable {s next : DeclaredScan} {store : Storage} {k finalized : Nat}

/-- All that a step of such a tick can be. -/
theorem DeclaredScan.HealthyStep.cases
    (hstep : s.HealthyStep keccak256 versionedHash published config codec history next) :
    (∃ finalized, s.phase = .paging finalized ∧ s.cursor < finalized ∧
      next = { s with
        currentPage := grownPage config.logPage s.currentPage
        phase := .dispatching finalized (s.pageEnd finalized)
          (between Log.block history s.cursor (s.pageEnd finalized)) }) ∨
    (∃ finalized to_ log rest timestamp event sources,
      s.phase = .dispatching finalized to_ (log :: rest) ∧
      log.declaredEvent timestamp = some event ∧
      Supplies versionedHash sources event (published event.nonce) ∧
      next = s.dispatchDeclared keccak256 versionedHash config codec finalized to_ rest event sources
        .completes) ∨
    (∃ finalized to_, s.phase = .dispatching finalized to_ [] ∧
      next = s.setCursor .completes to_ (.paging finalized)) ∨
    (∃ finalized ≤ s.cursor, s.phase = .paging finalized ∧ next = { s with phase := .idle }) := by
  obtain ⟨input, hhealthy, hstep⟩ := hstep
  cases hhealthy with
  | page hphase =>
      obtain ⟨bound, hpaging, hmore, ⟨logs, hlogs, rfl⟩ | ⟨⟨_, herror⟩, _⟩⟩ :=
        DeclaredScan.page_eq_some hstep
      · obtain rfl := Except.ok.inj hlogs
        obtain rfl := ScanPhase.paging.inj (hphase.symm.trans hpaging)
        exact Or.inl ⟨_, hphase, hmore, rfl⟩
      · cases herror
  | dispatch hphase hevent hserved =>
      obtain ⟨bound, to_, log, rest, event, hphase', hevent', rfl⟩ :=
        DeclaredScan.dispatch_eq_some hstep
      obtain ⟨rfl, rfl, hcons⟩ := ScanPhase.dispatching.inj (hphase.symm.trans hphase')
      obtain ⟨rfl, rfl⟩ := List.cons.inj hcons
      obtain rfl := Option.some.inj (hevent.symm.trans hevent')
      exact Or.inr (Or.inl ⟨_, _, _, _, _, _, _, hphase, hevent, hserved, rfl⟩)
  | pageDone =>
      obtain ⟨bound, to_, hphase, rfl⟩ := DeclaredScan.pageDone_eq_some hstep
      exact Or.inr (Or.inr (Or.inl ⟨bound, to_, hphase, rfl⟩))
  | done =>
      obtain ⟨bound, hdone, hphase, rfl⟩ := DeclaredScan.done_eq_some hstep
      exact Or.inr (Or.inr (Or.inr ⟨bound, hdone, hphase, rfl⟩))

/-- The next log of a page, read. -/
theorem DeclaredHistory.read (hhistory : DeclaredHistory config ds history) {p n timestamp : Nat}
    {log : Log} {rest : List Log} {event : DeclaredEvent}
    (hlogs : log :: rest = (history.take n).drop p)
    (hevent : log.declaredEvent timestamp = some event) :
    p < n ∧ rest = (history.take n).drop (p + 1) ∧ ∃ d, ds[p]? = some d ∧ Announces event d.2 := by
  obtain ⟨hp, hlog, hrest⟩ := segment_eq_cons hlogs.symm
  obtain ⟨d, hd, hrecord⟩ := hhistory.record hlog
  exact ⟨hp, hrest.symm, d, hd, Log.announces hrecord hevent⟩

/-- The store has whatever is behind the cursor, and a page at hand begins no later than the
declaration that is owed. -/
def CaughtUp (keccak256 : ByteString → Hash) (stream : Nat → Chunk) (codec : Codec Frontier)
    (ds : List (Nat × DeclaredRecord)) (history : List Log) (finalized : Nat) (s : DeclaredScan) :
    Prop :=
  ∃ k, Mirroring keccak256 stream codec ds k s.ingestor ∧ upTo Log.block history s.cursor ≤ k ∧
    match s.phase with
    | .idle => finalized ≤ s.cursor
    | .paging bound => bound = finalized
    | .dispatching bound to_ logs => bound = finalized ∧
        ∃ p ≤ k, logs = (history.take (upTo Log.block history to_)).drop p
    | .dead => False

/-- The store has only the first `k`, and the cursor is past the first `position`; a page at
hand is still whole, and a scan that has ended was led back by a log or met none. -/
def BehindGap (keccak256 : ByteString → Hash) (stream : Nat → Chunk) (config : ScanConfig)
    (codec : Codec Frontier) (ds : List (Nat × DeclaredRecord)) (history : List Log)
    (k position finalized : Nat) (s : DeclaredScan) : Prop :=
  Mirroring keccak256 stream codec ds k s.ingestor ∧
    match s.phase with
    | .idle => s.cursor = config.scanFloor ∧ position < upTo Log.block history finalized ∨
        upTo Log.block history s.cursor = position ∧ finalized ≤ s.cursor
    | .paging bound => bound = finalized ∧ upTo Log.block history s.cursor = position
    | .dispatching bound to_ logs => bound = finalized ∧ to_ ≤ finalized ∧
        position ≤ upTo Log.block history to_ ∧
        logs = (history.take (upTo Log.block history to_)).drop position
    | .dead => False

section

variable (keccak256 versionedHash stream published config codec ds history finalized)

/-- One of the two ways through a tick. -/
def Tracked (s : DeclaredScan) : Prop :=
  CaughtUp keccak256 stream codec ds history finalized s ∨
    ∃ k position, k < position ∧
      BehindGap keccak256 stream config codec ds history k position finalized s

/-- Some sources have the blobs of every declaration. -/
def Served : Prop :=
  ∀ (j : Nat) d event, ds[j]? = some d → Announces event d.2 →
    ∃ sources, Supplies versionedHash sources event (published j)

end

namespace Tracked

theorem alive (htracked : Tracked keccak256 stream config codec ds history finalized s) :
    s.phase ≠ .dead := by
  intro hdead
  rcases htracked with ⟨k, _, _, hphased⟩ | ⟨k, position, _, _, hphased⟩
  all_goals rwa [hdead] at hphased

theorem mirroring (htracked : Tracked keccak256 stream config codec ds history finalized s) :
    ∃ k, Mirroring keccak256 stream codec ds k s.ingestor := by
  rcases htracked with ⟨k, hmirroring, _⟩ | ⟨k, _, _, hmirroring, _⟩
  all_goals exact ⟨k, hmirroring⟩

/-- The log at the head of a page is one of the history. -/
theorem head (htracked : Tracked keccak256 stream config codec ds history finalized s)
    {bound to_ : Nat} {log : Log} {rest : List Log}
    (hphase : s.phase = .dispatching bound to_ (log :: rest)) : ∃ p : Nat, history[p]? = some log := by
  rcases htracked with ⟨k, _, _, hphased⟩ | ⟨k, position, _, _, hphased⟩
  · rw [hphase] at hphased
    obtain ⟨_, p, _, hlogs⟩ := hphased
    exact ⟨p, (segment_eq_cons hlogs.symm).2.1⟩
  · rw [hphase] at hphased
    obtain ⟨_, _, _, hlogs⟩ := hphased
    exact ⟨position, (segment_eq_cons hlogs.symm).2.1⟩

end Tracked

theorem DeclaredScan.HealthyTick.idle
    (htick : s.HealthyTick keccak256 versionedHash published config codec history finalized next) :
    next.phase = .idle := by
  obtain ⟨_, _, _, _, hidle⟩ := htick
  exact hidle

/-- With all the declarations the store has the contract's dataset. -/
theorem Mirroring.agrees {ingestor : Ingestor}
    (hmirroring : Mirroring keccak256 stream codec ds ds.length ingestor)
    (hdeclared : Contract.Declared keccak256 store ds)
    (hcanonical : CanonicalLog keccak256 versionedHash stream published ds) :
    ingestor.store.Agrees keccak256 store := by
  have hfrontier := hmirroring.frontier
  rw [mirrored, List.take_length, hdeclared.latest] at hfrontier
  have hreplay := replayDeclarations_take hdeclared hcanonical (Nat.le_refl ds.length)
  rw [List.take_length, hdeclared.replayed, hdeclared.latest] at hreplay
  obtain ⟨hpeaks, _⟩ := Prod.mk.inj (Except.ok.inj hreplay)
  have hlen : (Contract.chunksFrom stream 0 store.leafCount).length = store.leafCount :=
    Contract.chunksFrom_length _ _ _
  obtain ⟨mmr, hmmr, hcommits⟩ := Mmr.fromState_streamPeaks keccak256
    (show (Contract.chunksFrom stream 0 store.leafCount).length < 2 ^ 64 by
      rw [hlen]; exact hdeclared.fits)
  rw [hlen, streamPeaks_chunksFrom] at hmmr
  refine ⟨by rw [hfrontier, hdeclared.nonce], mmr, ?_, ?_, ?_⟩
  · rw [Store.mmr, hfrontier, hmmr]
    rfl
  · rw [hcommits.leafCount_eq, hlen]
  · rw [Contract.MMR.bagRoot_eq, Mmr.root, hcommits.leafCount_eq,
      hcommits.peakList_eq keccak256 (by rw [hlen]; exact hdeclared.fits), hlen,
      streamPeaks_chunksFrom, hpeaks]

theorem Mirroring.agrees_iff {ingestor : Ingestor}
    (hmirroring : Mirroring keccak256 stream codec ds k ingestor)
    (hdeclared : Contract.Declared keccak256 store ds)
    (hcanonical : CanonicalLog keccak256 versionedHash stream published ds) :
    ingestor.store.Agrees keccak256 store ↔ k = ds.length := by
  constructor
  · rintro ⟨hnonce, _⟩
    rw [← hmirroring.nonce_eq, hnonce, hdeclared.nonce]
  · rintro rfl
    exact hmirroring.agrees hdeclared hcanonical

section

variable (hdeclared : Contract.Declared keccak256 store ds)
variable (hcanonical : CanonicalLog keccak256 versionedHash stream published ds)
variable (hhistory : DeclaredHistory config ds history)

include hdeclared hhistory

/-! ## A gap behind the cursor -/

theorem BehindGap.step {position : Nat}
    (hgap : BehindGap keccak256 stream config codec ds history k position finalized s)
    (hmissing : k < position)
    (hstep : s.HealthyStep keccak256 versionedHash published config codec history next) :
    BehindGap keccak256 stream config codec ds history k position finalized next := by
  obtain ⟨hmirroring, hphased⟩ := hgap
  rcases hstep.cases with ⟨bound, hphase, hmore, rfl⟩ |
    ⟨bound, to_, log, rest, timestamp, event, sources, hphase, hevent, _, rfl⟩ |
    ⟨bound, to_, hphase, rfl⟩ | ⟨bound, hdone, hphase, rfl⟩
  · rw [hphase] at hphased
    obtain ⟨rfl, rfl⟩ := hphased
    have hend : s.cursor ≤ s.pageEnd bound := Nat.le_min.mpr ⟨hmore.le, Nat.le_add_right _ _⟩
    exact ⟨hmirroring, rfl, Nat.min_le_left _ _, upTo_mono _ _ hend,
      hhistory.ordered.between_eq _ _⟩
  · rw [hphase] at hphased
    obtain ⟨rfl, hto, _, hlogs⟩ := hphased
    obtain ⟨hbelow, _, d, hd, hannounces⟩ := hhistory.read hlogs hevent
    -- the first log past the cursor is already past the declaration that is owed
    have hcall := @Mirroring.call_gap keccak256 versionedHash _ _ _ _ _ ⟨event, sources⟩ _ _ _
      hmirroring hdeclared hd hannounces hmissing
    rw [DeclaredScan.dispatchDeclared_gap hcall]
    exact ⟨hmirroring, Or.inl ⟨rfl, Nat.lt_of_lt_of_le hbelow (upTo_mono _ _ hto)⟩⟩
  · rw [hphase] at hphased
    obtain ⟨hbound, _, hposition, hlogs⟩ := hphased
    have hend := segment_eq_nil (upTo_le_length Log.block history to_) hlogs.symm
    exact ⟨hmirroring, hbound, Nat.le_antisymm hend hposition⟩
  · rw [hphase] at hphased
    obtain ⟨rfl, hposition⟩ := hphased
    exact ⟨hmirroring, Or.inr ⟨hposition, hdone⟩⟩

theorem BehindGap.run {position : Nat}
    (hgap : BehindGap keccak256 stream config codec ds history k position finalized s)
    (hmissing : k < position)
    (hrun : ReflTransGen (DeclaredScan.HealthyStep keccak256 versionedHash published config codec
      history) s next) :
    BehindGap keccak256 stream config codec ds history k position finalized next := by
  induction hrun with
  | refl => exact hgap
  | tail _ hstep ih => exact ih.step hdeclared hhistory hmissing hstep

/-- A tick with a gap behind the cursor ingests nothing.  The scan starts over if there is a
log up to the finalized block, and else goes on past it. -/
theorem BehindGap.tick (hmirroring : Mirroring keccak256 stream codec ds k s.ingestor)
    (hmissing : k < upTo Log.block history s.cursor)
    (htick : s.HealthyTick keccak256 versionedHash published config codec history finalized next) :
    Mirroring keccak256 stream codec ds k next.ingestor ∧
      (next.cursor = config.scanFloor ∧
          upTo Log.block history s.cursor < upTo Log.block history finalized ∨
        upTo Log.block history next.cursor = upTo Log.block history s.cursor ∧
          finalized ≤ next.cursor) := by
  obtain ⟨currentPage, paged, hstep, hrun, hidle⟩ := htick
  obtain ⟨_, rfl⟩ := DeclaredScan.tick_eq_some hstep
  have hstart : BehindGap keccak256 stream config codec ds history k
      (upTo Log.block history s.cursor) finalized
      { s with currentPage := currentPage, phase := .paging finalized } :=
    ⟨hmirroring, rfl, rfl⟩
  obtain ⟨hnext, hphased⟩ := hstart.run hdeclared hhistory hmissing hrun
  rw [hidle] at hphased
  exact ⟨hnext, hphased⟩

include hcanonical

theorem CaughtUp.step (hcaught : CaughtUp keccak256 stream codec ds history finalized s)
    (hstep : s.HealthyStep keccak256 versionedHash published config codec history next) :
    CaughtUp keccak256 stream codec ds history finalized next := by
  obtain ⟨k, hmirroring, hbehind, hphased⟩ := hcaught
  rcases hstep.cases with ⟨bound, hphase, _, rfl⟩ |
    ⟨bound, to_, log, rest, timestamp, event, sources, hphase, hevent, hserved, rfl⟩ |
    ⟨bound, to_, hphase, rfl⟩ | ⟨bound, hdone, hphase, rfl⟩
  · rw [hphase] at hphased
    exact ⟨k, hmirroring, hbehind, hphased, _, hbehind, hhistory.ordered.between_eq _ _⟩
  · rw [hphase] at hphased
    obtain ⟨hbound, p, hp, hlogs⟩ := hphased
    obtain ⟨_, hrest, d, hd, hannounces⟩ := hhistory.read hlogs hevent
    rw [hannounces.nonce, hdeclared.nonces p d hd] at hserved
    rcases Nat.lt_or_eq_of_le hp with hlt | heq
    · have hcall := @Mirroring.call_again keccak256 versionedHash _ _ _ _ _ ⟨event, sources⟩ _ _ _
        hmirroring hdeclared hd hannounces hlt
      rw [DeclaredScan.dispatchDeclared_ok (congrArg Prod.fst hcall), hcall]
      exact ⟨k, hmirroring, hbehind, hbound, p + 1, hlt, hrest⟩
    · obtain ⟨hcall, hnext⟩ := @Mirroring.call_next keccak256 versionedHash _ _ _ _ _ _
        ⟨event, sources⟩ _ _ _ hmirroring hdeclared hd hannounces hcanonical heq hserved
      rw [DeclaredScan.dispatchDeclared_ok hcall]
      exact ⟨k + 1, hnext, Nat.le_succ_of_le hbehind, hbound, p + 1, Nat.succ_le_succ hp, hrest⟩
  · rw [hphase] at hphased
    obtain ⟨hbound, p, hp, hlogs⟩ := hphased
    have hend := segment_eq_nil (upTo_le_length Log.block history to_) hlogs.symm
    exact ⟨k, hmirroring, hend.trans hp, hbound⟩
  · rw [hphase] at hphased
    obtain rfl := hphased
    exact ⟨k, hmirroring, hbehind, hdone⟩

theorem CaughtUp.run (hcaught : CaughtUp keccak256 stream codec ds history finalized s)
    (hrun : ReflTransGen (DeclaredScan.HealthyStep keccak256 versionedHash published config codec
      history) s next) : CaughtUp keccak256 stream codec ds history finalized next := by
  induction hrun with
  | refl => exact hcaught
  | tail _ hstep ih => exact ih.step hdeclared hcanonical hhistory hstep

/-- A tick that finds nothing missing reaches its finalized block with nothing missing. -/
theorem CaughtUp.tick (hmirroring : Mirroring keccak256 stream codec ds k s.ingestor)
    (hbehind : upTo Log.block history s.cursor ≤ k)
    (htick : s.HealthyTick keccak256 versionedHash published config codec history finalized next) :
    ∃ k', Mirroring keccak256 stream codec ds k' next.ingestor ∧
      upTo Log.block history next.cursor ≤ k' ∧ finalized ≤ next.cursor := by
  obtain ⟨currentPage, paged, hstep, hrun, hidle⟩ := htick
  obtain ⟨_, rfl⟩ := DeclaredScan.tick_eq_some hstep
  have hstart : CaughtUp keccak256 stream codec ds history finalized
      { s with currentPage := currentPage, phase := .paging finalized } :=
    ⟨k, hmirroring, hbehind, rfl⟩
  obtain ⟨k', hnext, hcursor, hphased⟩ := hstart.run hdeclared hcanonical hhistory hrun
  rw [hidle] at hphased
  exact ⟨k', hnext, hcursor, hphased⟩

namespace Tracked

theorem step (htracked : Tracked keccak256 stream config codec ds history finalized s)
    (hstep : s.HealthyStep keccak256 versionedHash published config codec history next) :
    Tracked keccak256 stream config codec ds history finalized next := by
  rcases htracked with hcaught | ⟨k, position, hmissing, hgap⟩
  · exact Or.inl (hcaught.step hdeclared hcanonical hhistory hstep)
  · exact Or.inr ⟨k, position, hmissing, hgap.step hdeclared hhistory hmissing hstep⟩

/-- The logs of a page are dispatched to the last, or the scan starts over. -/
theorem dispatches (hserved : Served versionedHash published ds) {bound to_ : Nat} {logs : List Log}
    (htracked : Tracked keccak256 stream config codec ds history finalized s)
    (hphase : s.phase = .dispatching bound to_ logs) :
    ∃ next, ReflTransGen (DeclaredScan.HealthyStep keccak256 versionedHash published config codec
        history) s next ∧
      Tracked keccak256 stream config codec ds history finalized next ∧
      (next.phase = .idle ∨ next.phase = .paging bound ∧ next.cursor = to_ ∧
        next.currentPage = s.currentPage) := by
  induction logs generalizing s with
  | nil =>
      have hdone : s.HealthyStep keccak256 versionedHash published config codec history
          (s.setCursor .completes to_ (.paging bound)) :=
        ⟨_, .pageDone, DeclaredScan.step_pageDone hphase⟩
      exact ⟨_, .single hdone, htracked.step hdeclared hcanonical hhistory hdone,
        Or.inr ⟨rfl, rfl, rfl⟩⟩
  | cons log rest ih =>
      obtain ⟨p, hlog⟩ := htracked.head hphase
      obtain ⟨d, hd, hrecord⟩ := hhistory.record hlog
      have hfits := (hdeclared.leafCountAfter_le (p + 1)).trans_lt hdeclared.fits
      rw [leafCountAfter_take_succ hd] at hfits
      obtain ⟨event, hevent⟩ := Log.declaredEvent_some hrecord hfits 0
      have hannounces := Log.announces hrecord hevent
      obtain ⟨sources, hsupplies⟩ := hserved p d event hd hannounces
      rw [← hdeclared.nonces p d hd, ← hannounces.nonce] at hsupplies
      have hdispatch : s.HealthyStep keccak256 versionedHash published config codec history _ :=
        ⟨_, .dispatch hphase hevent hsupplies, DeclaredScan.step_dispatch hphase hevent⟩
      have htracked' := htracked.step hdeclared hcanonical hhistory hdispatch
      rcases DeclaredScan.dispatchDeclared_phase with hrest | hidle | hdead
      · obtain ⟨next, hrun, hnext, hend⟩ := ih htracked' hrest
        rw [DeclaredScan.dispatchDeclared_currentPage] at hend
        exact ⟨next, .head hdispatch hrun, hnext, hend⟩
      · exact ⟨_, .single hdispatch, htracked', Or.inl hidle⟩
      · exact absurd hdead htracked'.alive

/-- Every page moves the cursor, so the pages come to an end. -/
theorem pages (hserved : Served versionedHash published ds) (hlogPage : 0 < config.logPage)
    {bound : Nat}
    (htracked : Tracked keccak256 stream config codec ds history finalized s)
    (hphase : s.phase = .paging bound) (hpage : 0 < s.currentPage) :
    ∃ next, ReflTransGen (DeclaredScan.HealthyStep keccak256 versionedHash published config codec
      history) s next ∧ next.phase = .idle ∧
      Tracked keccak256 stream config codec ds history finalized next := by
  induction hremaining : bound - s.cursor using Nat.strongRecOn generalizing s with
  | ind remaining ih =>
      rcases Nat.lt_or_ge s.cursor bound with hmore | hdone
      · have hasked : s.HealthyStep keccak256 versionedHash published config codec history _ :=
          ⟨_, .page hphase, DeclaredScan.step_page hphase hmore⟩
        obtain ⟨reached, hrun, htracked', hidle | ⟨hpaging, hcursor, hkept⟩⟩ :=
          dispatches hdeclared hcanonical hhistory hserved
            (htracked.step hdeclared hcanonical hhistory hasked) rfl
        · exact ⟨reached, .head hasked hrun, hidle, htracked'⟩
        · have hgrown : 0 < reached.currentPage := by
            rw [hkept]
            exact Nat.lt_min.mpr ⟨Nat.mul_pos hpage Nat.two_pos, hlogPage⟩
          have hcloser : bound - reached.cursor < remaining := by
            rw [hcursor, DeclaredScan.pageEnd]
            omega
          obtain ⟨next, hlast, hnext⟩ := ih _ hcloser htracked' hpaging hgrown rfl
          exact ⟨next, (ReflTransGen.head hasked hrun).trans hlast, hnext⟩
      · have hlast : s.HealthyStep keccak256 versionedHash published config codec history _ :=
          ⟨_, .done, DeclaredScan.step_done hphase hdone⟩
        exact ⟨_, .single hlast, rfl, htracked.step hdeclared hcanonical hhistory hlast⟩

end Tracked

/-- While nothing fails a tick comes to its end, with the store at some of the declarations. -/
theorem DeclaredScan.HealthyTick.ends
    (hmirroring : Mirroring keccak256 stream codec ds k s.ingestor) (hidle : s.phase = .idle)
    (hserved : Served versionedHash published ds) (hlogPage : 0 < config.logPage) (finalized : Nat) :
    ∃ next, s.HealthyTick keccak256 versionedHash published config codec history finalized next ∧
      ∃ k, Mirroring keccak256 stream codec ds k next.ingestor := by
  have htracked : Tracked keccak256 stream config codec ds history finalized
      { s with currentPage := config.logPage, phase := .paging finalized } := by
    rcases Nat.lt_or_ge k (upTo Log.block history s.cursor) with hmissing | hbehind
    · exact Or.inr ⟨k, _, hmissing, hmirroring, rfl, rfl⟩
    · exact Or.inl ⟨k, hmirroring, hbehind, rfl⟩
  obtain ⟨next, hrun, hend, hnext⟩ := htracked.pages hdeclared hcanonical hhistory hserved hlogPage
    rfl hlogPage
  exact ⟨next, ⟨config.logPage, _, DeclaredScan.step_tick hidle, hrun, hend⟩, hnext.mirroring⟩

/-! ## Three ticks -/

/-- A tick that finds nothing missing and reaches the end of the history has all. -/
theorem CaughtUp.tick_agrees (hmirroring : Mirroring keccak256 stream codec ds k s.ingestor)
    (hbehind : upTo Log.block history s.cursor ≤ k)
    (hall : ∀ log ∈ history, log.block ≤ finalized)
    (htick : s.HealthyTick keccak256 versionedHash published config codec history finalized next) :
    next.ingestor.store.Agrees keccak256 store := by
  obtain ⟨k', hnext, hcursor, hreached⟩ :=
    CaughtUp.tick hdeclared hcanonical hhistory hmirroring hbehind htick
  have hend := (upTo_mono Log.block history hreached).trans hcursor
  rw [upTo_of_all hall, hhistory.length_eq] at hend
  exact (hnext.agrees_iff hdeclared hcanonical).mpr (Nat.le_antisymm hnext.le hend)

/-- A tick with a gap behind the cursor does not end with all. -/
theorem BehindGap.tick_not_agrees (hmirroring : Mirroring keccak256 stream codec ds k s.ingestor)
    (hmissing : k < upTo Log.block history s.cursor)
    (htick : s.HealthyTick keccak256 versionedHash published config codec history finalized next) :
    ¬next.ingestor.store.Agrees keccak256 store := by
  obtain ⟨hnext, _⟩ := BehindGap.tick hdeclared hhistory hmirroring hmissing htick
  rw [hnext.agrees_iff hdeclared hcanonical]
  have hle := upTo_le_length Log.block history s.cursor
  rw [hhistory.length_eq] at hle
  omega

end

/-- After any fault history three ticks in which nothing fails bring the store to the
contract's state exactly when the store had the declarations up to its cursor, or a later
declaration is finalized by the second of them. -/
theorem missed_declaration_recovered {dep : Deployment} {world : World}
    (hreach : Reachable keccak256 dep world)
    (hcanonical : CanonicalLog keccak256 versionedHash stream published
      (declarations world.state.log))
    (hreads : ReadsFrontiers keccak256 stream codec (declarations world.state.log))
    (hhistory : DeclaredHistory config (declarations world.state.log) history)
    {start first second third : DeclaredScan} {firstBlock secondBlock thirdBlock : Nat}
    (hstarts : start.Starts config codec)
    (hrun : ReflTransGen (DeclaredScan.FaultStep keccak256 versionedHash config codec history) start
      s)
    (hfirst : s.HealthyTick keccak256 versionedHash published config codec history firstBlock first)
    (hsecond : first.HealthyTick keccak256 versionedHash published config codec history secondBlock
      second)
    (hthird : second.HealthyTick keccak256 versionedHash published config codec history thirdBlock
      third)
    (hmore : firstBlock ≤ secondBlock) (hall : ∀ log ∈ history, log.block ≤ thirdBlock) :
    third.ingestor.store.Agrees keccak256 world.state.store ↔
      (∀ (i : Nat) log, history[i]? = some log → log.block ≤ s.cursor →
        i < s.ingestor.store.frontier.nonce) ∨
      ∃ log ∈ history, s.cursor < log.block ∧ log.block ≤ secondBlock := by
  have hdeclared := hreach.published.declared
  have hfollows := (Follows.starts hstarts hreads).run hdeclared hcanonical hreads hhistory hrun
  have halive : s.phase ≠ .dead := by
    obtain ⟨_, _, hstep, _⟩ := hfirst
    rw [(DeclaredScan.tick_eq_some hstep).1]
    simp
  obtain ⟨k, hmirroring⟩ := hfollows.mirroring halive
  rw [hmirroring.nonce_eq, ← hhistory.ordered.upTo_le_iff, ← hhistory.ordered.upTo_lt_iff]
  -- a scan that starts over has nothing missing behind its cursor
  have hrestarted : upTo Log.block history config.scanFloor ≤ k := by
    rw [hhistory.upTo_scanFloor]
    exact Nat.zero_le k
  rcases Nat.lt_or_ge k (upTo Log.block history s.cursor) with hmissing | hbehind
  · obtain ⟨hmirroring₁, ⟨hfloor, hlog⟩ | ⟨hcursor, hreached⟩⟩ :=
      BehindGap.tick hdeclared hhistory hmirroring hmissing hfirst
    · rw [← hfloor] at hrestarted
      obtain ⟨k', hmirroring₂, hbehind₂, _⟩ :=
        CaughtUp.tick hdeclared hcanonical hhistory hmirroring₁ hrestarted hsecond
      have hagrees := CaughtUp.tick_agrees hdeclared hcanonical hhistory hmirroring₂ hbehind₂ hall
        hthird
      exact iff_of_true hagrees
        (Or.inr (Nat.lt_of_lt_of_le hlog (upTo_mono _ _ hmore)))
    · have hmissing₁ := hmissing
      rw [← hcursor] at hmissing₁
      obtain ⟨hmirroring₂, ⟨hfloor, hlog⟩ | ⟨hcursor₂, hreached₂⟩⟩ :=
        BehindGap.tick hdeclared hhistory hmirroring₁ hmissing₁ hsecond
      · rw [← hfloor] at hrestarted
        rw [hcursor] at hlog
        have hagrees := CaughtUp.tick_agrees hdeclared hcanonical hhistory hmirroring₂ hrestarted
          hall hthird
        exact iff_of_true hagrees (Or.inr hlog)
      · have hmissing₂ := hmissing₁
        rw [← hcursor₂] at hmissing₂
        have hdiffers := BehindGap.tick_not_agrees hdeclared hcanonical hhistory hmirroring₂
          hmissing₂ hthird
        refine iff_of_false hdiffers ?_
        rintro (hle | hlt)
        · exact absurd hle (Nat.not_le_of_lt hmissing)
        · have hend := upTo_mono Log.block history hreached₂
          omega
  · obtain ⟨k₁, hmirroring₁, hbehind₁, _⟩ :=
      CaughtUp.tick hdeclared hcanonical hhistory hmirroring hbehind hfirst
    obtain ⟨k₂, hmirroring₂, hbehind₂, _⟩ :=
      CaughtUp.tick hdeclared hcanonical hhistory hmirroring₁ hbehind₁ hsecond
    exact iff_of_true
      (CaughtUp.tick_agrees hdeclared hcanonical hhistory hmirroring₂ hbehind₂ hall hthird)
      (Or.inl hbehind)

end

def declaredLog : Log :=
  ⟨5, .declared 0 1 [declaredHash] [Reference.leaf Keccak.keccak256 (Contract.zeroStream 0)]
    Contract.zeroHash Contract.zeroAddress⟩

def followerConfig : ScanConfig := ⟨1, 1, 10⟩

/-- The follower with an empty store that has scanned up to a block. -/
def emptyFollower (cursorFile : Option (List Char)) (cursor : Nat) : DeclaredScan :=
  ⟨⟨freshStore, freshDisk⟩, cursorFile, cursor, 10, .idle⟩

theorem freshDisk_opens : Store.open sampleCodec freshDisk = .ok (freshStore, freshDisk) :=
  Store.open_eq_ok.mpr ⟨none, rfl, rfl, rfl, fun _ => rfl, Nat.le_refl 0,
    (Function.update_eq_self DataFile.chunks freshDisk).symm⟩

theorem emptyFollower_starts : (emptyFollower none 0).Starts followerConfig sampleCodec :=
  ⟨freshDisk, freshStore, freshDisk, rfl, rfl, freshDisk_opens, rfl⟩

theorem declaredLog_history : DeclaredHistory followerConfig
    (declarations Contract.declaredWorld.state.log) [declaredLog] := by
  rw [declaredWorld_declarations]
  refine ⟨List.pairwise_singleton _ _, ?_, .cons rfl .nil⟩
  intro log hmem
  obtain rfl := List.mem_singleton.mp hmem
  decide

theorem declaredWorld_reads : ReadsFrontiers Keccak.keccak256 Contract.zeroStream sampleCodec
    (declarations Contract.declaredWorld.state.log) := by
  rw [declaredWorld_declarations]
  intro k hpos hle
  obtain rfl : k = 1 := Nat.le_antisymm hle hpos
  rw [mirrored, ← streamPeaks_chunksFrom]
  exact if_pos rfl

theorem declaredWorld_served : Served declaredVersionedHash (fun _ => [zeroBlob])
    (declarations Contract.declaredWorld.state.log) := by
  rw [declaredWorld_declarations]
  intro j d event hd hannounces
  rw [List.getElem?_singleton] at hd
  split at hd
  · obtain rfl := Option.some.inj hd
    exact ⟨_, zeroSource_supplies hannounces.blobVersionedHashes⟩
  · cases hd

section

variable {file : Option (List Char)} {cursor finalized : Nat}

/-- A tick whose page leaves the log out moves the cursor all the same. -/
theorem emptyFollower_omits (hmore : cursor < finalized) (hpage : finalized ≤ cursor + 10) :
    ReflTransGen (DeclaredScan.FaultStep Keccak.keccak256 declaredVersionedHash followerConfig
        sampleCodec [declaredLog]) (emptyFollower file cursor)
      (emptyFollower (some (cursorText finalized)) finalized) := by
  have hend : (emptyFollower file cursor).pageEnd finalized = finalized := Nat.min_eq_left hpage
  refine .head ⟨.tick finalized 10, trivial, DeclaredScan.step_tick rfl⟩ ?_
  refine .head ⟨.page (.ok []), fun _ _ => List.nil_sublist _, DeclaredScan.step_page rfl hmore⟩ ?_
  refine .head ⟨.pageDone .completes, trivial, DeclaredScan.step_pageDone rfl⟩ ?_
  refine .single ⟨.done, trivial, ?_⟩
  rw [DeclaredScan.step_done rfl (Nat.le_of_eq hend.symm)]
  change some (emptyFollower (some (cursorText ((emptyFollower file cursor).pageEnd finalized)))
    ((emptyFollower file cursor).pageEnd finalized)) = _
  rw [hend]

/-- The process dies while it dispatches such a page. -/
theorem emptyFollower_restarts (hmore : cursor < finalized) (hfits : cursor < 2 ^ 64) :
    ReflTransGen (DeclaredScan.FaultStep Keccak.keccak256 declaredVersionedHash followerConfig
        sampleCodec [declaredLog]) (emptyFollower (some (cursorText cursor)) cursor)
      (emptyFollower (some (cursorText cursor)) cursor) := by
  refine .head ⟨.tick finalized 10, trivial, DeclaredScan.step_tick rfl⟩ ?_
  refine .head ⟨.page (.ok []), fun _ _ => List.nil_sublist _, DeclaredScan.step_page rfl hmore⟩ ?_
  exact .single ⟨.restart, trivial, DeclaredScan.step_restart freshDisk_opens
    (loadCursor_text hfits)⟩

end

/-- The log is left out of a page that is lost with the process, and read again. -/
theorem missed_declaration_recovered_restarted : ∃ first second third : DeclaredScan,
    (emptyFollower (some (cursorText 3)) 3).HealthyTick Keccak.keccak256 declaredVersionedHash
        (fun _ => [zeroBlob]) followerConfig sampleCodec [declaredLog] 9 first ∧
      first.HealthyTick Keccak.keccak256 declaredVersionedHash (fun _ => [zeroBlob]) followerConfig
        sampleCodec [declaredLog] 9 second ∧
      second.HealthyTick Keccak.keccak256 declaredVersionedHash (fun _ => [zeroBlob]) followerConfig
        sampleCodec [declaredLog] 9 third ∧
      third.ingestor.store.Agrees Keccak.keccak256 Contract.declaredWorld.state.store := by
  have hdeclared := Contract.declaredWorld_reachable.published.declared
  have hrun := (@emptyFollower_omits none 0 3 (by decide) (by decide)).trans
    (@emptyFollower_restarts 3 9 (by decide) (by decide))
  obtain ⟨k, hmirroring⟩ := ((Follows.starts emptyFollower_starts declaredWorld_reads).run hdeclared
    declaredWorld_canonical declaredWorld_reads declaredLog_history hrun).mirroring
      ScanPhase.noConfusion
  obtain ⟨first, hfirst, k₁, hmirroring₁⟩ := DeclaredScan.HealthyTick.ends hdeclared
    declaredWorld_canonical declaredLog_history hmirroring rfl declaredWorld_served (by decide) 9
  obtain ⟨second, hsecond, k₂, hmirroring₂⟩ := DeclaredScan.HealthyTick.ends hdeclared
    declaredWorld_canonical declaredLog_history hmirroring₁ hfirst.idle declaredWorld_served
    (by decide) 9
  obtain ⟨third, hthird, _⟩ := DeclaredScan.HealthyTick.ends hdeclared declaredWorld_canonical
    declaredLog_history hmirroring₂ hsecond.idle declaredWorld_served (by decide) 9
  refine ⟨first, second, third, hfirst, hsecond, hthird, ?_⟩
  have hall : ∀ log ∈ [declaredLog], log.block ≤ 9 := by
    intro log hmem
    obtain rfl := List.mem_singleton.mp hmem
    decide
  exact (missed_declaration_recovered Contract.declaredWorld_reachable declaredWorld_canonical
    declaredWorld_reads declaredLog_history emptyFollower_starts hrun hfirst hsecond hthird
    (Nat.le_refl 9) hall).mpr (Or.inr ⟨declaredLog, List.mem_singleton_self _, by decide,
      by decide⟩)

/-- A page leaves the only log out, and no later tick asks for it again. -/
theorem missed_declaration_lost :
    Reachable Keccak.keccak256 Contract.sampleDeployment Contract.declaredWorld ∧
      CanonicalLog Keccak.keccak256 declaredVersionedHash Contract.zeroStream (fun _ => [zeroBlob])
        (declarations Contract.declaredWorld.state.log) ∧
      ReadsFrontiers Keccak.keccak256 Contract.zeroStream sampleCodec
        (declarations Contract.declaredWorld.state.log) ∧
      DeclaredHistory followerConfig (declarations Contract.declaredWorld.state.log)
        [declaredLog] ∧
      (emptyFollower none 0).Starts followerConfig sampleCodec ∧
      ∃ lost : DeclaredScan,
        ReflTransGen (DeclaredScan.FaultStep Keccak.keccak256 declaredVersionedHash followerConfig
          sampleCodec [declaredLog]) (emptyFollower none 0) lost ∧
        lost.HealthyTick Keccak.keccak256 declaredVersionedHash (fun _ => [zeroBlob]) followerConfig
          sampleCodec [declaredLog] 9 lost ∧
        declaredLog.block ≤ 9 ∧
        ¬lost.ingestor.store.Agrees Keccak.keccak256 Contract.declaredWorld.state.store := by
  refine ⟨Contract.declaredWorld_reachable, declaredWorld_canonical, declaredWorld_reads,
    declaredLog_history, emptyFollower_starts, emptyFollower (some (cursorText 9)) 9,
    emptyFollower_omits (by decide) (by decide), ?_, by decide, ?_⟩
  · have hdone : ({ emptyFollower (some (cursorText 9)) 9 with
        phase := .paging 9 } : DeclaredScan).HealthyStep Keccak.keccak256 declaredVersionedHash
          (fun _ => [zeroBlob]) followerConfig sampleCodec [declaredLog]
          (emptyFollower (some (cursorText 9)) 9) :=
      ⟨.done, .done, DeclaredScan.step_done rfl (Nat.le_refl 9)⟩
    exact ⟨10, _, DeclaredScan.step_tick rfl, .single hdone, rfl⟩
  · rintro ⟨hnonce, _⟩
    rw [Contract.declaredWorld_reachable.published.declared.nonce, declaredWorld_declarations]
      at hnonce
    cases hnonce

end Blobsitter.Daemon
