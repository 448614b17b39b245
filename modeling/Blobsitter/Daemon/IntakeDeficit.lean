import Blobsitter.Contract.Answers
import Blobsitter.Daemon.Replay

/-!
# Detecting a challenge that was missed

Each tick compares two counts, the chain's of open challenges and the ledger's of entries
without a response.  A challenge that is missing from the ledger shows as long as nothing in
it is stale; an entry that outlived its challenge stands in for a missing one.
-/

namespace Blobsitter.Daemon

open Library
open Contract (Storage World Reachable Deployment)

/-- The ids of the entries still awaiting a confirmed response. -/
def Ledger.unresponded (ledger : Ledger) : List Nat :=
  (ledger.entries.toList.filter fun entry => entry.2.respondedTx.isNone).map Prod.fst

def Ledger.unrespondedCount (ledger : Ledger) : Nat := ledger.unresponded.length

/-- The scan, and for how many ticks in a row the chain has counted more than the ledger. -/
structure Enforcement where
  scan : EnforcementScan
  intakeDeficitStreak : Nat

/-- The intake check of `Enforcement::drive`. -/
def Enforcement.drive (self : Enforcement) (openChallenges : Nat) : Enforcement :=
  let ledgerOpen := self.scan.ledger.unrespondedCount % 2 ^ 32
  if openChallenges > ledgerOpen then
    let streak := self.intakeDeficitStreak + 1
    if streak ≥ 5 then ⟨{ self.scan with rescanRequested := true }, 0⟩
    else { self with intakeDeficitStreak := streak }
  else { self with intakeDeficitStreak := 0 }

/-- A step of the scan or of a job, or a tick's check at the given state of the instance,
with the finalized block of that moment. -/
inductive EnforcementInput where
  | scan (input : ScanInput)
  | drive (store : Storage) (finalized : Nat)

section

variable (config : ScanConfig) (codec : Codec Entries)

def Enforcement.step (self : Enforcement) : EnforcementInput → Option Enforcement
  | .scan input =>
      (self.scan.step config codec input).map fun scan =>
        match input with
        | .restart => ⟨scan, 0⟩
        | _ => { self with scan := scan }
  | .drive store _ =>
      match self.scan.phase with
      | .idle => some (self.drive (store.providers config.providerId).openChallenges)
      | _ => none

variable (keccak256 : ByteString → Reference.Hash) (dep : Deployment) (history : List Log)

/-- What a run may meet: pages that leave out any logs, and checks at states that the
instance reaches. -/
def Possible (self : Enforcement) : EnforcementInput → Prop
  | .scan (.page (.ok logs)) => ∀ finalized, self.scan.phase = .paging finalized →
      logs.Sublist (between Log.block (enforcementLogs history) self.scan.enfCursor
        (self.scan.pageEnd finalized))
  | .scan _ => True
  | .drive store _ => ∃ world : World, Reachable keccak256 dep world ∧ world.state.store = store

/-- A run, with the state before each input. -/
inductive Watch (start : Enforcement) :
    List (Enforcement × EnforcementInput) → Enforcement → Prop where
  | start : Watch start [] start
  | next {trace : List (Enforcement × EnforcementInput)} {self next : Enforcement}
      {input : EnforcementInput} (hrun : Watch start trace self)
      (hpossible : Possible keccak256 dep history self input)
      (hstep : self.step config codec input = some next) :
      Watch start (trace ++ [(self, input)]) next

end

/-! ## Missed challenges -/

section

variable (config : ScanConfig) (history : List Log) (self : Enforcement) (store : Storage)

/-- Every finalized block is scanned, and this challenge, which is open on the chain and whose
opening is finalized, is absent from the ledger. -/
structure Missing (config : ScanConfig) (history : List Log) (daemon : Enforcement)
    (store : Storage) (finalized id : Nat) : Prop where
  scanned : finalized ≤ daemon.scan.enfCursor
  opening : ∃ log ∈ history, ∃ challenge : OpenChallenge, log.Opens config.providerId challenge ∧
    log.block ≤ finalized ∧ challenge.challengeId = id
  unresolved : id ∈ store.unresolved config.providerId
  absent : daemon.scan.ledger.entries[id]? = none

def Missed (finalized : Nat) : Prop := ∃ id, Missing config history self store finalized id

/-- Whatever else is open on the chain is among the unresponded entries. -/
def SoleMissed (finalized : Nat) : Prop :=
  ∃ id, Missing config history self store finalized id ∧
    ∀ other ∈ store.unresolved config.providerId, other ≠ id → other ∈ self.scan.ledger.unresponded

/-- The check finds more open challenges on the chain than the ledger accounts for. -/
def Detects : Prop :=
  (store.providers config.providerId).openChallenges > self.scan.ledger.unrespondedCount % 2 ^ 32

/-- Every entry still awaiting a response is of a challenge that is open on the chain. -/
def NoneStale : Prop :=
  ∀ id ∈ self.scan.ledger.unresponded, id ∈ store.unresolved config.providerId

/-- How many checks a stretch of a run makes. -/
def checks (segment : List (Enforcement × EnforcementInput)) : Nat :=
  segment.countP fun entry =>
    match entry.2 with
    | .drive _ _ => true
    | .scan _ => false

end

section

variable {config : ScanConfig} {codec : Codec Entries} {history : List Log}
variable {keccak256 : ByteString → Reference.Hash} {dep : Deployment}
variable {self next start last : Enforcement} {store : Storage}

theorem Ledger.mem_unresponded {ledger : Ledger} {id : Nat} :
    id ∈ ledger.unresponded ↔
      ∃ entry, ledger.entries[id]? = some entry ∧ entry.respondedTx = none := by
  unfold unresponded
  simp only [List.mem_map, List.mem_filter, Prod.exists, exists_and_right, exists_eq_right,
    Std.ExtTreeMap.mem_toList_iff_getElem?_eq_some, Option.isNone_iff_eq_none]

theorem Ledger.unresponded_nodup (ledger : Ledger) : ledger.unresponded.Nodup := by
  have hkeys : (ledger.entries.toList.map Prod.fst).Nodup := by
    rw [Std.ExtTreeMap.map_fst_toList_eq_keys]
    exact Std.ExtTreeMap.nodup_keys
  exact (List.filter_sublist.map Prod.fst).nodup hkeys

/-- The two counts compare as what one set has over the other. -/
theorem lt_openChallenges_iff {world : World} (hreach : Reachable keccak256 dep world)
    (hstore : world.state.store = store) :
    self.scan.ledger.unrespondedCount < (store.providers config.providerId).openChallenges ↔
      (self.scan.ledger.unresponded.toFinset \ store.unresolved config.providerId).card <
        (store.unresolved config.providerId \ self.scan.ledger.unresponded.toFinset).card := by
  subst hstore
  have hcard := List.toFinset_card_of_nodup self.scan.ledger.unresponded_nodup
  rw [hreach.recorded.wellFormed.counter, Ledger.unrespondedCount, ← hcard]
  exact Finset.card_sdiff_lt_card_sdiff_iff.symm

theorem noneStale_iff : NoneStale config self store ↔
    self.scan.ledger.unresponded.toFinset \ store.unresolved config.providerId = ∅ := by
  rw [Finset.sdiff_eq_empty_iff_subset]
  constructor
  · intro hfresh id hid
    exact hfresh id (List.mem_toFinset.mp hid)
  · intro hsubset id hid
    exact hsubset (List.mem_toFinset.mpr hid)

namespace Missing

variable {finalized id : Nat}

/-- What is absent from the ledger is none of its unresponded entries. -/
theorem mem_sdiff (hmissing : Missing config history self store finalized id) :
    id ∈ store.unresolved config.providerId \ self.scan.ledger.unresponded.toFinset := by
  refine Finset.mem_sdiff.mpr ⟨hmissing.unresolved, ?_⟩
  intro hmem
  obtain ⟨entry, hentry, _⟩ := Ledger.mem_unresponded.mp (List.mem_toFinset.mp hmem)
  rw [hmissing.absent] at hentry
  cases hentry

/-- With nothing stale in the ledger, nothing hides what is missing from it. -/
theorem detects (hmissing : Missing config history self store finalized id)
    (hfresh : NoneStale config self store) {world : World}
    (hreach : Reachable keccak256 dep world) (hstore : world.state.store = store) :
    Detects config self store := by
  refine (Nat.mod_le _ _).trans_lt ((lt_openChallenges_iff hreach hstore).mpr ?_)
  rw [noneStale_iff.mp hfresh, Finset.card_empty]
  exact Finset.card_pos.mpr ⟨id, hmissing.mem_sdiff⟩

/-- Of one missing challenge a single stale entry is enough to hide it. -/
theorem detects_iff (hmissing : Missing config history self store finalized id)
    (hsole : ∀ other ∈ store.unresolved config.providerId, other ≠ id →
      other ∈ self.scan.ledger.unresponded)
    (hfits : self.scan.ledger.unrespondedCount < 2 ^ 32) {world : World}
    (hreach : Reachable keccak256 dep world) (hstore : world.state.store = store) :
    Detects config self store ↔ NoneStale config self store := by
  have hone : store.unresolved config.providerId \ self.scan.ledger.unresponded.toFinset =
      {id} := by
    refine Finset.eq_singleton_iff_unique_mem.mpr ⟨hmissing.mem_sdiff, ?_⟩
    intro other hother
    obtain ⟨hopen, habsent⟩ := Finset.mem_sdiff.mp hother
    by_contra hne
    exact habsent (List.mem_toFinset.mpr (hsole other hopen hne))
  rw [Detects, Nat.mod_eq_of_lt hfits, gt_iff_lt, lt_openChallenges_iff hreach hstore, hone,
    Finset.card_singleton, Nat.lt_one_iff, Finset.card_eq_zero, noneStale_iff]

end Missing

theorem Enforcement.drive_few {count : Nat}
    (hfew : ¬count > self.scan.ledger.unrespondedCount % 2 ^ 32) :
    self.drive count = { self with intakeDeficitStreak := 0 } := if_neg hfew

theorem Enforcement.drive_more {count : Nat}
    (hmore : count > self.scan.ledger.unrespondedCount % 2 ^ 32)
    (hshort : self.intakeDeficitStreak + 1 < 5) :
    self.drive count = { self with intakeDeficitStreak := self.intakeDeficitStreak + 1 } :=
  (if_pos hmore).trans (if_neg (Nat.not_le_of_lt hshort))

theorem Enforcement.drive_fifth {count : Nat}
    (hmore : count > self.scan.ledger.unrespondedCount % 2 ^ 32)
    (hfive : 5 ≤ self.intakeDeficitStreak + 1) :
    self.drive count = ⟨{ self.scan with rescanRequested := true }, 0⟩ :=
  (if_pos hmore).trans (if_pos hfive)

/-- A check that detects counts on, or requests the rescan. -/
theorem Enforcement.drive_detects {count : Nat}
    (hdetects : count > self.scan.ledger.unrespondedCount % 2 ^ 32) :
    (self.drive count).scan.rescanRequested = true ∨
      (self.drive count).intakeDeficitStreak = self.intakeDeficitStreak + 1 := by
  rcases Nat.lt_or_ge (self.intakeDeficitStreak + 1) 5 with hshort | hfive
  · rw [Enforcement.drive_more hdetects hshort]
    exact Or.inr rfl
  · rw [Enforcement.drive_fifth hdetects hfive]
    exact Or.inl rfl

/-- Five in a row are never left standing. -/
theorem Enforcement.drive_lt {count : Nat} : (self.drive count).intakeDeficitStreak < 5 := by
  by_cases hmore : count > self.scan.ledger.unrespondedCount % 2 ^ 32
  · rcases Nat.lt_or_ge (self.intakeDeficitStreak + 1) 5 with hshort | hfive
    · rw [Enforcement.drive_more hmore hshort]
      exact hshort
    · rw [Enforcement.drive_fifth hmore hfive]
      exact Nat.succ_pos 4
  · rw [Enforcement.drive_few hmore]
    exact Nat.succ_pos 4

theorem Enforcement.step_idle (hphase : self.scan.phase = .idle) (finalized : Nat) :
    self.step config codec (.drive store finalized) =
      some (self.drive (store.providers config.providerId).openChallenges) := by
  unfold Enforcement.step
  simp only
  rw [hphase]

theorem Enforcement.step_drive {finalized : Nat}
    (hstep : self.step config codec (.drive store finalized) = some next) :
    next = self.drive (store.providers config.providerId).openChallenges := by
  unfold Enforcement.step at hstep
  simp only at hstep
  split at hstep
  · exact (Option.some.inj hstep).symm
  · cases hstep

theorem Enforcement.step_advances {input : ScanInput} {scan : EnforcementScan}
    (hinput : input ≠ .restart) (hstep : self.scan.step config codec input = some scan) :
    self.step config codec (.scan input) = some { self with scan := scan } := by
  refine Option.map_eq_some_iff.mpr ⟨scan, hstep, ?_⟩
  split
  · exact absurd rfl hinput
  · rfl

/-- Between the checks only a restart touches the streak. -/
theorem Enforcement.step_scan {input : ScanInput}
    (hstep : self.step config codec (.scan input) = some next) :
    next.intakeDeficitStreak = 0 ∧ input = .restart ∨
      next.intakeDeficitStreak = self.intakeDeficitStreak := by
  obtain ⟨scan, _, rfl⟩ := Option.map_eq_some_iff.mp hstep
  cases input <;> first | exact Or.inr rfl | exact Or.inl ⟨rfl, rfl⟩

theorem Watch.streak_lt {trace : List (Enforcement × EnforcementInput)}
    (hstart : start.intakeDeficitStreak = 0)
    (hrun : Watch config codec keccak256 dep history start trace last) :
    last.intakeDeficitStreak < 5 := by
  induction hrun with
  | start =>
      rw [hstart]
      exact Nat.succ_pos 4
  | @next _ self next input _ _ hstep ih =>
      cases input with
      | scan input =>
          rcases Enforcement.step_scan hstep with ⟨hzero, _⟩ | hsame
          · rw [hzero]
            exact Nat.succ_pos 4
          · rw [hsame]
            exact ih
      | drive store finalized =>
          rw [Enforcement.step_drive hstep]
          exact Enforcement.drive_lt

theorem Watch.reached {trace : List (Enforcement × EnforcementInput)}
    (hrun : Watch config codec keccak256 dep history start trace last) :
    ∀ self store finalized, (self, EnforcementInput.drive store finalized) ∈ trace →
      ∃ world : World, Reachable keccak256 dep world ∧ world.state.store = store := by
  induction hrun with
  | start =>
      intro _ _ _ hmem
      cases hmem
  | next _ hpossible _ ih =>
      intro self store finalized hmem
      rcases List.mem_append.mp hmem with hold | hnew
      · exact ih self store finalized hold
      · cases List.mem_singleton.mp hnew
        exact hpossible

/-- In a stretch whose checks all detect, each adds one, until one of them requests the
rescan. -/
theorem Watch.checks_le {trace : List (Enforcement × EnforcementInput)}
    (hrun : Watch config codec keccak256 dep history start trace last)
    {before segment : List (Enforcement × EnforcementInput)} (htrace : trace = before ++ segment)
    (hrestart : ∀ entry ∈ segment, entry.2 ≠ .scan .restart)
    (hdetects : ∀ self store finalized, (self, .drive store finalized) ∈ segment →
      Detects config self store) :
    (∃ self store finalized, (self, EnforcementInput.drive store finalized) ∈ segment ∧
      (self.drive (store.providers config.providerId).openChallenges).scan.rescanRequested = true) ∨
    checks segment ≤ last.intakeDeficitStreak := by
  induction hrun generalizing segment with
  | start =>
      obtain ⟨_, rfl⟩ := List.append_eq_nil_iff.mp htrace.symm
      exact Or.inr (Nat.zero_le _)
  | @next trace self next input _ _ hstep ih =>
      rcases List.eq_nil_or_concat segment with rfl | ⟨first, final, rfl⟩
      · exact Or.inr (Nat.zero_le _)
      · rw [List.concat_eq_append, ← List.append_assoc] at htrace
        obtain ⟨hfirst, hfinal⟩ := List.append_inj' htrace rfl
        obtain rfl := List.singleton_inj.mp hfinal
        rw [List.concat_eq_append] at hrestart hdetects ⊢
        have hrest := ih hfirst (fun entry hmem => hrestart entry (List.mem_append_left _ hmem))
          fun self store finalized hmem =>
            hdetects self store finalized (List.mem_append_left _ hmem)
        rcases hrest with ⟨earlier, store, finalized, hmem, hrequested⟩ | hle
        · exact Or.inl ⟨earlier, store, finalized, List.mem_append_left _ hmem, hrequested⟩
        · have hcount : ∀ entry : Enforcement × EnforcementInput,
              checks (first ++ [entry]) = checks first + checks [entry] :=
            fun entry => List.countP_append
          rw [hcount]
          cases input with
          | scan input =>
              have hnone : checks [(self, EnforcementInput.scan input)] = 0 := rfl
              rw [hnone]
              rcases Enforcement.step_scan hstep with ⟨_, rfl⟩ | hsame
              · exact absurd rfl (hrestart _ (List.mem_append_right _ (List.mem_singleton_self _)))
              · rw [hsame]
                exact Or.inr hle
          | drive store finalized =>
              have hone : checks [(self, EnforcementInput.drive store finalized)] = 1 := rfl
              have hmem : (self, EnforcementInput.drive store finalized) ∈
                  first ++ [(self, .drive store finalized)] :=
                List.mem_append_right _ (List.mem_singleton_self _)
              rw [hone, Enforcement.step_drive hstep]
              rcases Enforcement.drive_detects (hdetects self store finalized hmem) with
                hrequested | hstreak
              · exact Or.inl ⟨self, store, finalized, hmem, hrequested⟩
              · rw [hstreak]
                exact Or.inr (Nat.succ_le_succ hle)

/-- A missed challenge is detected as long as nothing in the ledger is stale: in every run, at
each check that finds every unresponded entry open on the chain, the comparison finds it, and
of the checks of a stretch that all do, some of any five requests the rescan.  When only one
challenge is missed, a single stale entry is enough to hide it. -/
theorem missed_challenge_detected {trace : List (Enforcement × EnforcementInput)}
    (hstart : start.intakeDeficitStreak = 0)
    (hrun : Watch config codec keccak256 dep history start trace last) :
    (∀ self store finalized, (self, .drive store finalized) ∈ trace →
      (Missed config history self store finalized → NoneStale config self store →
        Detects config self store) ∧
      (SoleMissed config history self store finalized →
        self.scan.ledger.unrespondedCount < 2 ^ 32 →
        (Detects config self store ↔ NoneStale config self store))) ∧
    ∀ before segment, trace = before ++ segment →
      (∀ entry ∈ segment, entry.2 ≠ .scan .restart) →
      (∀ self store finalized, (self, .drive store finalized) ∈ segment →
        Missed config history self store finalized ∧ NoneStale config self store) →
      5 ≤ checks segment →
      ∃ self store finalized, (self, EnforcementInput.drive store finalized) ∈ segment ∧
        (self.drive (store.providers config.providerId).openChallenges).scan.rescanRequested =
          true := by
  refine ⟨?_, ?_⟩
  · intro self store finalized hmem
    obtain ⟨world, hreach, hstore⟩ := hrun.reached self store finalized hmem
    refine ⟨?_, ?_⟩
    · rintro ⟨id, hmissing⟩ hfresh
      exact hmissing.detects hfresh hreach hstore
    · rintro ⟨id, hmissing, hsole⟩ hfits
      exact hmissing.detects_iff hsole hfits hreach hstore
  · intro before segment htrace hrestart hmissed hfive
    have hdetects : ∀ self store finalized, (self, .drive store finalized) ∈ segment →
        Detects config self store := by
      intro self store finalized hmem
      obtain ⟨world, hreach, hstore⟩ := hrun.reached self store finalized
        (htrace ▸ List.mem_append_right _ hmem)
      obtain ⟨⟨id, hmissing⟩, hfresh⟩ := hmissed self store finalized hmem
      exact hmissing.detects hfresh hreach hstore
    rcases hrun.checks_le htrace hrestart hdetects with hrequested | hle
    · exact hrequested
    · have hlt := hrun.streak_lt hstart
      omega

end

/-! ## A missed challenge behind a stale entry -/

def firstRoot : Reference.Hash :=
  Contract.MMR.bagRoot Keccak.keccak256 1 Contract.zeroDeclaration.newSubtreePeaks

def firstOpened : Log := ⟨5, .challengeOpened 0 1 [0] 200000 firstRoot 1 107⟩

def secondOpened : Log := ⟨8, .challengeOpened 1 1 [0] 200000 firstRoot 1 150⟩

def firstAnswered : Log := ⟨8, .challengeAnswered 0⟩

def answeredHistory : List Log := [firstOpened, secondOpened, firstAnswered]

def firstChallenge : OpenChallenge := ⟨0, [0], firstRoot, 1, 107, none⟩

def secondChallenge : OpenChallenge := ⟨1, [0], firstRoot, 1, 150, none⟩

/-- The chain after the first deadline and before the second. -/
def expiredWorld : World := ⟨Contract.sampleBlock 120 (by simp), Contract.answeredWorld.state, []⟩

def checkInput : EnforcementInput := .drive expiredWorld.state.store 9

/-- A tick of the fresh daemon, behind the page up to block 9. -/
def pageScan (logs : List Log) : EnforcementScan :=
  { freshScan with phase := .dispatching 9 9 logs }

/-- The tick after its first log is dispatched. -/
def openedScan (codec : Codec Entries) : EnforcementScan :=
  { (pageScan [firstOpened]).callLedger codec (.completes .challenges)
      (.insert firstChallenge) with phase := .dispatching 9 9 [] }

def staleScan : EnforcementScan := openedScan sampleLedgerCodec

/-- Every finalized block is scanned. -/
def EnforcementScan.swept (s : EnforcementScan) (phase : ScanPhase) : EnforcementScan :=
  { s with cursorFile := some (cursorText 9), enfCursor := 9, phase := phase }

/-- The pass whose page holds the first opening only, up to the first check. -/
def firstPass : List (Enforcement × EnforcementInput) :=
  [(⟨freshScan, 0⟩, .scan (.tick 9 10 .completes)),
    (⟨{ freshScan with phase := .paging 9 }, 0⟩, .scan (.page (.ok [firstOpened]))),
    (⟨pageScan [firstOpened], 0⟩, .scan (.dispatch (.completes .challenges) .completes)),
    (⟨staleScan, 0⟩, .scan (.pageDone .completes)),
    (⟨staleScan.swept (.paging 9), 0⟩, .scan .done)]

def staleTrace : List (Enforcement × EnforcementInput) :=
  firstPass ++ List.replicate 5 (⟨staleScan.swept .idle, 0⟩, checkInput)

set_option maxRecDepth 10000 in
theorem expiredWorld_reachable :
    Reachable Keccak.keccak256 Contract.sampleDeployment expiredWorld := by
  have hlater : Contract.answeredWorld.env.timestamp ≤ expiredWorld.env.timestamp := by decide
  exact Contract.answeredWorld_reachable.steps (.single (.advances hlater))

set_option maxRecDepth 10000 in
theorem expiredWorld_unresolved :
    expiredWorld.state.store.unresolved sampleScanConfig.providerId = {1} :=
  Contract.answeredWorld_unresolved

theorem firstOpened_opens : firstOpened.Opens sampleScanConfig.providerId firstChallenge := rfl

theorem secondOpened_opens : secondOpened.Opens sampleScanConfig.providerId secondChallenge := rfl

theorem Log.Opens.eq {log : Log} {providerId : Nat} {first second : OpenChallenge}
    (hfirst : log.Opens providerId first) (hsecond : log.Opens providerId second) :
    first = second :=
  LedgerCall.insert.inj (Option.some.inj (hfirst.symm.trans hsecond))

theorem answeredHistory_finalized : FinalizedHistory sampleScanConfig answeredHistory where
  ordered := by
    refine .cons ?_ (.cons ?_ (List.pairwise_singleton _ _))
    · decide
    · decide
  deployed := by decide
  openedOnce := by
    refine .cons ?_ (.cons ?_ (List.pairwise_singleton _ _))
    · intro later hmem first second hfirst hsecond
      obtain rfl := firstOpened_opens.eq hfirst
      rcases List.mem_cons.mp hmem with rfl | hlast
      · obtain rfl := secondOpened_opens.eq hsecond
        exact Nat.zero_ne_one
      · obtain rfl := List.mem_singleton.mp hlast
        cases hsecond
    · intro later hmem first second _ hsecond
      obtain rfl := List.mem_singleton.mp hmem
      cases hsecond
  resolvedLater := by
    refine .cons ?_ (.cons ?_ (List.pairwise_singleton _ _))
    · intro _ _ _ _ hresolves
      cases hresolves
    · intro _ _ _ _ hresolves
      cases hresolves

theorem firstChallenge_changed : (LedgerCall.insert firstChallenge).changed (∅ : Entries) =
    some ((∅ : Entries).insert 0 firstChallenge) := by
  rw [LedgerCall.changed, if_neg (by simp)]
  rfl

theorem openedScan_entries (codec : Codec Entries) :
    (openedScan codec).ledger.entries = (∅ : Entries).insert 0 firstChallenge := by
  unfold openedScan EnforcementScan.callLedger
  rw [show (pageScan [firstOpened]).ledger = ⟨∅⟩ from rfl, Ledger.call_changed firstChallenge_changed]

/-- The one entry of the stale ledger is expired and unresponded. -/
theorem staleScan_entries (id : Nat) :
    staleScan.ledger.entries[id]? = if 0 = id then some firstChallenge else none := by
  rw [staleScan, openedScan_entries, getElem?_insert_entry, Std.ExtTreeMap.getElem?_empty]

theorem staleScan_unresponded : staleScan.ledger.unrespondedCount = 1 := by
  have hset : staleScan.ledger.unresponded.toFinset = {0} := by
    ext id
    rw [List.mem_toFinset, Ledger.mem_unresponded, Finset.mem_singleton]
    constructor
    · rintro ⟨entry, hentry, _⟩
      rw [staleScan_entries] at hentry
      by_contra hne
      rw [if_neg fun heq => hne heq.symm] at hentry
      cases hentry
    · rintro rfl
      exact ⟨firstChallenge, staleScan_entries 0, rfl⟩
  have hcard := List.toFinset_card_of_nodup staleScan.ledger.unresponded_nodup
  rw [hset, Finset.card_singleton] at hcard
  exact hcard.symm

set_option maxRecDepth 10000 in
theorem expiredWorld_openChallenges :
    (expiredWorld.state.store.providers sampleScanConfig.providerId).openChallenges = 1 := by
  rw [expiredWorld_reachable.recorded.wellFormed.counter, expiredWorld_unresolved,
    Finset.card_singleton]

/-- The stale entry makes up for the missing one. -/
theorem staleScan_masks (phase : ScanPhase) :
    ¬Detects sampleScanConfig ⟨staleScan.swept phase, 0⟩ expiredWorld.state.store := by
  have hcount : (staleScan.swept phase).ledger.unrespondedCount = 1 := staleScan_unresponded
  rw [Detects, expiredWorld_openChallenges, hcount]
  decide

theorem staleScan_step : (⟨staleScan.swept .idle, 0⟩ : Enforcement).step sampleScanConfig
    sampleLedgerCodec checkInput = some ⟨staleScan.swept .idle, 0⟩ :=
  (Enforcement.step_idle rfl 9).trans
    (congrArg some (Enforcement.drive_few (staleScan_masks .idle)))

theorem checkInput_possible (self : Enforcement) : Possible Keccak.keccak256
    Contract.sampleDeployment answeredHistory self checkInput :=
  ⟨expiredWorld, expiredWorld_reachable, rfl⟩

theorem openedScan_dispatched (codec : Codec Entries) :
    (pageScan [firstOpened]).step sampleScanConfig codec
      (.dispatch (.completes .challenges) .completes) = some (openedScan codec) := by
  have hreturns : ((pageScan [firstOpened]).ledger.call codec (.completes .challenges)
      (pageScan [firstOpened]).disk (.insert firstChallenge)).1 = .ok () := by
    rw [show (pageScan [firstOpened]).ledger = ⟨∅⟩ from rfl,
      Ledger.call_changed firstChallenge_changed]
    rfl
  exact EnforcementScan.dispatch_returned .completes
    (show (pageScan [firstOpened]).phase = .dispatching 9 9 [firstOpened] from rfl)
    firstOpened_opens hreturns

/-- A page may hold the first log of a history that begins with it. -/
theorem firstPass_run {rest : List Log} (hall : between Log.block
      (enforcementLogs (firstOpened :: rest)) 0 9 = firstOpened :: rest) :
    Watch sampleScanConfig sampleLedgerCodec Keccak.keccak256 Contract.sampleDeployment
      (firstOpened :: rest) ⟨freshScan, 0⟩ firstPass ⟨staleScan.swept .idle, 0⟩ := by
  have htick : (⟨freshScan, 0⟩ : Enforcement).step sampleScanConfig sampleLedgerCodec
      (.scan (.tick 9 10 .completes)) = some ⟨{ freshScan with phase := .paging 9 }, 0⟩ := rfl
  have hpage : (⟨{ freshScan with phase := .paging 9 }, 0⟩ : Enforcement).step sampleScanConfig
      sampleLedgerCodec (.scan (.page (.ok [firstOpened]))) =
        some ⟨pageScan [firstOpened], 0⟩ := rfl
  have hdispatch := @Enforcement.step_advances _ _ ⟨pageScan [firstOpened], 0⟩ _ _ (by simp)
    (openedScan_dispatched sampleLedgerCodec)
  have hpageDone : (⟨staleScan, 0⟩ : Enforcement).step sampleScanConfig sampleLedgerCodec
      (.scan (.pageDone .completes)) = some ⟨staleScan.swept (.paging 9), 0⟩ := rfl
  have hdone : (⟨staleScan.swept (.paging 9), 0⟩ : Enforcement).step sampleScanConfig
      sampleLedgerCodec (.scan .done) = some ⟨staleScan.swept .idle, 0⟩ := rfl
  refine .next (.next (.next (.next (.next .start ?_ htick) ?_ hpage) ?_ hdispatch) ?_ hpageDone)
    ?_ hdone
  · exact trivial
  · intro finalized hphase
    cases hphase
    exact List.singleton_sublist.mpr (hall ▸ List.mem_cons_self)
  · exact trivial
  · exact trivial
  · exact trivial

theorem staleTrace_run : Watch sampleScanConfig sampleLedgerCodec Keccak.keccak256
    Contract.sampleDeployment answeredHistory ⟨freshScan, 0⟩ staleTrace
    ⟨staleScan.swept .idle, 0⟩ := by
  have hpass : Watch sampleScanConfig sampleLedgerCodec Keccak.keccak256 Contract.sampleDeployment
      answeredHistory ⟨freshScan, 0⟩ firstPass ⟨staleScan.swept .idle, 0⟩ := firstPass_run rfl
  have hcheck := checkInput_possible ⟨staleScan.swept .idle, 0⟩
  exact .next (.next (.next (.next (.next hpass hcheck staleScan_step) hcheck staleScan_step)
    hcheck staleScan_step) hcheck staleScan_step) hcheck staleScan_step

/-- Whichever states the chain has been through, the second challenge is missing from a
ledger with the first entry only. -/
theorem secondChallenge_missed {history : List Log} (hopened : secondOpened ∈ history)
    (streak : Nat) {world : World}
    (hopen : 1 ∈ world.state.store.unresolved sampleScanConfig.providerId) :
    Missed sampleScanConfig history ⟨staleScan.swept .idle, streak⟩ world.state.store 9 := by
  refine ⟨1, Nat.le_refl 9, ?_, hopen, staleScan_entries 1⟩
  exact ⟨secondOpened, hopened, secondChallenge, secondOpened_opens, by decide, rfl⟩

/-- Challenge 1 is missed, and five checks past the first deadline do not find it: entry 0,
answered on the chain, still counts. -/
theorem missed_challenge_masked :
    FinalizedHistory sampleScanConfig answeredHistory ∧
    Watch sampleScanConfig sampleLedgerCodec Keccak.keccak256 Contract.sampleDeployment
      answeredHistory ⟨freshScan, 0⟩ staleTrace ⟨staleScan.swept .idle, 0⟩ ∧
    checks staleTrace = 5 ∧ firstChallenge.deadline ≤ expiredWorld.env.timestamp ∧
    (∀ self store finalized, (self, .drive store finalized) ∈ staleTrace →
      Missed sampleScanConfig answeredHistory self store finalized ∧
        ¬Detects sampleScanConfig self store) ∧
    (staleScan.swept .idle).rescanRequested = false := by
  refine ⟨answeredHistory_finalized, staleTrace_run, rfl, by decide, ?_, rfl⟩
  intro self store finalized hmem
  have hcheck : (self, EnforcementInput.drive store finalized) =
      (⟨staleScan.swept .idle, 0⟩, checkInput) := by
    rcases List.mem_append.mp hmem with hpass | hrest
    · simp [firstPass] at hpass
    · exact List.eq_of_mem_replicate hrest
  obtain ⟨rfl, hinput⟩ := Prod.mk.inj hcheck
  rw [checkInput, EnforcementInput.drive.injEq] at hinput
  rw [hinput.1, hinput.2]
  refine ⟨secondChallenge_missed ?_ 0 ?_, staleScan_masks .idle⟩
  · exact List.mem_cons_of_mem _ List.mem_cons_self
  · rw [expiredWorld_unresolved]
    exact Finset.mem_singleton_self 1

def openHistory : List Log := [firstOpened, secondOpened]

def openWorld : World := Contract.rechallengedWorld

def openInput : EnforcementInput := .drive openWorld.state.store 9

/-- As many checks, one after the other. -/
def openTrace (count : Nat) : List (Enforcement × EnforcementInput) :=
  (List.range count).map fun streak => (⟨staleScan.swept .idle, streak⟩, openInput)

set_option maxRecDepth 10000 in
theorem openWorld_unresolved :
    openWorld.state.store.unresolved sampleScanConfig.providerId = {0, 1} := by
  decide

theorem openWorld_missed (streak : Nat) : Missed sampleScanConfig openHistory
    ⟨staleScan.swept .idle, streak⟩ openWorld.state.store 9 := by
  refine secondChallenge_missed (List.mem_cons_of_mem _ List.mem_cons_self) streak ?_
  rw [openWorld_unresolved]
  exact Finset.mem_insert_of_mem (Finset.mem_singleton_self 1)

/-- The one entry is of a challenge that is still open. -/
theorem openWorld_noneStale (streak : Nat) : NoneStale sampleScanConfig
    ⟨staleScan.swept .idle, streak⟩ openWorld.state.store := by
  intro id hid
  obtain ⟨entry, hentry, _⟩ := Ledger.mem_unresponded.mp hid
  have hfirst : staleScan.ledger.entries[id]? = some entry := hentry
  rw [staleScan_entries] at hfirst
  rw [openWorld_unresolved]
  by_cases hzero : 0 = id
  · exact hzero ▸ Finset.mem_insert_self 0 {1}
  · rw [if_neg hzero] at hfirst
    cases hfirst

theorem openWorld_detects (streak : Nat) : Detects sampleScanConfig
    ⟨staleScan.swept .idle, streak⟩ openWorld.state.store := by
  obtain ⟨id, hmissing⟩ := openWorld_missed streak
  exact hmissing.detects (openWorld_noneStale streak) Contract.rechallengedWorld_reachable rfl

theorem openInput_possible (self : Enforcement) : Possible Keccak.keccak256
    Contract.sampleDeployment openHistory self openInput :=
  ⟨openWorld, Contract.rechallengedWorld_reachable, rfl⟩

/-- By induction on the checks: the first four only count. -/
theorem openTrace_run {count : Nat} (hcount : count < 5) :
    Watch sampleScanConfig sampleLedgerCodec Keccak.keccak256 Contract.sampleDeployment
      openHistory ⟨freshScan, 0⟩ (firstPass ++ openTrace count) ⟨staleScan.swept .idle, count⟩ := by
  induction count with
  | zero => exact firstPass_run rfl
  | succ count ih =>
      have hstep : (⟨staleScan.swept .idle, count⟩ : Enforcement).step sampleScanConfig
          sampleLedgerCodec openInput = some ⟨staleScan.swept .idle, count + 1⟩ :=
        (Enforcement.step_idle rfl 9).trans
          (congrArg some (Enforcement.drive_more (openWorld_detects count) hcount))
      have hnext := Watch.next (ih (Nat.lt_of_succ_lt hcount))
        (openInput_possible ⟨staleScan.swept .idle, count⟩) hstep
      rw [List.append_assoc] at hnext
      rw [openTrace, List.range_succ, List.map_append]
      exact hnext

theorem missed_challenge_detected_open :
    ∃ self store finalized, (self, EnforcementInput.drive store finalized) ∈ openTrace 5 ∧
      (self.drive
        (store.providers sampleScanConfig.providerId).openChallenges).scan.rescanRequested = true := by
  have hfifth : (⟨staleScan.swept .idle, 4⟩ : Enforcement).step sampleScanConfig sampleLedgerCodec
      openInput = some ⟨{ staleScan.swept .idle with rescanRequested := true }, 0⟩ :=
    (Enforcement.step_idle rfl 9).trans
      (congrArg some (Enforcement.drive_fifth (openWorld_detects 4) (le_refl 5)))
  have hrun := Watch.next (openTrace_run (show 4 < 5 by decide))
    (openInput_possible ⟨staleScan.swept .idle, 4⟩) hfifth
  rw [List.append_assoc] at hrun
  refine (missed_challenge_detected rfl hrun).2 _ (openTrace 5) rfl ?_ ?_ (le_refl 5)
  · intro entry hmem
    obtain ⟨streak, _, rfl⟩ := List.mem_map.mp hmem
    simp [openInput]
  · intro self store finalized hmem
    obtain ⟨streak, _, heq⟩ := List.mem_map.mp hmem
    obtain ⟨rfl, hinput⟩ := Prod.mk.inj heq
    rw [openInput, EnforcementInput.drive.injEq] at hinput
    rw [← hinput.1, ← hinput.2]
    exact ⟨openWorld_missed streak, openWorld_noneStale streak⟩

end Blobsitter.Daemon
