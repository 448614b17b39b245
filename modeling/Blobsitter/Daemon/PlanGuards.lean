import Blobsitter.Contract.PendingCommit
import Blobsitter.Daemon.CustodyStatus

/-!
# The planner and the guards

A plan is made from a snapshot and executed later.  The planner's deadline is the end of
the period, so whatever it decides holds on the contract until then: between the decision
and the deadline both sides compute the same period from the same record.
-/

namespace Blobsitter.Daemon

open Library
open Reference (Hash)
open Contract (Deployment Block Msg Storage World Reachable checkedAdd_ok checkedSub_ok checkedDiv_ok
  revertIf_ok revertIf_eq_error provider_eq_ok)

/-- Every branch that `plan` can take in a period. -/
inductive Planned (params : CustodyParams) (now : Nat) (view : ProviderView) (inFlight : InFlight)
    (period : Nat) : Plan → Prop where
  | retired (hretired : view.active = false) : Planned params now view inFlight period .idle
  | waits {commit : Commit} (hcommit : view.commit = some commit) (hcurrent : commit.period = period)
      (hbusy : inFlight.submitting = true ∨ inFlight.proving = true) :
      Planned params now view inFlight period .idle
  | escapes {commit : Commit} (hactive : view.active = true) (hcommit : view.commit = some commit)
      (hcurrent : commit.period = period) :
      Planned params now view inFlight period
        (.escape commit (periodEnd params view.anchor period))
  | proves {commit : Commit} (hactive : view.active = true) (hcommit : view.commit = some commit)
      (hcurrent : commit.period = period) (hsome : commit.leafCount ≠ 0) :
      Planned params now view inFlight period
        (.prove commit (periodEnd params view.anchor period))
  | covered (hnone : ∀ commit, view.commit = some commit → commit.period ≠ period)
      (hcovered : inFlight.begin = true ∨ inFlight.submitting = true ∨
        period < view.lastProvenPlusOne) :
      Planned params now view inFlight period .idle
  | begins (hactive : view.active = true)
      (hnone : ∀ commit, view.commit = some commit → commit.period ≠ period)
      (hdue : view.lastProvenPlusOne ≤ period) :
      Planned params now view inFlight period (.begin (periodEnd params view.anchor period))

section

variable {params : CustodyParams} {now : Nat} {view : ProviderView} {inFlight : InFlight}
variable {available failed : Bool} {result : Plan} {period : Nat}

theorem begins_planned (hactive : view.active = true)
    (hnone : ∀ commit, view.commit = some commit → commit.period ≠ period) :
    Planned params now view inFlight period
      (if inFlight.begin ∨ inFlight.submitting ∨ view.lastProvenPlusOne > period then .idle
        else .begin (periodEnd params view.anchor period)) := by
  split
  · rename_i hcovered
    exact .covered hnone hcovered
  · rename_i hdue
    rw [not_or, not_or, not_lt] at hdue
    exact .begins hactive hnone hdue.2.2

theorem plan_planned (hperiod : periodAt params now view.anchor = .ok period)
    (hplan : plan params now view inFlight available failed = .ok result) :
    Planned params now view inFlight period result := by
  unfold plan at hplan
  split at hplan
  · rename_i hretired
    cases hplan
    exact .retired hretired
  · rename_i hactive
    rw [Bool.not_eq_false] at hactive
    rw [hperiod, ok_bind] at hplan
    cases hcommit : view.commit with
    | none =>
        rw [hcommit] at hplan
        cases hplan
        refine begins_planned hactive ?_
        intro commit hsome
        rw [hcommit] at hsome
        cases hsome
    | some commit =>
        rw [hcommit] at hplan
        simp only at hplan
        split at hplan
        · rename_i hcurrent
          split at hplan
          · rename_i hsubmitting
            cases hplan
            exact .waits hcommit hcurrent (Or.inl hsubmitting)
          · split at hplan
            · cases hplan
              exact .escapes hactive hcommit hcurrent
            · rename_i htrusted
              split at hplan
              · rename_i hproving
                cases hplan
                exact .waits hcommit hcurrent (Or.inr hproving)
              · cases hplan
                exact .proves hactive hcommit hcurrent fun hempty => htrusted (Or.inl hempty)
        · rename_i hother
          cases hplan
          refine begins_planned hactive ?_
          intro stored hsome
          rw [hcommit] at hsome
          cases hsome
          exact hother

theorem plan_active (hplan : plan params now view inFlight available failed = .ok result)
    (hbusy : result ≠ .idle) : view.active = true := by
  by_contra hretired
  rw [plan, if_pos (Bool.not_eq_true _ ▸ hretired)] at hplan
  cases hplan
  exact hbusy rfl

/-- A period of length zero has no plan. -/
theorem plan_period (hactive : view.active = true)
    (hplan : plan params now view inFlight available failed = .ok result) :
    0 < params.custodyPeriod ∧
      periodAt params now view.anchor = .ok ((now - view.anchor) / params.custodyPeriod) := by
  have hpositive : params.custodyPeriod ≠ 0 := by
    intro hzero
    rw [plan, if_neg (by rw [hactive]; decide), periodAt, if_pos hzero] at hplan
    cases hplan
  exact ⟨Nat.pos_of_ne_zero hpositive, if_neg hpositive⟩

/-- Where there are no periods an active provider has no plan. -/
theorem plan_idle_iff_of_zero (hzero : params.custodyPeriod = 0) :
    plan params now view inFlight available failed = .ok .idle ↔ view.active = false := by
  constructor
  · intro hplan
    by_contra hactive
    exact (plan_period (Bool.not_eq_false _ ▸ hactive) hplan).1.ne' hzero
  · intro hretired
    exact if_pos hretired

/-- A proof, or an escape, is planned for the stored commit of the current period. -/
theorem plan_submits {commit : Commit} {deadline : Nat}
    (hplan : plan params now view inFlight available failed = .ok (.prove commit deadline) ∨
      plan params now view inFlight available failed = .ok (.escape commit deadline)) :
    view.active = true ∧ 0 < params.custodyPeriod ∧ view.commit = some commit ∧
      commit.period = (now - view.anchor) / params.custodyPeriod ∧
      deadline = periodEnd params view.anchor ((now - view.anchor) / params.custodyPeriod) := by
  rcases hplan with hplan | hplan
  · have hactive := plan_active hplan (by simp)
    obtain ⟨hpositive, hperiod⟩ := plan_period hactive hplan
    cases plan_planned hperiod hplan with
    | proves _ hcommit hcurrent _ => exact ⟨hactive, hpositive, hcommit, hcurrent, rfl⟩
  · have hactive := plan_active hplan (by simp)
    obtain ⟨hpositive, hperiod⟩ := plan_period hactive hplan
    cases plan_planned hperiod hplan with
    | escapes _ hcommit hcurrent => exact ⟨hactive, hpositive, hcommit, hcurrent, rfl⟩

/-- With nothing in flight the planner idles where nothing is owed. -/
theorem plan_idle_iff (hperiod : periodAt params now view.anchor = .ok period) :
    plan params now view ⟨false, false, false⟩ available failed = .ok .idle ↔
      view.active = false ∨ period < view.lastProvenPlusOne ∧
        ∀ commit, view.commit = some commit → commit.period ≠ period := by
  constructor
  · intro hplan
    cases plan_planned hperiod hplan with
    | retired hretired => exact Or.inl hretired
    | waits _ _ hbusy =>
        rcases hbusy with hsubmitting | hproving
        · cases hsubmitting
        · cases hproving
    | covered hnone hcovered =>
        rcases hcovered with hbegin | hsubmitting | hproven
        · cases hbegin
        · cases hsubmitting
        · exact Or.inr ⟨hproven, hnone⟩
  · rintro (hretired | ⟨hproven, hnone⟩)
    · exact if_pos hretired
    · by_cases hactive : view.active = false
      · exact if_pos hactive
      · rw [plan, if_neg hactive, hperiod, ok_bind]
        have hcovered : (⟨false, false, false⟩ : InFlight).begin = true ∨
            (⟨false, false, false⟩ : InFlight).submitting = true ∨
              view.lastProvenPlusOne > period := Or.inr (Or.inr hproven)
        simp only [if_pos hcovered]
        cases hcommit : view.commit with
        | none => rfl
        | some commit =>
            simp only
            rw [if_neg (hnone commit hcommit)]
            rfl

end

section

variable {keccak256 : ByteString → Hash} {dep : Deployment} {block : Block} {msg : Msg}
variable {s : Storage} {id period : Nat}

/-- The time of the block lies in the period of the provider. -/
structure InPeriod (dep : Deployment) (block : Block) (p : Contract.Provider) (period : Nat) :
    Prop where
  positive : 0 < dep.params.custodyPeriod
  start : p.anchor + period * dep.params.custodyPeriod ≤ block.timestamp
  finish : block.timestamp < p.anchor + (period + 1) * dep.params.custodyPeriod

theorem InPeriod.period_lt (hin : InPeriod dep block (s.providers id) period) :
    period < 2 ^ 64 := by
  have hlength : period ≤ period * dep.params.custodyPeriod :=
    Nat.le_mul_of_pos_right period hin.positive
  have hstart := hin.start
  have htime := block.timestamp_lt
  omega

theorem custodyPeriodIndex_of_inPeriod (hassigned : (s.providers id).status ≠ .none)
    (hin : InPeriod dep block (s.providers id) period) :
    Contract.custodyPeriodIndex dep block s id = .ok period := by
  have hanchor : (s.providers id).anchor ≤ block.timestamp :=
    (Nat.le_add_right _ _).trans hin.start
  have hstart := hin.start
  have hfinish := hin.finish
  have hquotient : (block.timestamp - (s.providers id).anchor) / dep.params.custodyPeriod = period := by
    refine Nat.div_eq_of_lt_le ?_ ?_
    · omega
    · omega
  unfold Contract.custodyPeriodIndex
  rw [provider_eq_ok.mpr ⟨hassigned, rfl⟩, ok_bind, checkedSub_ok hanchor]
  simp only [Contract.Checked.orPanic, ok_bind]
  rw [checkedDiv_ok hin.positive]
  simp only [ok_bind]
  rw [hquotient, Nat.mod_eq_of_lt hin.period_lt]
  rfl

/-- The operator opens a period that is not committed. -/
theorem beginProof_passes (hactive : (s.providers id).status = .active)
    (hsender : msg.sender = (s.providers id).operator)
    (hin : InPeriod dep block (s.providers id) period) (hfits : period + 1 < 2 ^ 64)
    (hfresh : (s.providers id).commitPeriodPlusOne ≠ period + 1) :
    ∃ out, Contract.beginProof keccak256 dep block msg s id = .ok out := by
  have hassigned : (s.providers id).status ≠ .none := by
    rw [hactive]
    decide
  have hcommitted : ¬((s.providers id).commitPeriodPlusOne ≠ 0 ∧
      (s.providers id).commitPeriodPlusOne - 1 = period) := by
    rintro ⟨hstored, heq⟩
    omega
  unfold Contract.beginProof
  rw [provider_eq_ok.mpr ⟨hassigned, rfl⟩, ok_bind, revertIf_ok (not_not.mpr hsender), ok_bind,
    revertIf_ok (not_not.mpr hactive), ok_bind, custodyPeriodIndex_of_inPeriod hassigned hin, ok_bind,
    revertIf_ok hcommitted, ok_bind, checkedAdd_ok hfits]
  exact ⟨_, rfl⟩

/-- For the operator of an active provider the guards compare two periods. -/
theorem submitGuards_inPeriod (hactive : (s.providers id).status = .active)
    (hsender : msg.sender = (s.providers id).operator)
    (hstored : ¬(s.providers id).commitPeriodPlusOne = 0)
    (hin : InPeriod dep block (s.providers id) period) :
    Contract.submitGuards dep block msg s (s.providers id) id = (do
      Contract.revertIf ((s.providers id).commitPeriodPlusOne - 1 ≠ period)
        (.commitFromEarlierPeriod ((s.providers id).commitPeriodPlusOne - 1) period)
      return period) := by
  have hassigned : (s.providers id).status ≠ .none := by
    rw [hactive]
    decide
  unfold Contract.submitGuards
  rw [revertIf_ok (not_not.mpr hsender), ok_bind, revertIf_ok (not_not.mpr hactive), ok_bind,
    revertIf_ok hstored, ok_bind, custodyPeriodIndex_of_inPeriod hassigned hin, ok_bind]

/-- The operator may submit in the committed period. -/
theorem submitGuards_passes (hactive : (s.providers id).status = .active)
    (hsender : msg.sender = (s.providers id).operator)
    (hin : InPeriod dep block (s.providers id) period)
    (hcommitted : (s.providers id).commitPeriodPlusOne = period + 1) :
    Contract.submitGuards dep block msg s (s.providers id) id = .ok period := by
  have hstored : ¬(s.providers id).commitPeriodPlusOne = 0 := by omega
  have hsame : ¬(s.providers id).commitPeriodPlusOne - 1 ≠ period := by omega
  rw [submitGuards_inPeriod hactive hsender hstored hin, revertIf_ok hsame]
  rfl

/-- In the next period the commit is one of an earlier period. -/
theorem submitGuards_late (hactive : (s.providers id).status = .active)
    (hsender : msg.sender = (s.providers id).operator) {later : Nat}
    (hin : InPeriod dep block (s.providers id) later) (hlater : period < later)
    (hcommitted : (s.providers id).commitPeriodPlusOne = period + 1) :
    Contract.submitGuards dep block msg s (s.providers id) id =
      .error (.commitFromEarlierPeriod period later) := by
  have hstored : ¬(s.providers id).commitPeriodPlusOne = 0 := by omega
  have hsame : (s.providers id).commitPeriodPlusOne - 1 = period := by omega
  rw [submitGuards_inPeriod hactive hsender hstored hin, hsame,
    revertIf_eq_error.mpr ⟨hlater.ne, rfl⟩]
  rfl

end

/-! ## Proven periods -/

section

variable {dep : Deployment} {now later : Nat} {p : Contract.Provider} {proofs : List (Nat × Nat)}

/-- A record with a proven period belongs to a deployment with periods. -/
theorem proven_positive (hclock : Contract.Clock dep now p proofs) (hproven : 0 < p.lastProvenPlusOne) :
    ∃ proof ∈ proofs, proof.2 + 1 = p.lastProvenPlusOne ∧ 0 < dep.params.custodyPeriod := by
  have hrecorded := hclock.recorded
  rcases List.eq_nil_or_concat proofs with rfl | ⟨init, last, rfl⟩
  · change (p.lastProvenPlusOne : Int) = -1 + 1 at hrecorded
    omega
  · rw [List.concat_eq_append] at hrecorded hclock ⊢
    rw [Contract.lastPeriod_concat] at hrecorded
    have hmem : last ∈ init ++ [last] := List.mem_append_right _ (List.mem_singleton.mpr rfl)
    obtain ⟨hstart, hfinish, _⟩ := hclock.within last hmem
    refine ⟨last, hmem, by omega, Nat.pos_of_ne_zero ?_⟩
    intro hzero
    rw [hzero] at hstart hfinish
    omega

/-- From the record on, a period at or before the last proven one is that one. -/
theorem proven_iff (hclock : Contract.Clock dep now p proofs) (hle : now ≤ later) :
    (later - p.anchor) / dep.params.custodyPeriod < p.lastProvenPlusOne ↔
      ∃ time, (time, (later - p.anchor) / dep.params.custodyPeriod) ∈ proofs := by
  constructor
  · intro hproven
    obtain ⟨proof, hmem, hlast, hpositive⟩ := proven_positive hclock (Nat.zero_lt_of_lt hproven)
    obtain ⟨hstart, _, htime⟩ := hclock.within proof hmem
    have hreached : proof.2 ≤ (later - p.anchor) / dep.params.custodyPeriod := by
      rw [Nat.le_div_iff_mul_le hpositive]
      omega
    have hperiod : proof.2 = (later - p.anchor) / dep.params.custodyPeriod := by omega
    exact ⟨proof.1, hperiod ▸ hmem⟩
  · rintro ⟨time, hmem⟩
    have hlast := Contract.le_lastPeriod hclock.ordered hmem
    have hrecorded := hclock.recorded
    simp only at hlast
    omega

end

section

variable {p : Contract.Provider} {period : Nat}

theorem ofProvider_active : (ProviderView.ofProvider p).active = true ↔ p.status = .active :=
  decide_eq_true_iff

theorem ofProvider_commit {commit : Commit} (hview : (ProviderView.ofProvider p).commit = some commit) :
    p.commitPeriodPlusOne = commit.period + 1 ∧ commit.seed = p.commitSeed ∧
      commit.root = p.commitRoot ∧ commit.leafCount = p.commitLeafCount % 2 ^ 64 := by
  unfold ProviderView.ofProvider at hview
  simp only at hview
  split at hview
  · rename_i hstored
    cases hview
    exact ⟨(Nat.succ_pred_eq_of_ne_zero hstored).symm, rfl, rfl, rfl⟩
  · cases hview

theorem ofProvider_uncommitted_iff :
    (∀ commit, (ProviderView.ofProvider p).commit = some commit → commit.period ≠ period) ↔
      p.commitPeriodPlusOne ≠ period + 1 := by
  constructor
  · intro hnone hstored
    have hsome : p.commitPeriodPlusOne ≠ 0 := by omega
    refine hnone _ (if_pos hsome) ?_
    simp only
    omega
  · intro hstored commit hview hperiod
    rw [(ofProvider_commit hview).1, hperiod] at hstored
    exact hstored rfl

end

section

variable {keccak256 : ByteString → Hash} {dep : Deployment} {params : CustodyParams}
variable {p : Contract.Provider} {now : Nat} {inFlight : InFlight} {available failed : Bool}

/-- The window of a plan lies in the period it is made in. -/
theorem inPeriod_of_plan {block : Block} (hlength : params.custodyPeriod = dep.params.custodyPeriod)
    (hpositive : 0 < params.custodyPeriod) (hanchor : p.anchor ≤ now)
    (hfits : p.anchor + ((now - p.anchor) / params.custodyPeriod + 1) * params.custodyPeriod < 2 ^ 64)
    (hstart : now ≤ block.timestamp)
    (hfinish : block.timestamp <
      periodEnd params p.anchor ((now - p.anchor) / params.custodyPeriod)) :
    InPeriod dep block p ((now - p.anchor) / params.custodyPeriod) := by
  have hperiods := Nat.le_mul_of_pos_right ((now - p.anchor) / params.custodyPeriod + 1) hpositive
  rw [periodEnd_eq hfits (by omega)] at hfinish
  have hbegun := Nat.div_mul_le_self (now - p.anchor) params.custodyPeriod
  rw [hlength] at *
  exact ⟨hpositive, by omega, hfinish⟩

/-- The deadline of a plan is the first instant of the next period. -/
theorem inPeriod_at_deadline {block : Block}
    (hlength : params.custodyPeriod = dep.params.custodyPeriod) (hpositive : 0 < params.custodyPeriod)
    (hfits : p.anchor + ((now - p.anchor) / params.custodyPeriod + 1) * params.custodyPeriod < 2 ^ 64)
    (htime : block.timestamp =
      periodEnd params p.anchor ((now - p.anchor) / params.custodyPeriod)) :
    InPeriod dep block p ((now - p.anchor) / params.custodyPeriod + 1) := by
  have hperiods := Nat.le_mul_of_pos_right ((now - p.anchor) / params.custodyPeriod + 1) hpositive
  rw [periodEnd_eq hfits (by omega)] at htime
  rw [hlength] at *
  refine ⟨hpositive, htime.ge, ?_⟩
  rw [htime, Nat.succ_mul ((now - p.anchor) / dep.params.custodyPeriod + 1)]
  omega

/-- What the planner decides on a record is what the contract allows on it until the
planned deadline: an opening passes every guard, a submission is of the stored commit and
of no empty snapshot when it needs the prover, and is refused from the deadline on.  The
planner idles exactly where nothing is owed. -/
theorem plan_agrees_with_guards {world : World} (hreach : Reachable keccak256 dep world) {id : Nat}
    (hrecord : world.state.store.providers id = p)
    (hlength : params.custodyPeriod = dep.params.custodyPeriod) (hanchor : p.anchor ≤ now)
    (hfits : p.anchor + ((now - p.anchor) / params.custodyPeriod + 1) * params.custodyPeriod < 2 ^ 64)
    (inFlight : InFlight) (available failed : Bool) :
    (∀ deadline,
      plan params now (.ofProvider p) inFlight available failed = .ok (.begin deadline) →
      ∀ block msg, now ≤ block.timestamp → block.timestamp < deadline → msg.sender = p.operator →
        ∃ out, Contract.beginProof keccak256 dep block msg world.state.store id = .ok out) ∧
    (∀ commit deadline,
      plan params now (.ofProvider p) inFlight available failed = .ok (.prove commit deadline) ∨
        plan params now (.ofProvider p) inFlight available failed = .ok (.escape commit deadline) →
      (p.commitPeriodPlusOne = commit.period + 1 ∧
        p.commitment = ⟨commit.period, commit.seed, commit.root, commit.leafCount⟩) ∧
      (∀ block msg, now ≤ block.timestamp → block.timestamp < deadline → msg.sender = p.operator →
        Contract.submitGuards dep block msg world.state.store p id = .ok commit.period) ∧
      ∀ block msg, block.timestamp = deadline → msg.sender = p.operator →
        Contract.submitGuards dep block msg world.state.store p id =
          .error (.commitFromEarlierPeriod commit.period (commit.period + 1))) ∧
    (∀ commit deadline,
      plan params now (.ofProvider p) inFlight available failed = .ok (.prove commit deadline) →
      commit.leafCount ≠ 0) ∧
    (plan params now (.ofProvider p) ⟨false, false, false⟩ available failed = .ok .idle ↔
      p.status ≠ .active ∨ (now - p.anchor) / params.custodyPeriod < p.lastProvenPlusOne ∧
        p.commitPeriodPlusOne ≠ (now - p.anchor) / params.custodyPeriod + 1) ∧
    (world.env.timestamp ≤ now →
      ((now - p.anchor) / params.custodyPeriod < p.lastProvenPlusOne ↔
        ∃ time, (time, (now - p.anchor) / params.custodyPeriod) ∈
          Contract.proofs id world.state.log)) := by
  subst hrecord
  refine ⟨?_, ?_, ?_, ?_, ?_⟩
  · intro deadline hplan block msg hstart hfinish hsender
    have hactive := plan_active hplan (by simp)
    obtain ⟨hpositive, hperiod⟩ := plan_period hactive hplan
    have hperiods := Nat.le_mul_of_pos_right
      ((now - (world.state.store.providers id).anchor) / params.custodyPeriod + 1) hpositive
    cases plan_planned hperiod hplan with
    | begins _ hnone _ =>
        exact beginProof_passes (ofProvider_active.mp hactive) hsender
          (inPeriod_of_plan hlength hpositive hanchor hfits hstart hfinish) (by omega)
          (ofProvider_uncommitted_iff.mp hnone)
  · intro commit deadline hplan
    obtain ⟨hactive, hpositive, hview, hcurrent, rfl⟩ := plan_submits hplan
    obtain ⟨hstored, hseed, hroot, hleaves⟩ := ofProvider_commit hview
    have hcounted := hreach.commitLeafCount_lt id (by omega)
    refine ⟨⟨hstored, ?_⟩, ?_, ?_⟩
    · rw [hseed, hroot, hleaves, Nat.mod_eq_of_lt hcounted, Contract.Provider.commitment, hstored]
      rfl
    · intro block msg hstart hfinish hsender
      rw [hcurrent] at hstored ⊢
      exact submitGuards_passes (ofProvider_active.mp hactive) hsender
        (inPeriod_of_plan hlength hpositive hanchor hfits hstart hfinish) hstored
    · intro block msg htime hsender
      rw [hcurrent] at hstored ⊢
      exact submitGuards_late (ofProvider_active.mp hactive) hsender
        (inPeriod_at_deadline hlength hpositive hfits htime) (Nat.lt_succ_self _) hstored
  · intro commit deadline hplan
    obtain ⟨_, hperiod⟩ := plan_period (plan_active hplan (by simp)) hplan
    cases plan_planned hperiod hplan with
    | proves _ _ _ hsome => exact hsome
  · by_cases hpositive : params.custodyPeriod = 0
    · -- without periods nothing is ever proven, and an active provider has no plan
      have hunproven : ¬0 < (world.state.store.providers id).lastProvenPlusOne := by
        intro hproven
        obtain ⟨_, _, _, hdeployed⟩ := proven_positive (hreach.custody.clock id) hproven
        omega
      have hnever : ¬((now - (world.state.store.providers id).anchor) / params.custodyPeriod <
          (world.state.store.providers id).lastProvenPlusOne ∧
            (world.state.store.providers id).commitPeriodPlusOne ≠
              (now - (world.state.store.providers id).anchor) / params.custodyPeriod + 1) := by
        rintro ⟨hproven, _⟩
        exact hunproven (Nat.zero_lt_of_lt hproven)
      rw [or_iff_left hnever, plan_idle_iff_of_zero hpositive, ← Bool.not_eq_true,
        ofProvider_active]
    · rw [plan_idle_iff (if_neg hpositive), ofProvider_uncommitted_iff, ← Bool.not_eq_true,
        ofProvider_active]
      rfl
  · intro hle
    rw [hlength]
    exact proven_iff (hreach.custody.clock id) hle

/-- The empty commit of a period that was begun a second time is escaped until the period
ends. -/
theorem plan_agrees_with_guards_recommitted :
    Contract.submitGuards Contract.sampleDeployment Contract.luckyBlock
      (Contract.sampleMsg Contract.sampleOperator 0) Contract.recommittedWorld.state.store
      (Contract.recommittedWorld.state.store.providers 1) 1 = .ok 0 := by
  have hescape : plan sampleCustodyParams 8
      (.ofProvider (Contract.recommittedWorld.state.store.providers 1)) ⟨false, false, false⟩ true
      false = .ok (.escape ⟨0, Vector.replicate 32 9, Contract.MMR.bagRoot Keccak.keccak256 0 [], 0,
        Contract.zero_fits⟩ 17) := rfl
  have hanchor : (Contract.recommittedWorld.state.store.providers 1).anchor ≤ 8 := by decide
  have hfits : (Contract.recommittedWorld.state.store.providers 1).anchor +
      ((8 - (Contract.recommittedWorld.state.store.providers 1).anchor) /
        sampleCustodyParams.custodyPeriod + 1) * sampleCustodyParams.custodyPeriod < 2 ^ 64 := by
    decide
  obtain ⟨_, hsubmits, _⟩ := plan_agrees_with_guards Contract.recommittedWorld_reachable rfl
    (show sampleCustodyParams.custodyPeriod = _ from rfl) hanchor hfits ⟨false, false, false⟩ true
    false
  exact (hsubmits _ _ (Or.inr hescape)).2.1 Contract.luckyBlock _ (by decide) (by decide) rfl

end

end Blobsitter.Daemon
