import Blobsitter.Contract.Lapse
import Blobsitter.Daemon.CustodyWitness

/-!
# The custody status on both sides

The daemon compares period indices, the contract period indices and timestamps.  Both are
the position of the time among three instants: the ends of the first and of the second
period after the last proven one, and the end of the grace window.
-/

namespace Blobsitter.Daemon

open Library
open Contract (checkedAdd_ok checkedDiv_ok checkedSub_ok lapseTimes)

/-- The same status in the contract's enumeration. -/
def DerivedStatus.toContract : DerivedStatus → Contract.CustodyStatus
  | .current => .current
  | .stale => .stale
  | .lapseEligible => .lapseEligible
  | .lapsable => .lapsable

/-- The place of a status in the walk of the clock. -/
def DerivedStatus.stage : DerivedStatus → Nat
  | .current => 0
  | .stale => 1
  | .lapseEligible => 2
  | .lapsable => 3

/-- The custody clock of one provider: when the first and the second unproven period end,
and how long the grace window is. -/
structure CustodyClock where
  firstMissed : Nat
  secondMissed : Nat
  grace : Nat

namespace CustodyClock

def lapsableAt (clock : CustodyClock) : Nat := clock.secondMissed + clock.grace

/-- The status as the position of the time among the instants. -/
def statusAt (clock : CustodyClock) (now : Nat) : DerivedStatus :=
  if now < clock.firstMissed then .current
  else if now < clock.secondMissed then .stale
  else if now < clock.lapsableAt then .lapseEligible
  else .lapsable

theorem statusAt_lapsable_iff (clock : CustodyClock) (hordered : clock.firstMissed ≤ clock.secondMissed)
    (now : Nat) : clock.statusAt now = .lapsable ↔ clock.lapsableAt ≤ now := by
  have hgrace : clock.secondMissed ≤ clock.lapsableAt := Nat.le_add_right _ _
  unfold statusAt
  split
  · simp; omega
  · split
    · simp; omega
    · split
      · simp; omega
      · simp; omega

/-- Time moves the status forward only. -/
theorem statusAt_mono (clock : CustodyClock) {now later : Nat} (hle : now ≤ later) :
    (clock.statusAt now).stage ≤ (clock.statusAt later).stage := by
  unfold statusAt
  split
  · exact Nat.zero_le _
  · rw [if_neg (by omega : ¬later < clock.firstMissed)]
    split
    · split
      · exact Nat.le_refl _
      · split
        · exact Nat.le_succ _
        · exact Nat.le_of_lt_succ (by decide)
    · rw [if_neg (by omega : ¬later < clock.secondMissed)]
      split
      · split
        · exact Nat.le_refl _
        · exact Nat.le_succ _
      · rw [if_neg (by omega : ¬later < clock.lapsableAt)]

end CustodyClock

/-- The clock of a record in periods of the given length. -/
def clockOf (anchor lastProvenPlusOne custodyPeriod lapseGrace : Nat) : CustodyClock where
  firstMissed := anchor + (lastProvenPlusOne + 1) * custodyPeriod
  secondMissed := anchor + (lastProvenPlusOne + 2) * custodyPeriod
  grace := lapseGrace

theorem clockOf_ordered (anchor lastProvenPlusOne custodyPeriod lapseGrace : Nat) :
    (clockOf anchor lastProvenPlusOne custodyPeriod lapseGrace).firstMissed ≤
      (clockOf anchor lastProvenPlusOne custodyPeriod lapseGrace).secondMissed :=
  Nat.add_le_add_left (Nat.mul_le_mul_right _ (Nat.le_succ _)) _

section

variable {custodyPeriod lapseGrace now anchor lastProvenPlusOne : Nat}

/-- A period is over by the time exactly when a later one is running. -/
theorem period_le_iff {period : Nat} (hpositive : 0 < custodyPeriod) (hanchor : anchor ≤ now) :
    (now - anchor) / custodyPeriod ≤ period ↔ now < anchor + (period + 1) * custodyPeriod := by
  rw [← Nat.lt_succ_iff, Nat.div_lt_iff_lt_mul hpositive, Nat.succ_eq_add_one]
  omega

/-- The position among the instants, read off the running period. -/
theorem statusAt_eq_of_period (hpositive : 0 < custodyPeriod) (hanchor : anchor ≤ now) :
    (clockOf anchor lastProvenPlusOne custodyPeriod lapseGrace).statusAt now =
      if (now - anchor) / custodyPeriod ≤ lastProvenPlusOne then .current
      else if (now - anchor) / custodyPeriod = lastProvenPlusOne + 1 then .stale
      else if now < anchor + (lastProvenPlusOne + 2) * custodyPeriod + lapseGrace then .lapseEligible
      else .lapsable := by
  have hcovered := @period_le_iff _ _ _ lastProvenPlusOne hpositive hanchor
  have hmissed := @period_le_iff _ _ _ (lastProvenPlusOne + 1) hpositive hanchor
  unfold CustodyClock.statusAt CustodyClock.lapsableAt clockOf
  simp only
  by_cases hcurrent : (now - anchor) / custodyPeriod ≤ lastProvenPlusOne
  · rw [if_pos hcurrent, if_pos (hcovered.mp hcurrent)]
  · rw [if_neg hcurrent, if_neg fun hlt => hcurrent (hcovered.mpr hlt)]
    by_cases hstale : (now - anchor) / custodyPeriod = lastProvenPlusOne + 1
    · rw [if_pos hstale, if_pos (hmissed.mp hstale.le)]
    · have hmany : ¬now < anchor + (lastProvenPlusOne + 2) * custodyPeriod := by
        intro hlt
        exact hstale (Nat.le_antisymm (hmissed.mpr hlt) (Nat.lt_of_not_le hcurrent))
      rw [if_neg hstale, if_neg hmany]

end

/-! ## Both derivations -/

/-- The sums of times and of periods that the two derivations form fit in 64 bits. -/
structure TimesFit (params : CustodyParams) (now anchor lastProvenPlusOne : Nat) : Prop where
  running : (now - anchor) / params.custodyPeriod + 1 < 2 ^ 64
  lapsable : anchor + (lastProvenPlusOne + 2) * params.custodyPeriod + params.lapseGrace < 2 ^ 64

/-- The daemon plans with the periods of this deployment. -/
structure CustodyParams.SamePeriods (params : CustodyParams) (dep : Contract.Deployment) :
    Prop where
  custodyPeriod : params.custodyPeriod = dep.params.custodyPeriod
  lapseGrace : params.lapseGrace = dep.params.lapseGrace

section

variable {params : CustodyParams} {now anchor lastProvenPlusOne : Nat}

theorem TimesFit.provenPlusTwo (hpositive : 0 < params.custodyPeriod)
    (hfits : TimesFit params now anchor lastProvenPlusOne) : lastProvenPlusOne + 2 < 2 ^ 64 := by
  have hlapsable := hfits.lapsable
  have hperiods : lastProvenPlusOne + 2 ≤ (lastProvenPlusOne + 2) * params.custodyPeriod :=
    Nat.le_mul_of_pos_right _ hpositive
  omega

theorem deriveStatus_eq (hpositive : 0 < params.custodyPeriod) (hanchor : anchor ≤ now)
    (hfits : TimesFit params now anchor lastProvenPlusOne) :
    deriveStatus params now anchor lastProvenPlusOne = .ok
      ((clockOf anchor lastProvenPlusOne params.custodyPeriod params.lapseGrace).statusAt now) := by
  have hplusTwo := hfits.provenPlusTwo hpositive
  have hlapsable := hfits.lapsable
  have hone : (lastProvenPlusOne + 1) % 2 ^ 64 = lastProvenPlusOne + 1 :=
    Nat.mod_eq_of_lt (by omega)
  have hproduct : (lastProvenPlusOne + 2) * params.custodyPeriod % 2 ^ 64 =
      (lastProvenPlusOne + 2) * params.custodyPeriod := Nat.mod_eq_of_lt (by omega)
  have hmissed : (anchor + (lastProvenPlusOne + 2) * params.custodyPeriod) % 2 ^ 64 =
      anchor + (lastProvenPlusOne + 2) * params.custodyPeriod := Nat.mod_eq_of_lt (by omega)
  rw [statusAt_eq_of_period hpositive hanchor]
  unfold deriveStatus periodAt
  rw [if_neg hpositive.ne', ok_bind]
  simp only [hone, Nat.mod_eq_of_lt hplusTwo, hproduct, hmissed, Nat.mod_eq_of_lt hlapsable]
  split
  · rfl
  · split
    · rfl
    · split
      · rfl
      · rfl

theorem custodyStatus_eq {dep : Contract.Deployment} {block : Contract.Block}
    {s : Contract.Storage} {id : Nat} (hsame : params.SamePeriods dep)
    (hactive : (s.providers id).status = .active) (hpositive : 0 < params.custodyPeriod)
    (hanchor : (s.providers id).anchor ≤ block.timestamp)
    (hfits : TimesFit params block.timestamp (s.providers id).anchor
      (s.providers id).lastProvenPlusOne) :
    Contract.custodyStatus dep block s id = .ok
      ((clockOf (s.providers id).anchor (s.providers id).lastProvenPlusOne params.custodyPeriod
        params.lapseGrace).statusAt block.timestamp).toContract := by
  have hplusTwo := hfits.provenPlusTwo hpositive
  have hrunning := hfits.running
  have hdeployed : 0 < dep.params.custodyPeriod := hsame.custodyPeriod ▸ hpositive
  rw [statusAt_eq_of_period hpositive hanchor]
  rw [hsame.custodyPeriod] at hrunning ⊢
  rw [hsame.lapseGrace]
  have htimes : (s.providers id).anchor + ((s.providers id).lastProvenPlusOne + 2) *
      dep.params.custodyPeriod + dep.params.lapseGrace = (lapseTimes dep (s.providers id)).2 := rfl
  rw [htimes]
  unfold Contract.custodyStatus
  simp only [hactive, ne_eq, not_true_eq_false, if_false, checkedSub_ok hanchor,
    checkedDiv_ok hdeployed, Contract.Checked.orPanic, ok_bind]
  rw [Nat.mod_eq_of_lt (by omega), checkedAdd_ok hrunning, checkedAdd_ok (by omega),
    checkedAdd_ok hplusTwo]
  simp only [ok_bind, Nat.add_le_add_iff_right, Nat.add_right_cancel_iff]
  split
  · rfl
  · split
    · rfl
    · split
      · rfl
      · rfl

/-- For an active provider `lapse` refuses the time exactly when one of its two checks
fails. -/
theorem lapse_notLapsable_iff {dep : Contract.Deployment} {block : Contract.Block}
    {msg : Contract.Msg} {s : Contract.Storage} {id : Nat}
    (hactive : (s.providers id).status = .active) :
    (∃ time, Contract.lapse dep block msg s id = .error (.notLapsable time)) ↔
      block.timestamp < (lapseTimes dep (s.providers id)).1 ∨
        block.timestamp < (lapseTimes dep (s.providers id)).2 := by
  have hassigned : (s.providers id).status ≠ .none := by
    rw [hactive]
    decide
  unfold Contract.lapse
  rw [Contract.provider_eq_ok.mpr ⟨hassigned, rfl⟩, ok_bind, Contract.revertIf_ok (not_not.mpr hactive),
    ok_bind]
  constructor
  · rintro ⟨time, herror⟩
    by_contra hpassed
    rw [not_or] at hpassed
    rw [Contract.revertIf_ok hpassed.1, ok_bind, Contract.revertIf_ok hpassed.2, ok_bind] at herror
    cases hsplit : Contract.slashSplit dep with
    | error code =>
        rw [hsplit] at herror
        cases herror
    | ok split =>
        rw [hsplit] at herror
        cases herror
  · intro hearly
    by_cases heligible : block.timestamp < (lapseTimes dep (s.providers id)).1
    · refine ⟨0, ?_⟩
      rw [Contract.revertIf_eq_error.mpr ⟨heligible, rfl⟩]
      rfl
    · refine ⟨(lapseTimes dep (s.providers id)).2 % 2 ^ 64, ?_⟩
      rw [Contract.revertIf_ok heligible, ok_bind,
        Contract.revertIf_eq_error.mpr ⟨hearly.resolve_left heligible, rfl⟩]
      rfl

/-- The status that the daemon derives for an active provider is the one the contract
reports; it is LAPSABLE exactly when `lapse` passes both of its time checks, and later
times only move it forward. -/
theorem derived_status_is_contract_status {dep : Contract.Deployment} {s : Contract.Storage}
    {id : Nat} (hactive : (s.providers id).status = .active) (hsame : params.SamePeriods dep)
    (hpositive : 0 < params.custodyPeriod) (block : Contract.Block)
    (hanchor : (s.providers id).anchor ≤ block.timestamp)
    (hfits : TimesFit params block.timestamp (s.providers id).anchor
      (s.providers id).lastProvenPlusOne) :
    ∃ status,
      deriveStatus params block.timestamp (s.providers id).anchor
        (s.providers id).lastProvenPlusOne = .ok status ∧
      Contract.custodyStatus dep block s id = .ok status.toContract ∧
      (status = .lapsable ↔ (lapseTimes dep (s.providers id)).1 ≤ block.timestamp ∧
        (lapseTimes dep (s.providers id)).2 ≤ block.timestamp) ∧
      (∀ msg, status = .lapsable ↔
        ¬∃ time, Contract.lapse dep block msg s id = .error (.notLapsable time)) ∧
      ∀ later laterStatus, block.timestamp ≤ later →
        TimesFit params later (s.providers id).anchor (s.providers id).lastProvenPlusOne →
        deriveStatus params later (s.providers id).anchor (s.providers id).lastProvenPlusOne =
          .ok laterStatus →
        status.stage ≤ laterStatus.stage := by
  have hlapsable : (clockOf (s.providers id).anchor (s.providers id).lastProvenPlusOne
      params.custodyPeriod params.lapseGrace).statusAt block.timestamp = .lapsable ↔
      (lapseTimes dep (s.providers id)).1 ≤ block.timestamp ∧
        (lapseTimes dep (s.providers id)).2 ≤ block.timestamp := by
    rw [CustodyClock.statusAt_lapsable_iff _ (clockOf_ordered _ _ _ _), hsame.custodyPeriod,
      hsame.lapseGrace]
    constructor
    · intro hover
      exact ⟨(Nat.le_add_right _ _).trans hover, hover⟩
    · rintro ⟨_, hover⟩
      exact hover
  refine ⟨_, deriveStatus_eq hpositive hanchor hfits,
    custodyStatus_eq hsame hactive hpositive hanchor hfits, hlapsable, ?_, ?_⟩
  · intro msg
    rw [hlapsable, lapse_notLapsable_iff hactive, not_or, not_lt, not_lt]
  · intro later laterStatus hlater hlaterFits hderived
    rw [deriveStatus_eq hpositive (hanchor.trans hlater) hlaterFits] at hderived
    cases hderived
    exact CustodyClock.statusAt_mono _ hlater

/-- The staked provider of the sample deployment, when its grace window has passed. -/
theorem derived_status_is_contract_status_due :
    ∃ status,
      deriveStatus sampleCustodyParams 32 7 0 = .ok status ∧
      Contract.custodyStatus Contract.sampleDeployment Contract.lapseBlock
        Contract.dueWorld.state.store 1 = .ok status.toContract := by
  have hactive : (Contract.dueWorld.state.store.providers 1).status = .active := rfl
  obtain ⟨status, hderived, hreported, _⟩ := derived_status_is_contract_status hactive
    (⟨rfl, rfl⟩ : sampleCustodyParams.SamePeriods Contract.sampleDeployment) (by decide)
    Contract.lapseBlock (by decide) ⟨by decide, by decide⟩
  exact ⟨status, hderived, hreported⟩

end

end Blobsitter.Daemon
