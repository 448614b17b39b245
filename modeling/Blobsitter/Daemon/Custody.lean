import Blobsitter.Contract.State
import Blobsitter.Daemon.ProofSet
import Blobsitter.Reference.Custody

/-!
# The custody planner

The decisions of the custody loop as functions of chain time, the provider's record and
the work in flight, and the witness of a succinct proof.  Numbers are 64-bit; sums and
products wrap, and a custody period of zero panics in the division.
-/

namespace Blobsitter.Daemon

open Library
open Reference (Chunk Hash Address Fault custodyIndex)

/-- A commit on the contract's record. -/
structure Commit where
  period : Nat
  seed : Hash
  root : Hash
  leafCount : Nat
  leafCountFits : leafCount < 2 ^ 64

/-- The part of the provider's record that custody is about. -/
structure ProviderView where
  active : Bool
  anchor : Nat
  lastProvenPlusOne : Nat
  commit : Option Commit

/-- The decoding of the record, whose numbers are `uint64`. -/
def ProviderView.ofProvider (p : Contract.Provider) : ProviderView where
  active := p.status = .active
  anchor := p.anchor
  lastProvenPlusOne := p.lastProvenPlusOne
  commit :=
    if p.commitPeriodPlusOne ≠ 0 then
      some ⟨p.commitPeriodPlusOne - 1, p.commitSeed, p.commitRoot, p.commitLeafCount % 2 ^ 64,
        Nat.mod_lt _ (Nat.two_pow_pos 64)⟩
    else none

/-- The parameters of the instance that the loop plans against. -/
structure CustodyParams where
  instanceAddress : Address
  providerId : Nat
  custodyPeriod : Nat
  lapseGrace : Nat
  custodyK : Nat
  maxSample : Nat
  escapeThreshold : Nat
  providerFits : providerId < 2 ^ 64
  custodyKFits : custodyK < 2 ^ 32

inductive DerivedStatus where
  | current
  | stale
  | lapseEligible
  | lapsable
  deriving DecidableEq, Repr

structure InFlight where
  begin : Bool
  proving : Bool
  submitting : Bool
  deriving DecidableEq

inductive Plan where
  | idle
  | begin (deadline : Nat)
  | prove (commit : Commit) (deadline : Nat)
  | escape (commit : Commit) (deadline : Nat)

section

variable (params : CustodyParams)

/-- `now.saturating_sub(anchor) / custody_period`. -/
def periodAt (now anchor : Nat) : Except Fault Nat :=
  if params.custodyPeriod = 0 then .error (.panic "attempt to divide by zero")
  else .ok ((now - anchor) / params.custodyPeriod)

/-- The end of a period, in wrapping arithmetic. -/
def periodEnd (anchor period : Nat) : Nat :=
  (anchor + (period + 1) % 2 ^ 64 * params.custodyPeriod % 2 ^ 64) % 2 ^ 64

/-- `derive_status`. -/
def deriveStatus (now anchor lastProvenPlusOne : Nat) : Except Fault DerivedStatus := do
  let p ← periodAt params now anchor
  let qPlusOne := lastProvenPlusOne
  if p ≤ qPlusOne then return .current
  else if p = (qPlusOne + 1) % 2 ^ 64 then return .stale
  else
    let t := (anchor + (qPlusOne + 2) % 2 ^ 64 * params.custodyPeriod % 2 ^ 64) % 2 ^ 64
    if now < (t + params.lapseGrace) % 2 ^ 64 then return .lapseEligible
    else return .lapsable

/-- `plan`. -/
def plan (now : Nat) (view : ProviderView) (inFlight : InFlight)
    (proverAvailable proverFailedThisPeriod : Bool) : Except Fault Plan :=
  if view.active = false then .ok .idle
  else do
    let p ← periodAt params now view.anchor
    let deadline := periodEnd params view.anchor p
    let begins : Plan :=
      if inFlight.begin ∨ inFlight.submitting ∨ view.lastProvenPlusOne > p then .idle
      else .begin deadline
    match view.commit with
    | some commit =>
        if commit.period = p then
          if inFlight.submitting then return .idle
          else
            let remaining := deadline - now
            let mustEscape := commit.leafCount = 0 ∨ proverAvailable = false ∨
              proverFailedThisPeriod ∨ remaining < params.escapeThreshold
            if mustEscape then return .escape commit deadline
            else if inFlight.proving then return .idle
            else return .prove commit deadline
        else return begins
    | none => return begins

end

/-! ## What the planner decides -/

section

variable {params : CustodyParams} {now anchor period : Nat} {view : ProviderView}
variable {inFlight : InFlight} {available failed : Bool}

/-- The period whose bounds enclose the time. -/
theorem periodAt_eq (hstart : anchor + period * params.custodyPeriod ≤ now)
    (hend : now < anchor + (period + 1) * params.custodyPeriod) :
    periodAt params now anchor = .ok period := by
  have hpositive : params.custodyPeriod ≠ 0 := by
    intro hzero
    rw [hzero] at hstart hend
    omega
  rw [periodAt, if_neg hpositive, Nat.div_eq_of_lt_le]
  · omega
  · omega

theorem periodEnd_eq (hfits : anchor + (period + 1) * params.custodyPeriod < 2 ^ 64)
    (hperiod : period + 1 < 2 ^ 64) :
    periodEnd params anchor period = anchor + (period + 1) * params.custodyPeriod := by
  have hproduct : (period + 1) * params.custodyPeriod < 2 ^ 64 := by omega
  rw [periodEnd, Nat.mod_eq_of_lt hperiod, Nat.mod_eq_of_lt hproduct, Nat.mod_eq_of_lt hfits]

/-- In the last stretch of a committed period the escape goes out, whatever the prover
does. -/
theorem plan_escape {commit : Commit} (hactive : view.active = true)
    (hperiod : periodAt params now view.anchor = .ok period) (hcommit : view.commit = some commit)
    (hcurrent : commit.period = period) (hfree : inFlight.submitting = false)
    (hlate : periodEnd params view.anchor period - now < params.escapeThreshold) :
    plan params now view inFlight available failed =
      .ok (.escape commit (periodEnd params view.anchor period)) := by
  rw [plan, if_neg (by rw [hactive]; decide), hperiod, ok_bind, hcommit]
  simp only [if_pos hcurrent, hfree]
  rw [if_neg (by decide), if_pos (Or.inr (Or.inr (Or.inr hlate)))]
  rfl

/-- Without a commit to the running period, an unproven period is begun. -/
theorem plan_begin (hactive : view.active = true)
    (hperiod : periodAt params now view.anchor = .ok period)
    (hnone : ∀ commit, view.commit = some commit → commit.period ≠ period)
    (hbegin : inFlight.begin = false) (hfree : inFlight.submitting = false)
    (hunproven : view.lastProvenPlusOne ≤ period) :
    plan params now view inFlight available failed =
      .ok (.begin (periodEnd params view.anchor period)) := by
  have hbegins : ¬(inFlight.begin = true ∨ inFlight.submitting = true ∨
      view.lastProvenPlusOne > period) := by
    rw [hbegin, hfree]
    simp only [Bool.false_eq_true, false_or, not_lt]
    exact hunproven
  rw [plan, if_neg (by rw [hactive]; decide), hperiod, ok_bind]
  simp only [if_neg hbegins]
  cases hcommit : view.commit with
  | none => rfl
  | some commit =>
      simp only
      rw [if_neg (hnone commit hcommit)]
      rfl

end

/-- The sample positions of the ordinals below `count`. -/
def sampleIndices (params : CustodyParams) (keccak256 : ByteString → Hash) (commit : Commit)
    (count : Nat) : Except Fault (List Nat) :=
  (List.range count).mapM fun j =>
    custodyIndex keccak256 params.instanceAddress commit.seed params.providerId j commit.leafCount

/-- Everything that the custody circuit binds, and its samples. -/
structure CustodyWitness where
  instanceAddress : Address
  providerId : Nat
  seed : Hash
  root : Hash
  leafCount : Nat
  k : Nat
  peaks : List Hash
  samples : List ProvenChunk
  providerFits : providerId < 2 ^ 64
  leafCountFits : leafCount < 2 ^ 64
  kFits : k < 2 ^ 64

/-- `build_witness`. -/
def buildWitness (keccak256 : ByteString → Hash) (params : CustodyParams) (commit : Commit)
    (reader : Reader) : Except ProofFault CustodyWitness := do
  let indices ← (sampleIndices params keccak256 commit params.custodyK).mapError
    fun fault => .panicked fault.message
  let set ← buildProofSet keccak256 reader indices commit.leafCount commit.root
  return {
    instanceAddress := params.instanceAddress
    providerId := params.providerId
    seed := commit.seed
    root := commit.root
    leafCount := commit.leafCount
    k := params.custodyK
    peaks := set.peaks
    samples := set.proven
    providerFits := params.providerFits
    leafCountFits := commit.leafCountFits
    kFits := params.custodyKFits.trans (by decide) }

end Blobsitter.Daemon
