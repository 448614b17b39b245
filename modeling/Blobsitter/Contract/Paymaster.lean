import Blobsitter.Contract.State

/-!
# Payout ledger and paymaster

The push-with-fallback ledger that both contracts inherit, and the paymaster: its
token bucket, the donation ledger, and the dormancy sweep.
-/

namespace Blobsitter.Contract

open Library
open Reference (Address)

/-- The state changes of `claim`, before the transfer of the returned amount. -/
def PayoutSink.claim (sink : PayoutSink) (sender : Address) : Except Revert (PayoutSink × Nat) := do
  let amount := sink.claimable sender
  revertIf (amount = 0) .nothingClaimable
  let total ← (checkedSub sink.totalClaimable amount).orPanic
  return (⟨Function.update sink.claimable sender 0, total⟩, amount)

/-- The branch of `_payout` for a push that failed. -/
def PayoutSink.park (sink : PayoutSink) (recipient : Address) (amount : Nat) :
    Checked PayoutSink := do
  let parked ← checkedAdd 256 (sink.claimable recipient) amount
  let total ← checkedAdd 256 sink.totalClaimable amount
  return ⟨Function.update sink.claimable recipient parked, total⟩

/-- The recorded total is the sum of the parked balances. -/
def PayoutSink.Balanced (sink : PayoutSink) : Prop :=
  sink.totalClaimable = ∑ account : Address, sink.claimable account

theorem PayoutSink.Balanced.claim {sink next : PayoutSink} {sender : Address} {amount : Nat}
    (hbalanced : sink.Balanced) (hclaim : sink.claim sender = .ok (next, amount)) :
    next.Balanced ∧ next.totalClaimable + amount = sink.totalClaimable := by
  simp only [PayoutSink.claim, bind_eq_ok, revertIf_eq_ok, orPanic_eq_ok, checkedSub_eq_ok,
    pure_eq_ok, Prod.mk.injEq] at hclaim
  obtain ⟨_, -, total, ⟨hle, htotal⟩, rfl, rfl⟩ := hclaim
  have hsum := sum_update_add Finset.univ sink.claimable (Finset.mem_univ sender) 0
  unfold PayoutSink.Balanced at hbalanced ⊢
  simp only
  omega

theorem PayoutSink.Balanced.park {sink next : PayoutSink} {recipient : Address} {amount : Nat}
    (hbalanced : sink.Balanced) (hpark : sink.park recipient amount = .ok next) :
    next.Balanced ∧ next.totalClaimable = sink.totalClaimable + amount := by
  simp only [PayoutSink.park, bind_eq_ok, checkedAdd_eq_ok, pure_eq_ok] at hpark
  obtain ⟨parked, ⟨-, rfl⟩, total, ⟨-, rfl⟩, rfl⟩ := hpark
  have hsum := sum_update_add Finset.univ sink.claimable (Finset.mem_univ recipient)
    (sink.claimable recipient + amount)
  unfold PayoutSink.Balanced at hbalanced ⊢
  refine ⟨?_, rfl⟩
  simp only
  omega

structure Paymaster where
  contributions : Address → Nat
  outstanding : Nat
  storedBucketLevel : Nat
  lastBucketUpdate : Nat
  sink : PayoutSink

inductive PaymasterEvent where
  | donated (donor : Address) (amount : Nat)
  | reimbursed (carrier : Address) (amount : Nat) (isDeclaration : Bool)
  | reimbursementSkipped (carrier : Address) (amount bucketLevel available : Nat)
  | slashAbsorbed (amount : Nat)
  | reclaimed (donor : Address) (amount : Nat)
  | payoutDeferred (recipient : Address) (amount : Nat)
  | claimed (recipient : Address) (amount : Nat)
  deriving DecidableEq

/-- Calls that outside accounts make to the paymaster; a plain transfer donates. -/
inductive PaymasterCall where
  | donate
  | reimburse (carrier : Address) (amount : Nat) (isDeclaration : Bool)
  | absorbSlash
  | reclaim
  | claim

/-- What an accepted paymaster call leaves behind, and the push it still has to make. -/
structure PaymasterOutcome where
  storage : Paymaster
  events : List PaymasterEvent
  tail : Tail

namespace Paymaster

section

variable (params : Params) (block : Block)

/-- Storage after the constructor: the bucket starts full. -/
def deployed : Paymaster :=
  ⟨fun _ => 0, 0, params.bucketCapWei, block.timestamp % 2 ^ 64, ⟨fun _ => 0, 0⟩⟩

def bucketLevel (pm : Paymaster) : Checked Nat := do
  let elapsed ← checkedSub block.timestamp pm.lastBucketUpdate
  let refill ← checkedMul 256 params.bucketRateWeiPerDay elapsed
  let refilled ← checkedAdd 256 pm.storedBucketLevel (refill / 86400)
  return if refilled > params.bucketCapWei then params.bucketCapWei else refilled

/-- ETH not spoken for by parked payouts. -/
def availableBalance (pm : Paymaster) (balance : Nat) : Checked Nat :=
  checkedSub balance pm.sink.totalClaimable

def donate (pm : Paymaster) (donor : Address) (value : Nat) : Except Revert PaymasterOutcome := do
  let credited ← (checkedAdd 256 (pm.contributions donor) value).orPanic
  let outstanding ← (checkedAdd 256 pm.outstanding value).orPanic
  return ⟨{ pm with
      contributions := Function.update pm.contributions donor credited
      outstanding := outstanding }, [.donated donor value], .done⟩

/-- `reimburse`, after its caller check: all or nothing. -/
def reimburse (pm : Paymaster) (balance : Nat) (carrier : Address) (amount : Nat)
    (isDeclaration : Bool) : Except Revert PaymasterOutcome := do
  let level ← (pm.bucketLevel params block).orPanic
  let available ← (pm.availableBalance balance).orPanic
  if amount > level ∨ amount > available then
    return ⟨{ pm with
        storedBucketLevel := level
        lastBucketUpdate := block.timestamp % 2 ^ 64 },
      [.reimbursementSkipped carrier amount level available], .done⟩
  else
    return ⟨{ pm with
        storedBucketLevel := level - amount
        lastBucketUpdate := block.timestamp % 2 ^ 64 },
      [.reimbursed carrier amount isDeclaration], .payout carrier amount⟩

/-- The dormancy sweep; the instance answers with its activity checkpoint. -/
def reclaim (pm : Paymaster) (balance activityCheckpointTime : Nat) (sender : Address) :
    Except Revert PaymasterOutcome := do
  let dormantAt ← (checkedAdd 64 activityCheckpointTime params.dormancyWindow).orPanic
  revertIf (block.timestamp ≤ dormantAt) (.notDormant dormantAt)
  let weight := pm.contributions sender
  revertIf (weight = 0) .nothingToReclaim
  let available ← (pm.availableBalance balance).orPanic
  let share ← (checkedMul 256 available weight).orPanic
  let amount ← (checkedDiv share pm.outstanding).orPanic
  let outstanding ← (checkedSub pm.outstanding weight).orPanic
  return ⟨{ pm with
      contributions := Function.update pm.contributions sender 0
      outstanding := outstanding }, [.reclaimed sender amount], .payout sender amount⟩

def claim (pm : Paymaster) (sender : Address) : Except Revert PaymasterOutcome := do
  let (sink, amount) ← pm.sink.claim sender
  return ⟨{ pm with sink := sink }, [], .claim sender amount⟩

/-- A call from an account other than the instance; `balance` includes its value. -/
def dispatch (pm : Paymaster) (balance activityCheckpointTime : Nat) (msg : Msg) :
    PaymasterCall → Except Revert PaymasterOutcome
  | .donate => pm.donate msg.sender msg.value
  | .reimburse _ _ _ => .error (if msg.value ≠ 0 then .badCall else .onlyInstance)
  | .absorbSlash => .error .onlyInstance
  | .reclaim => do
      revertIf (msg.value ≠ 0) .badCall
      pm.reclaim params block balance activityCheckpointTime msg.sender
  | .claim => do
      revertIf (msg.value ≠ 0) .badCall
      pm.claim msg.sender

end

/-! ## What an accepted call does -/

section

variable {params : Params} {block : Block} {pm : Paymaster} {balance : Nat}

theorem bucketLevel_eq_ok {level : Nat} :
    pm.bucketLevel params block = .ok level ↔ pm.lastBucketUpdate ≤ block.timestamp ∧
      params.bucketRateWeiPerDay * (block.timestamp - pm.lastBucketUpdate) < 2 ^ 256 ∧
      pm.storedBucketLevel +
        params.bucketRateWeiPerDay * (block.timestamp - pm.lastBucketUpdate) / 86400 < 2 ^ 256 ∧
      level = min params.bucketCapWei (pm.storedBucketLevel +
        params.bucketRateWeiPerDay * (block.timestamp - pm.lastBucketUpdate) / 86400) := by
  simp only [bucketLevel, bind_eq_ok, checkedSub_eq_ok, checkedMul_eq_ok, checkedAdd_eq_ok,
    pure_eq_ok]
  constructor
  · rintro ⟨_, ⟨hle, rfl⟩, _, ⟨hproduct, rfl⟩, _, ⟨hsum, rfl⟩, rfl⟩
    refine ⟨hle, hproduct, hsum, ?_⟩
    split
    · exact (min_eq_left (Nat.le_of_lt ‹_›)).symm
    · exact (min_eq_right (not_lt.mp ‹_›)).symm
  · rintro ⟨hle, hproduct, hsum, rfl⟩
    refine ⟨_, ⟨hle, rfl⟩, _, ⟨hproduct, rfl⟩, _, ⟨hsum, rfl⟩, ?_⟩
    split
    · exact (min_eq_left (Nat.le_of_lt ‹_›)).symm
    · exact (min_eq_right (not_lt.mp ‹_›)).symm

theorem bucketLevel_le {level : Nat} (hlevel : pm.bucketLevel params block = .ok level) :
    level ≤ params.bucketCapWei := by
  rw [(bucketLevel_eq_ok.mp hlevel).2.2.2]
  exact min_le_left _ _

theorem donate_eq_ok {donor : Address} {value : Nat} {out : PaymasterOutcome} :
    pm.donate donor value = .ok out ↔ pm.contributions donor + value < 2 ^ 256 ∧
      pm.outstanding + value < 2 ^ 256 ∧
      out = ⟨{ pm with
          contributions := Function.update pm.contributions donor (pm.contributions donor + value)
          outstanding := pm.outstanding + value }, [.donated donor value], .done⟩ := by
  simp only [donate, bind_eq_ok, orPanic_eq_ok, checkedAdd_eq_ok, pure_eq_ok]
  constructor
  · rintro ⟨_, ⟨hcredited, rfl⟩, _, ⟨houtstanding, rfl⟩, rfl⟩
    exact ⟨hcredited, houtstanding, rfl⟩
  · rintro ⟨hcredited, houtstanding, rfl⟩
    exact ⟨_, ⟨hcredited, rfl⟩, _, ⟨houtstanding, rfl⟩, rfl⟩

/-- A reimbursement is skipped, or covered by the bucket and the available balance. -/
theorem reimburse_eq_ok {carrier : Address} {amount : Nat} {isDeclaration : Bool}
    {out : PaymasterOutcome}
    (hok : pm.reimburse params block balance carrier amount isDeclaration = .ok out) :
    ∃ level, pm.bucketLevel params block = .ok level ∧ pm.sink.totalClaimable ≤ balance ∧
      ((level < amount ∨ balance - pm.sink.totalClaimable < amount) ∧
          out = ⟨{ pm with
              storedBucketLevel := level
              lastBucketUpdate := block.timestamp % 2 ^ 64 },
            [.reimbursementSkipped carrier amount level (balance - pm.sink.totalClaimable)],
            .done⟩ ∨
        amount ≤ level ∧ amount ≤ balance - pm.sink.totalClaimable ∧
          out = ⟨{ pm with
              storedBucketLevel := level - amount
              lastBucketUpdate := block.timestamp % 2 ^ 64 },
            [.reimbursed carrier amount isDeclaration], .payout carrier amount⟩) := by
  simp only [reimburse, availableBalance, bind_eq_ok, orPanic_eq_ok, checkedSub_eq_ok] at hok
  obtain ⟨level, hlevel, _, ⟨hparked, rfl⟩, hbranch⟩ := hok
  refine ⟨level, hlevel, hparked, ?_⟩
  split at hbranch
  · cases hbranch
    exact Or.inl ⟨‹_›, rfl⟩
  · rename_i hcovered
    rw [not_or, not_lt, not_lt] at hcovered
    cases hbranch
    exact Or.inr ⟨hcovered.1, hcovered.2, rfl⟩

theorem reclaim_eq_ok {activityCheckpointTime : Nat} {sender : Address} {out : PaymasterOutcome} :
    pm.reclaim params block balance activityCheckpointTime sender = .ok out ↔
      activityCheckpointTime + params.dormancyWindow < 2 ^ 64 ∧
      activityCheckpointTime + params.dormancyWindow < block.timestamp ∧
      0 < pm.contributions sender ∧ pm.sink.totalClaimable ≤ balance ∧
      (balance - pm.sink.totalClaimable) * pm.contributions sender < 2 ^ 256 ∧
      pm.outstanding ≠ 0 ∧ pm.contributions sender ≤ pm.outstanding ∧
      out = ⟨{ pm with
          contributions := Function.update pm.contributions sender 0
          outstanding := pm.outstanding - pm.contributions sender },
        [.reclaimed sender ((balance - pm.sink.totalClaimable) * pm.contributions sender /
          pm.outstanding)],
        .payout sender ((balance - pm.sink.totalClaimable) * pm.contributions sender /
          pm.outstanding)⟩ := by
  simp only [reclaim, availableBalance, bind_eq_ok, orPanic_eq_ok, checkedAdd_eq_ok,
    revertIf_eq_ok, checkedSub_eq_ok, checkedMul_eq_ok, checkedDiv_eq_ok, pure_eq_ok, not_le]
  constructor
  · rintro ⟨_, ⟨hfits, rfl⟩, _, htime, _, hweight, _, ⟨hparked, rfl⟩, _, ⟨hproduct, rfl⟩, _,
      ⟨houtstanding, rfl⟩, _, ⟨hle, rfl⟩, rfl⟩
    exact ⟨hfits, htime, Nat.pos_of_ne_zero hweight, hparked, hproduct, houtstanding, hle, rfl⟩
  · rintro ⟨hfits, htime, hweight, hparked, hproduct, houtstanding, hle, rfl⟩
    exact ⟨_, ⟨hfits, rfl⟩, (), htime, (), hweight.ne', _, ⟨hparked, rfl⟩, _, ⟨hproduct, rfl⟩, _,
      ⟨houtstanding, rfl⟩, _, ⟨hle, rfl⟩, rfl⟩

theorem claim_eq_ok {sender : Address} {out : PaymasterOutcome} :
    pm.claim sender = .ok out ↔ 0 < pm.sink.claimable sender ∧
      pm.sink.claimable sender ≤ pm.sink.totalClaimable ∧
      out = ⟨{ pm with sink := ⟨Function.update pm.sink.claimable sender 0,
          pm.sink.totalClaimable - pm.sink.claimable sender⟩ }, [],
        .claim sender (pm.sink.claimable sender)⟩ := by
  simp only [claim, PayoutSink.claim, bind_eq_ok, revertIf_eq_ok, orPanic_eq_ok, checkedSub_eq_ok,
    pure_eq_ok]
  constructor
  · rintro ⟨_, ⟨_, hpositive, _, ⟨hle, rfl⟩, rfl⟩, rfl⟩
    exact ⟨Nat.pos_of_ne_zero hpositive, hle, rfl⟩
  · rintro ⟨hpositive, hle, rfl⟩
    exact ⟨_, ⟨(), hpositive.ne', _, ⟨hle, rfl⟩, rfl⟩, rfl⟩

end

end Paymaster

end Blobsitter.Contract
