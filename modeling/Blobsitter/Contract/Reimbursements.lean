import Blobsitter.Contract.PaymasterLedger
import Blobsitter.Library.TokenBucket

/-!
# The bound on reimbursements

The paymaster's rate limiter is a token bucket per day.  Every answered request settles
the bucket, and only paid ones draw from it, so in any window the payments stay below
the cap and the rounded refill of the window.
-/

namespace Blobsitter.Contract

open Library
open Reference (Chunk Hash Address)

def PaymasterEvent.reimbursement : PaymasterEvent → Option Nat
  | .reimbursed _ amount _ => some amount
  | _ => none

/-- Times and amounts of the paid requests, oldest first. -/
def reimbursements (log : List (Nat × PaymasterEvent)) : List (Nat × Nat) :=
  log.filterMap fun entry => entry.2.reimbursement.map fun amount => (entry.1, amount)

theorem reimbursements_append (log : List (Nat × PaymasterEvent)) (time : Nat)
    (events : List PaymasterEvent) :
    reimbursements (log ++ events.map fun event => (time, event)) =
      reimbursements log ++
        (events.filterMap PaymasterEvent.reimbursement).map fun amount => (time, amount) := by
  unfold reimbursements
  rw [List.filterMap_append, List.filterMap_map, List.map_filterMap]
  rfl

/-- Events without a paid request leave the payments as they are. -/
theorem reimbursements_append_none (log : List (Nat × PaymasterEvent)) (time : Nat)
    {events : List PaymasterEvent} (hnone : events.filterMap PaymasterEvent.reimbursement = []) :
    reimbursements (log ++ events.map fun event => (time, event)) = reimbursements log := by
  rw [reimbursements_append, hnone, List.map_nil, List.append_nil]

/-- Refill per day of 86400 seconds. -/
def Params.bucketRate (params : Params) : BucketRate :=
  ⟨params.bucketCapWei, params.bucketRateWeiPerDay, 86400⟩

def Paymaster.bucket (pm : Paymaster) : Bucket := ⟨pm.storedBucketLevel, pm.lastBucketUpdate⟩

section

variable {params : Params} {block : Block} {account next : PaymasterAccount}

theorem Paymaster.bucketLevel_level {pm : Paymaster} {level : Nat}
    (hlevel : pm.bucketLevel params block = .ok level) :
    level = params.bucketRate.level pm.bucket block.timestamp :=
  (Paymaster.bucketLevel_eq_ok.mp hlevel).2.2.2

/-- The bucket settles with every answered request and never runs ahead of the clock. -/
structure Limited (params : Params) (block : Block) (account : PaymasterAccount) : Prop where
  metered : Metered params.bucketRate account.paymaster.bucket (reimbursements account.log)
  updated : account.paymaster.lastBucketUpdate ≤ block.timestamp

namespace Limited

/-- A step that leaves the bucket and logs no payment. -/
theorem of_same (hlimited : Limited params block account)
    (hbucket : next.paymaster.bucket = account.paymaster.bucket) {events : List PaymasterEvent}
    (hlog : next.log = account.log ++ events.map fun event => (block.timestamp, event))
    (hnone : events.filterMap PaymasterEvent.reimbursement = []) : Limited params block next := by
  refine ⟨?_, ?_⟩
  · rw [hbucket, hlog, reimbursements_append_none _ _ hnone]
    exact hlimited.metered
  · have hlast := congrArg Bucket.last hbucket
    change next.paymaster.lastBucketUpdate = account.paymaster.lastBucketUpdate at hlast
    rw [hlast]
    exact hlimited.updated

/-- A request settles the bucket and is logged when it draws; a reclaim leaves the bucket. -/
theorem spends (hlimited : Limited params block account) {out : PaymasterOutcome}
    (hspends : Spends params block account out) (balance : Nat) :
    Limited params block (PaymasterAccount.emit ⟨out.storage, balance, account.log⟩ block
      out.events) := by
  have hupdated := hlimited.updated
  cases hspends with
  | reimburse hok =>
      obtain ⟨level, hlevel, _, ⟨_, rfl⟩ | ⟨hallowed, _, rfl⟩⟩ := Paymaster.reimburse_eq_ok hok
      · have heq := Paymaster.bucketLevel_level hlevel
        refine ⟨?_, Nat.mod_le _ _⟩
        change Metered _ ⟨level, block.timestamp % 2 ^ 64⟩ (reimbursements (_ ++ List.map _ _))
        rw [reimbursements_append_none _ _ rfl, heq, Nat.mod_eq_of_lt block.timestamp_lt]
        exact hlimited.metered.skip hupdated
      · have heq := Paymaster.bucketLevel_level hlevel
        rw [heq] at hallowed
        refine ⟨?_, Nat.mod_le _ _⟩
        change Metered _ ⟨level - _, block.timestamp % 2 ^ 64⟩ (reimbursements (_ ++ List.map _ _))
        rw [reimbursements_append, heq, Nat.mod_eq_of_lt block.timestamp_lt]
        exact hlimited.metered.draw hupdated hallowed
  | reclaim hok =>
      obtain ⟨_, _, _, _, _, _, _, rfl⟩ := Paymaster.reclaim_eq_ok.mp hok
      exact hlimited.of_same rfl rfl rfl

theorem step (hlimited : Limited params block account)
    (hstep : PaymasterStep params block account next) : Limited params block next := by
  cases hstep with
  | donates _ hok =>
      obtain ⟨_, _, rfl⟩ := Paymaster.donate_eq_ok.mp hok
      exact hlimited.of_same rfl rfl rfl
  | absorbs => exact hlimited.of_same rfl rfl rfl
  | forced => exact ⟨hlimited.metered, hlimited.updated⟩
  | answers hspends hsettles =>
      cases hsettles with
      | skips => exact hlimited.spends hspends _
      | pushes => exact hlimited.spends hspends _
      | parks => exact (hlimited.spends hspends account.balance).of_same rfl rfl rfl
  | claims hok =>
      obtain ⟨_, _, rfl⟩ := Paymaster.claim_eq_ok.mp hok
      exact hlimited.of_same rfl rfl rfl
  | claimed => exact hlimited.of_same rfl rfl rfl

theorem invariant (params : Params) : PaymasterInvariant params (Limited params) where
  deployed block := by
    refine ⟨?_, Nat.mod_le _ _⟩
    exact Metered.full params.bucketRate (block.timestamp % 2 ^ 64)
  step hlimited hstep := hlimited.step hstep
  advance hlimited hle := ⟨hlimited.metered, hlimited.updated.trans hle⟩

end Limited

/-- In any window of time the paid requests stay below the cap and the refill of the
window, rounded down once, and the level never exceeds the cap. -/
theorem bucket_bound (hreach : PaymasterReachable params block account) :
    (∀ first last, first ≤ last → drawn (reimbursements account.log) first last ≤
      params.bucketCapWei + params.bucketRateWeiPerDay * (last - first) / 86400) ∧
    ∀ level, account.paymaster.bucketLevel params block = .ok level →
      level ≤ params.bucketCapWei := by
  have hlimited := hreach.holds (Limited.invariant params)
  refine ⟨hlimited.metered.window, ?_⟩
  intro level hlevel
  exact Paymaster.bucketLevel_le hlevel

end

/-- A donated paymaster pays one request. -/
theorem bucket_bound_paid : ∃ account,
    PaymasterReachable fundedDeployment.params stakeBlock account ∧
      reimbursements account.log = [(7, 1000)] ∧
      drawn (reimbursements account.log) 7 16 ≤ 1000000 + 86400 * (16 - 7) / 86400 := by
  have hspends : Spends fundedDeployment.params stakeBlock donatedWorld.state.account _ :=
    @Spends.reimburse _ _ _ sampleOperator 1000 true _ rfl
  have hpaid := donated_reachable.step (.answers hspends (.pushes rfl (by decide)))
  exact ⟨_, hpaid, rfl, (bucket_bound hpaid).1 7 16 (by decide)⟩

end Blobsitter.Contract
