import Blobsitter.Contract.Reimbursements

/-!
# The allowance between two times

Between two times of a run in which the paymaster pays no request, its spending allowance
does not fall: skipped requests settle the bucket and take nothing.
-/

namespace Blobsitter.Contract

open Library
open Reference (Address)

/-- A run of the paymaster from one state to a later one. -/
inductive PaymasterRun (params : Params) (block : Block) (account : PaymasterAccount) :
    Block → PaymasterAccount → Prop where
  | refl : PaymasterRun params block account block account
  | step {later : Block} {next last : PaymasterAccount}
      (hrun : PaymasterRun params block account later next)
      (hstep : PaymasterStep params later next last) : PaymasterRun params block account later last
  | advance {later final : Block} {next : PaymasterAccount}
      (hrun : PaymasterRun params block account later next)
      (hle : later.timestamp ≤ final.timestamp) : PaymasterRun params block account final next

def Paymaster.allowance (params : Params) (block : Block) (pm : Paymaster) : Nat :=
  params.bucketRate.level pm.bucket block.timestamp

section

variable {params : Params} {block later final : Block} {account next last : PaymasterAccount}

/-- From one state to a later one payments are only added, and where none is added the
allowance has not fallen. -/
structure Keeps (params : Params) (block : Block) (account : PaymasterAccount) (later : Block)
    (next : PaymasterAccount) : Prop where
  updated : next.paymaster.lastBucketUpdate ≤ later.timestamp
  logged : reimbursements account.log <+: reimbursements next.log
  allowed : reimbursements next.log = reimbursements account.log →
    account.paymaster.allowance params block ≤ next.paymaster.allowance params later

namespace Keeps

theorem refl (hupdated : account.paymaster.lastBucketUpdate ≤ block.timestamp) :
    Keeps params block account block account :=
  ⟨hupdated, List.prefix_refl _, fun _ => le_rfl⟩

theorem trans (hfirst : Keeps params block account later next)
    (hsecond : Keeps params later next final last) : Keeps params block account final last := by
  refine ⟨hsecond.updated, hfirst.logged.trans hsecond.logged, ?_⟩
  intro hnone
  -- the log in between lies between two equal ones
  have hlength : (reimbursements next.log).length = (reimbursements account.log).length := by
    refine le_antisymm ?_ hfirst.logged.length_le
    rw [← hnone]
    exact hsecond.logged.length_le
  have hbetween : reimbursements next.log = reimbursements account.log :=
    (hfirst.logged.eq_of_length hlength.symm).symm
  exact (hfirst.allowed hbetween).trans (hsecond.allowed (hnone.trans hbetween.symm))

/-- A step that leaves the bucket and logs no payment. -/
theorem of_same (hupdated : account.paymaster.lastBucketUpdate ≤ block.timestamp)
    (hbucket : next.paymaster.bucket = account.paymaster.bucket) {events : List PaymasterEvent}
    (hlog : next.log = account.log ++ events.map fun event => (block.timestamp, event))
    (hnone : events.filterMap PaymasterEvent.reimbursement = []) :
    Keeps params block account block next := by
  have hsame : reimbursements next.log = reimbursements account.log := by
    rw [hlog, reimbursements_append_none _ _ hnone]
  have hlast : next.paymaster.lastBucketUpdate = account.paymaster.lastBucketUpdate :=
    congrArg Bucket.last hbucket
  refine ⟨hlast.trans_le hupdated, ?_, ?_⟩
  · rw [hsame]
  · intro _
    unfold Paymaster.allowance
    rw [hbucket]

/-- A request that pays is logged; one that is skipped settles the bucket. -/
theorem spends (hupdated : account.paymaster.lastBucketUpdate ≤ block.timestamp)
    {out : PaymasterOutcome} (hspends : Spends params block account out) (balance : Nat) :
    Keeps params block account block
      (PaymasterAccount.emit ⟨out.storage, balance, account.log⟩ block out.events) := by
  cases hspends with
  | reimburse hok =>
      obtain ⟨level, hlevel, _, ⟨_, rfl⟩ | ⟨_, _, rfl⟩⟩ := Paymaster.reimburse_eq_ok hok
      · refine ⟨Nat.mod_le _ _, ?_, ?_⟩
        · change _ <+: reimbursements (_ ++ List.map _ _)
          rw [reimbursements_append_none _ _ rfl]
        · intro _
          change params.bucketRate.level _ _ ≤
            params.bucketRate.level ⟨level, block.timestamp % 2 ^ 64⟩ _
          rw [Paymaster.bucketLevel_level hlevel, Nat.mod_eq_of_lt block.timestamp_lt]
          exact params.bucketRate.level_le_settled _ _ _
      · refine ⟨Nat.mod_le _ _, ?_, ?_⟩
        · change _ <+: reimbursements (_ ++ List.map _ _)
          rw [reimbursements_append]
          exact List.prefix_append _ _
        · intro hnone
          change reimbursements (_ ++ List.map _ _) = _ at hnone
          rw [reimbursements_append, List.append_right_eq_self] at hnone
          cases hnone
  | reclaim hok =>
      obtain ⟨_, _, _, _, _, _, _, rfl⟩ := Paymaster.reclaim_eq_ok.mp hok
      exact of_same hupdated rfl rfl rfl

theorem step (hupdated : account.paymaster.lastBucketUpdate ≤ block.timestamp)
    (hstep : PaymasterStep params block account next) : Keeps params block account block next := by
  cases hstep with
  | donates _ hok =>
      obtain ⟨_, _, rfl⟩ := Paymaster.donate_eq_ok.mp hok
      exact of_same hupdated rfl rfl rfl
  | absorbs => exact of_same hupdated rfl rfl rfl
  | forced => exact ⟨hupdated, List.prefix_refl _, fun _ => le_rfl⟩
  | answers hspends hsettles =>
      cases hsettles with
      | skips => exact spends hupdated hspends _
      | pushes => exact spends hupdated hspends _
      | parks =>
          have hanswered := spends hupdated hspends account.balance
          exact hanswered.trans (of_same hanswered.updated rfl rfl rfl)
  | claims hok =>
      obtain ⟨_, _, rfl⟩ := Paymaster.claim_eq_ok.mp hok
      exact of_same hupdated rfl rfl rfl
  | claimed => exact of_same hupdated rfl rfl rfl

theorem advance (hupdated : account.paymaster.lastBucketUpdate ≤ block.timestamp)
    (hle : block.timestamp ≤ later.timestamp) : Keeps params block account later account :=
  ⟨hupdated.trans hle, List.prefix_refl _, fun _ => params.bucketRate.level_mono _ hle⟩

end Keeps

theorem PaymasterRun.keeps (hrun : PaymasterRun params block account later next)
    (hupdated : account.paymaster.lastBucketUpdate ≤ block.timestamp) :
    Keeps params block account later next := by
  induction hrun with
  | refl => exact .refl hupdated
  | step _ hstep ih => exact ih.trans (.step ih.updated hstep)
  | advance _ hle ih => exact ih.trans (.advance ih.updated hle)

end

end Blobsitter.Contract
