import Blobsitter.Contract.PaymasterRuns

/-!
# The paymaster's ledgers

Two ledgers and a balance: parked payouts, which the balance always covers, and donor
contributions, whose sum is what is outstanding.  A request is paid only from what is
not parked, so no run can take the balance below the parked sum.
-/

namespace Blobsitter.Contract

open Library
open Reference (Chunk Hash Address)

/-- The balance covers the parked payouts, and both totals are the sums of their ledgers. -/
structure Ledgered (params : Params) (block : Block) (account : PaymasterAccount) : Prop where
  parked : account.paymaster.sink.totalClaimable ≤ account.balance
  balanced : account.paymaster.sink.Balanced
  credited : account.paymaster.outstanding = ∑ donor, account.paymaster.contributions donor
  ether : account.balance < etherBound
  updated : account.paymaster.lastBucketUpdate ≤ block.timestamp
  level : account.paymaster.storedBucketLevel ≤ params.bucketCapWei

section

variable {params : Params} {block : Block} {account next : PaymasterAccount}

namespace Ledgered

theorem contribution_le (hledger : Ledgered params block account) (donor : Address) :
    account.paymaster.contributions donor ≤ account.paymaster.outstanding := by
  rw [hledger.credited]
  exact Finset.single_le_sum (fun _ _ => Nat.zero_le _) (Finset.mem_univ donor)

theorem claimable_le (hledger : Ledgered params block account) (recipient : Address) :
    account.paymaster.sink.claimable recipient ≤ account.paymaster.sink.totalClaimable := by
  rw [hledger.balanced]
  exact Finset.single_le_sum (fun _ _ => Nat.zero_le _) (Finset.mem_univ recipient)

/-- A request leaves the parked payouts, keeps the donor ledger, and spends only what is
not parked. -/
theorem spends (hledger : Ledgered params block account) {out : PaymasterOutcome}
    (hspends : Spends params block account out) :
    out.storage.sink = account.paymaster.sink ∧
      out.storage.outstanding = ∑ donor, out.storage.contributions donor ∧
      out.storage.lastBucketUpdate ≤ block.timestamp ∧
      out.storage.storedBucketLevel ≤ params.bucketCapWei ∧
      out.tail.amount + account.paymaster.sink.totalClaimable ≤ account.balance := by
  have hparked := hledger.parked
  cases hspends with
  | @reimburse _ amount _ _ hok =>
      obtain ⟨level, hlevel, _, ⟨_, rfl⟩ | ⟨hallowed, havailable, rfl⟩⟩ :=
        Paymaster.reimburse_eq_ok hok
      · exact ⟨rfl, hledger.credited, Nat.mod_le _ _, Paymaster.bucketLevel_le hlevel,
          (Nat.zero_add _).le.trans hparked⟩
      · refine ⟨rfl, hledger.credited, Nat.mod_le _ _,
          (Nat.sub_le _ _).trans (Paymaster.bucketLevel_le hlevel), ?_⟩
        change amount + _ ≤ _
        omega
  | @reclaim _ sender _ hok =>
      obtain ⟨_, _, _, _, _, _, hle, rfl⟩ := Paymaster.reclaim_eq_ok.mp hok
      refine ⟨rfl, ?_, hledger.updated, hledger.level, ?_⟩
      · have hsum := sum_update_add Finset.univ account.paymaster.contributions
          (Finset.mem_univ sender) 0
        have hcredited := hledger.credited
        simp only
        omega
      · have hshare : (account.balance - account.paymaster.sink.totalClaimable) *
            account.paymaster.contributions sender / account.paymaster.outstanding ≤
              account.balance - account.paymaster.sink.totalClaimable :=
          Nat.div_le_of_le_mul (by
            rw [Nat.mul_comm]
            exact Nat.mul_le_mul_right _ hle)
        change _ / _ + _ ≤ _
        omega

theorem settles (hledger : Ledgered params block account) {out : PaymasterOutcome}
    (hspends : Spends params block account out) (hsettles : Settles block account out next) :
    Ledgered params block next := by
  obtain ⟨hsink, hcredited, hupdated, hlevel, hcovered⟩ := hledger.spends hspends
  have hparked := hledger.parked
  have hbalanced := hledger.balanced
  rw [← hsink] at hparked hbalanced
  cases hsettles with
  | skips => exact ⟨hparked, hbalanced, hcredited, hledger.ether, hupdated, hlevel⟩
  | pushes htail =>
      rw [htail, ← hsink] at hcovered
      exact ⟨Nat.le_sub_of_add_le' hcovered, hbalanced, hcredited,
        (Nat.sub_le _ _).trans_lt hledger.ether, hupdated, hlevel⟩
  | parks htail hpark =>
      obtain ⟨hnext, htotal⟩ := hbalanced.park hpark
      rw [htail, ← hsink, Nat.add_comm] at hcovered
      exact ⟨htotal.le.trans hcovered, hnext, hcredited, hledger.ether, hupdated, hlevel⟩

theorem step (hledger : Ledgered params block account)
    (hstep : PaymasterStep params block account next) : Ledgered params block next := by
  have hparked := hledger.parked
  have hether := hledger.ether
  cases hstep with
  | @donates donor value out hbound hok =>
      obtain ⟨_, _, rfl⟩ := Paymaster.donate_eq_ok.mp hok
      refine ⟨hparked.trans (Nat.le_add_right _ _), hledger.balanced, ?_, hbound, hledger.updated,
        hledger.level⟩
      have hsum := sum_update_add Finset.univ account.paymaster.contributions
        (Finset.mem_univ donor) (account.paymaster.contributions donor + value)
      have hcredited := hledger.credited
      simp only [PaymasterAccount.emit]
      omega
  | absorbs hbound =>
      exact ⟨hparked.trans (Nat.le_add_right _ _), hledger.balanced, hledger.credited, hbound,
        hledger.updated, hledger.level⟩
  | forced hbound =>
      exact ⟨hparked.trans (Nat.le_add_right _ _), hledger.balanced, hledger.credited, hbound,
        hledger.updated, hledger.level⟩
  | answers hspends hsettles => exact hledger.settles hspends hsettles
  | claims hok htail hfunded =>
      simp only [Paymaster.claim, bind_eq_ok, pure_eq_ok] at hok
      obtain ⟨⟨sink, amount⟩, hclaim, rfl⟩ := hok
      cases htail
      obtain ⟨hnext, htotal⟩ := hledger.balanced.claim hclaim
      refine ⟨?_, hnext, hledger.credited, (Nat.sub_le _ _).trans_lt hether, hledger.updated,
        hledger.level⟩
      change sink.totalClaimable ≤ account.balance - amount
      omega
  | claimed =>
      exact ⟨hparked, hledger.balanced, hledger.credited, hether, hledger.updated, hledger.level⟩

theorem invariant (params : Params) : PaymasterInvariant params (Ledgered params) where
  deployed block := by
    refine ⟨le_rfl, ?_, ?_, show 0 < etherBound by decide, Nat.mod_le _ _, le_rfl⟩
    · exact Finset.sum_const_zero.symm
    · exact Finset.sum_const_zero.symm
  step hledger hstep := hledger.step hstep
  advance hledger hle :=
    ⟨hledger.parked, hledger.balanced, hledger.credited, hledger.ether, hledger.updated.trans hle,
      hledger.level⟩

end Ledgered

theorem PaymasterReachable.ledgered (hreach : PaymasterReachable params block account) :
    Ledgered params block account := hreach.holds (Ledgered.invariant params)

/-- The bucket arithmetic of a request stays below 256 bits. -/
def Paymaster.BucketFits (params : Params) (block : Block) (pm : Paymaster) : Prop :=
  params.bucketRateWeiPerDay * (block.timestamp - pm.lastBucketUpdate) < 2 ^ 256 ∧
    pm.storedBucketLevel +
      params.bucketRateWeiPerDay * (block.timestamp - pm.lastBucketUpdate) / 86400 < 2 ^ 256

namespace Ledgered

theorem availableBalance (hledger : Ledgered params block account) :
    account.paymaster.availableBalance account.balance =
      .ok (account.balance - account.paymaster.sink.totalClaimable) :=
  checkedSub_ok hledger.parked

/-- Where `reclaim` panics, a sum of times or a product is too large for its type. -/
theorem reclaim_panic (hledger : Ledgered params block account) {activityCheckpointTime : Nat}
    {sender : Address} {code : Panic}
    (hpanic : account.paymaster.reclaim params block account.balance activityCheckpointTime sender =
      .error (.panic code)) :
    code = .arithmetic ∧ (2 ^ 64 ≤ activityCheckpointTime + params.dormancyWindow ∨
      2 ^ 256 ≤ (account.balance - account.paymaster.sink.totalClaimable) *
        account.paymaster.contributions sender) := by
  have hle := hledger.contribution_le sender
  unfold Paymaster.reclaim at hpanic
  simp only [hledger.availableBalance] at hpanic
  rcases bind_eq_error.mp hpanic with hwindow | ⟨_, _, hpanic⟩
  · obtain ⟨_, hsum, hcode⟩ := orPanic_eq_error.mp hwindow
    cases hcode
    obtain ⟨hlarge, rfl⟩ := checkedAdd_eq_error.mp hsum
    exact ⟨rfl, Or.inl hlarge⟩
  obtain ⟨_, hpanic⟩ := revertIf_passed hpanic (by simp)
  obtain ⟨hweight, hpanic⟩ := revertIf_passed hpanic (by simp)
  have hpositive := Nat.pos_of_ne_zero hweight
  rcases bind_eq_error.mp hpanic with havailable | ⟨_, havailable, hpanic⟩
  · cases havailable
  cases havailable
  rcases bind_eq_error.mp hpanic with hshare | ⟨share, _, hpanic⟩
  · obtain ⟨_, hproduct, hcode⟩ := orPanic_eq_error.mp hshare
    cases hcode
    obtain ⟨hlarge, rfl⟩ := checkedMul_eq_error.mp hproduct
    exact ⟨rfl, Or.inr hlarge⟩
  · rw [checkedDiv_ok (hpositive.trans_le hle), checkedSub_ok hle] at hpanic
    cases hpanic

theorem claim_ok (hledger : Ledgered params block account) {sender : Address}
    (hpositive : 0 < account.paymaster.sink.claimable sender) :
    ∃ out, account.paymaster.claim sender = .ok out ∧
      out.tail = .claim sender (account.paymaster.sink.claimable sender) ∧
      account.paymaster.sink.claimable sender ≤ account.balance :=
  ⟨_, Paymaster.claim_eq_ok.mpr ⟨hpositive, hledger.claimable_le sender, rfl⟩, rfl,
    (hledger.claimable_le sender).trans hledger.parked⟩

/-- A request is answered exactly when the bucket arithmetic fits. -/
theorem reimburse_ok_iff (hledger : Ledgered params block account) (carrier : Address)
    (amount : Nat) (isDeclaration : Bool) :
    (∃ out, account.paymaster.reimburse params block account.balance carrier amount isDeclaration =
      .ok out) ↔ account.paymaster.BucketFits params block := by
  constructor
  · rintro ⟨out, hok⟩
    obtain ⟨level, hlevel, _⟩ := Paymaster.reimburse_eq_ok hok
    obtain ⟨_, hproduct, hsum, _⟩ := Paymaster.bucketLevel_eq_ok.mp hlevel
    exact ⟨hproduct, hsum⟩
  · rintro ⟨hproduct, hsum⟩
    have hlevel := Paymaster.bucketLevel_eq_ok.mpr ⟨hledger.updated, hproduct, hsum, rfl⟩
    unfold Paymaster.reimburse
    simp only [hlevel, hledger.availableBalance, Checked.orPanic, ok_bind]
    split
    · exact ⟨_, rfl⟩
    · exact ⟨_, rfl⟩

/-- What a request pays is not parked, and its push may fail without overflow. -/
theorem reimburse_paid (hledger : Ledgered params block account) {carrier : Address}
    {amount : Nat} {isDeclaration : Bool} {out : PaymasterOutcome}
    (hok : account.paymaster.reimburse params block account.balance carrier amount isDeclaration =
      .ok out) :
    out.tail = .done ∨ out.tail = .payout carrier amount ∧
      amount + account.paymaster.sink.totalClaimable ≤ account.balance ∧
      ∃ sink, out.storage.sink.park carrier amount = .ok sink := by
  have hparked := hledger.parked
  have hether := hledger.ether
  have hclaimable := hledger.claimable_le carrier
  have hwords : etherBound < 2 ^ 256 := by decide
  obtain ⟨level, hlevel, _, ⟨_, rfl⟩ | ⟨_, havailable, rfl⟩⟩ := Paymaster.reimburse_eq_ok hok
  · exact Or.inl rfl
  · refine Or.inr ⟨rfl, by omega, ?_⟩
    unfold PayoutSink.park
    rw [checkedAdd_ok (by simp only; omega), checkedAdd_ok (by simp only; omega)]
    exact ⟨_, rfl⟩

end Ledgered

/-- The parked payouts are covered and the totals are the sums of their ledgers.  So the
available balance is defined, a reclaim neither underflows nor divides by zero, a claim
is paid, and the instance's request is answered as long as the bucket arithmetic fits,
without touching what is parked. -/
theorem paymaster_solvent (hreach : PaymasterReachable params block account) :
    (account.paymaster.sink.totalClaimable ≤ account.balance ∧
      account.paymaster.sink.totalClaimable =
        ∑ recipient, account.paymaster.sink.claimable recipient ∧
      account.paymaster.outstanding = ∑ donor, account.paymaster.contributions donor) ∧
    account.paymaster.availableBalance account.balance =
      .ok (account.balance - account.paymaster.sink.totalClaimable) ∧
    (∀ activityCheckpointTime sender code,
      account.paymaster.reclaim params block account.balance activityCheckpointTime sender =
        .error (.panic code) →
      code = .arithmetic ∧ (2 ^ 64 ≤ activityCheckpointTime + params.dormancyWindow ∨
        2 ^ 256 ≤ (account.balance - account.paymaster.sink.totalClaimable) *
          account.paymaster.contributions sender)) ∧
    (∀ sender code, account.paymaster.claim sender ≠ .error (.panic code)) ∧
    (∀ carrier amount isDeclaration,
      ((∃ out, account.paymaster.reimburse params block account.balance carrier amount
          isDeclaration = .ok out) ↔ account.paymaster.BucketFits params block) ∧
        ∀ out, account.paymaster.reimburse params block account.balance carrier amount
            isDeclaration = .ok out →
          out.tail = .done ∨ out.tail = .payout carrier amount ∧
            amount + account.paymaster.sink.totalClaimable ≤ account.balance ∧
            ∃ sink, out.storage.sink.park carrier amount = .ok sink) ∧
    ∀ sender, 0 < account.paymaster.sink.claimable sender →
      ∃ out, account.paymaster.claim sender = .ok out ∧
        out.tail = .claim sender (account.paymaster.sink.claimable sender) ∧
        account.paymaster.sink.claimable sender ≤ account.balance := by
  have hledger := hreach.ledgered
  refine ⟨⟨hledger.parked, hledger.balanced, hledger.credited⟩, hledger.availableBalance, ?_, ?_,
    ?_, fun sender hpositive => hledger.claim_ok hpositive⟩
  · intro activityCheckpointTime sender code hpanic
    exact hledger.reclaim_panic hpanic
  · intro sender code herror
    rcases Nat.eq_zero_or_pos (account.paymaster.sink.claimable sender) with hzero | hpositive
    · have hnothing : account.paymaster.claim sender = .error .nothingClaimable := by
        unfold Paymaster.claim PayoutSink.claim
        rw [hzero]
        rfl
      rw [hnothing] at herror
      cases herror
    · obtain ⟨_, hok, _⟩ := hledger.claim_ok hpositive
      rw [hok] at herror
      cases herror
  · intro carrier amount isDeclaration
    exact ⟨hledger.reimburse_ok_iff carrier amount isDeclaration,
      fun out hok => hledger.reimburse_paid hok⟩

end

/-! ## Two paymasters

The first holds a donation and pays a request.  The cap of the second is the largest
word, so a day's refill after a second overflows the full bucket. -/

theorem donated_reachable :
    PaymasterReachable fundedDeployment.params stakeBlock donatedWorld.state.account :=
  donatedWorld_reachable.running.reach

theorem paymaster_solvent_donated : ∃ out, donatedWorld.state.account.paymaster.reimburse
    fundedDeployment.params stakeBlock donatedWorld.state.account.balance sampleOperator 1000 true =
      .ok out :=
  ((paymaster_solvent donated_reachable).2.2.2.2.1 sampleOperator 1000 true).1.mpr
    ⟨by decide, by decide⟩

def brimmingParams : Params :=
  { fundedDeployment.params with bucketCapWei := 2 ^ 256 - 1 }

def secondBlock : Block := sampleBlock 8 eight_fits

/-- The bucket product fits, its sum with the stored level does not. -/
theorem reimburse_overflows :
    PaymasterReachable brimmingParams secondBlock (.deployed brimmingParams stakeBlock) ∧
      brimmingParams.bucketRateWeiPerDay * (secondBlock.timestamp - stakeBlock.timestamp) <
        2 ^ 256 ∧
      (Paymaster.deployed brimmingParams stakeBlock).reimburse brimmingParams secondBlock 0
        sampleOperator 0 true = .error (.panic .arithmetic) := by
  refine ⟨.advance (.deployed stakeBlock) (by decide), by decide, rfl⟩

end Blobsitter.Contract
