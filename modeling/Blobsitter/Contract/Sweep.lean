import Blobsitter.Contract.PaymasterLedger
import Blobsitter.Library.ProRata

/-!
# The dormancy sweep

Every donor of a dormant paymaster reclaims, in any order.  Each takes its share of what
is then available, so the payouts are a pro-rata round over the contributions, and the
whole available balance is returned.
-/

namespace Blobsitter.Contract

open Library
open Reference (Chunk Hash Address)

/-- ETH that is not parked. -/
def PaymasterAccount.available (account : PaymasterAccount) : Nat :=
  account.balance - account.paymaster.sink.totalClaimable

/-- Nothing that a reclaim depends on came in or went out. -/
structure PaymasterAccount.Untouched (account later : PaymasterAccount) : Prop where
  contributions : later.paymaster.contributions = account.paymaster.contributions
  outstanding : later.paymaster.outstanding = account.paymaster.outstanding
  available : later.available = account.available

theorem PaymasterAccount.Untouched.refl (account : PaymasterAccount) : account.Untouched account :=
  ⟨rfl, rfl, rfl⟩

/-- Donors reclaim one after the other, in blocks where the paymaster is dormant; the
payouts are pushed or parked, and in between no ETH comes in or goes out. -/
inductive Sweep (params : Params) :
    PaymasterAccount → List (Address × Nat) → PaymasterAccount → Prop where
  | done {account : PaymasterAccount} : Sweep params account [] account
  | reclaims {block : Block} {account paid later final : PaymasterAccount}
      {activityCheckpointTime payout : Nat} {donor : Address} {out : PaymasterOutcome}
      {rest : List (Address × Nat)}
      (hok : account.paymaster.reclaim params block account.balance activityCheckpointTime donor =
        .ok out) (htail : out.tail = .payout donor payout)
      (hsettles : Settles block account out paid) (huntouched : paid.Untouched later)
      (hrest : Sweep params later rest final) :
      Sweep params account ((donor, payout) :: rest) final

section

variable {params : Params} {block : Block} {account next final : PaymasterAccount}

/-- A settled reclaim takes its payout off the available balance, pushed or parked. -/
theorem Settles.available {out : PaymasterOutcome} {recipient : Address} {amount : Nat}
    (hsettles : Settles block account out next) (htail : out.tail = .payout recipient amount)
    (hsink : out.storage.sink = account.paymaster.sink) :
    next.paymaster.contributions = out.storage.contributions ∧
      next.paymaster.outstanding = out.storage.outstanding ∧
      next.available = account.available - amount := by
  cases hsettles with
  | skips hdone =>
      rw [htail] at hdone
      cases hdone
  | pushes hpushed =>
      rw [htail] at hpushed
      cases hpushed
      refine ⟨rfl, rfl, ?_⟩
      change account.balance - amount - out.storage.sink.totalClaimable = _
      rw [hsink]
      exact Nat.sub_right_comm _ _ _
  | @parks _ _ sink hpushed hpark =>
      rw [htail] at hpushed
      cases hpushed
      refine ⟨rfl, rfl, ?_⟩
      simp only [PayoutSink.park, bind_eq_ok, checkedAdd_eq_ok, pure_eq_ok] at hpark
      obtain ⟨_, _, _, ⟨_, rfl⟩, rfl⟩ := hpark
      change account.balance - (out.storage.sink.totalClaimable + amount) = _
      rw [hsink]
      exact Nat.sub_add_eq _ _ _

/-- The payouts of a sweep are a pro-rata round over the contributions. -/
theorem Sweep.proRata {payouts : List (Address × Nat)} (hsweep : Sweep params account payouts final)
    (hnodup : (payouts.map Prod.fst).Nodup) :
    payouts.map Prod.snd = Library.proRata account.available account.paymaster.outstanding
      (payouts.map fun payout => account.paymaster.contributions payout.1) ∧
    final.paymaster.outstanding = account.paymaster.outstanding -
      (payouts.map fun payout => account.paymaster.contributions payout.1).sum ∧
    final.available = account.available - (payouts.map Prod.snd).sum := by
  induction hsweep with
  | done => exact ⟨rfl, rfl, rfl⟩
  | @reclaims block account paid later final _ payout donor out rest hok htail hsettles huntouched _ ih =>
      rw [List.map_cons, List.nodup_cons] at hnodup
      obtain ⟨hnew, hrest⟩ := hnodup
      obtain ⟨_, _, _, _, _, _, _, rfl⟩ := Paymaster.reclaim_eq_ok.mp hok
      obtain ⟨hcontributions, houtstanding, havailable⟩ := hsettles.available htail rfl
      rw [← huntouched.contributions] at hcontributions
      rw [← huntouched.outstanding] at houtstanding
      rw [← huntouched.available] at havailable
      obtain ⟨hpayouts, hfinal, hleft⟩ := ih hrest
      have hweights : (rest.map fun payout => later.paymaster.contributions payout.1) =
          rest.map fun payout => account.paymaster.contributions payout.1 := by
        apply List.map_congr_left
        intro entry hmem
        rw [hcontributions]
        refine Function.update_of_ne ?_ _ _
        intro heq
        have hdonor := List.mem_map_of_mem (f := Prod.fst) hmem
        rw [heq] at hdonor
        exact hnew hdonor
      rw [hweights] at hpayouts hfinal
      rw [havailable, houtstanding] at hpayouts
      rw [houtstanding] at hfinal
      rw [havailable] at hleft
      have hpayout : payout = account.available * account.paymaster.contributions donor /
          account.paymaster.outstanding := by
        cases htail
        rfl
      refine ⟨?_, ?_, ?_⟩
      · rw [List.map_cons, List.map_cons, Library.proRata, ← hpayout, hpayouts]
      · rw [List.map_cons, List.sum_cons, hfinal, Nat.sub_add_eq]
      · rw [List.map_cons, List.sum_cons, hleft, Nat.sub_add_eq]

/-- The contributions of all donors with one add up to what is outstanding. -/
theorem contributions_sum {contributions : Address → Nat} {donors : List Address}
    (hnodup : donors.Nodup) (hall : ∀ donor, 0 < contributions donor ↔ donor ∈ donors) :
    (donors.map contributions).sum = ∑ donor, contributions donor := by
  rw [← List.sum_toFinset _ hnodup]
  refine Finset.sum_subset (Finset.subset_univ _) ?_
  intro donor _ hnone
  rw [List.mem_toFinset, ← hall donor] at hnone
  exact Nat.eq_zero_of_not_pos hnone

/-- When every donor reclaims, each gets at least the rounded share of the available
balance and at most the exact share plus one wei for each donor before it, and together
they get all of it. -/
theorem dormancy_sweep {payouts : List (Address × Nat)}
    (hcredited : account.paymaster.outstanding = ∑ donor, account.paymaster.contributions donor)
    (hsweep : Sweep params account payouts final) (hnodup : (payouts.map Prod.fst).Nodup)
    (hall : ∀ donor, 0 < account.paymaster.contributions donor ↔ donor ∈ payouts.map Prod.fst)
    (hsome : payouts ≠ []) :
    (∀ (j : Nat) (donor : Address) (payout : Nat), payouts[j]? = some (donor, payout) →
      account.paymaster.contributions donor * account.available / account.paymaster.outstanding ≤
          payout ∧
        payout * account.paymaster.outstanding ≤
          account.paymaster.contributions donor * account.available +
            j * account.paymaster.outstanding) ∧
    (payouts.map Prod.snd).sum = account.available ∧
    final.paymaster.outstanding = 0 := by
  obtain ⟨hpayouts, hfinal, _⟩ := hsweep.proRata hnodup
  have hweights : ∀ weight ∈ payouts.map fun payout => account.paymaster.contributions payout.1,
      0 < weight := by
    intro weight hmem
    obtain ⟨payout, hpayout, rfl⟩ := List.mem_map.mp hmem
    exact (hall payout.1).mpr (List.mem_map_of_mem hpayout)
  have hsum : (payouts.map fun payout => account.paymaster.contributions payout.1).sum =
      account.paymaster.outstanding := by
    rw [hcredited, ← contributions_sum hnodup hall, List.map_map]
    rfl
  refine ⟨?_, ?_, ?_⟩
  · intro j donor payout hentry
    have hdonor : 0 < account.paymaster.contributions donor :=
      (hall donor).mpr (List.mem_map.mpr ⟨_, List.mem_of_getElem? hentry, rfl⟩)
    have htotal : 0 < account.paymaster.outstanding := by
      rw [hcredited]
      exact hdonor.trans_le (Finset.single_le_sum (fun _ _ => Nat.zero_le _) (Finset.mem_univ donor))
    have hweight : (payouts.map fun payout => account.paymaster.contributions payout.1)[j]? =
        some (account.paymaster.contributions donor) := by
      rw [List.getElem?_map, hentry]
      rfl
    have hpaid : (payouts.map Prod.snd)[j]? = some payout := by
      rw [List.getElem?_map, hentry]
      rfl
    rw [hpayouts] at hpaid
    have hfair := proRata_fair (.start _ _) htotal hweights hsum.le hweight hpaid
    rwa [Nat.mul_comm account.available, Nat.zero_add] at hfair
  · rw [hpayouts]
    refine proRata_sum ?_ hweights hsum
    rwa [Ne, List.map_eq_nil_iff]
  · rw [hfinal, hsum, Nat.sub_self]

end

/-! ## Two donors

They gave one and two wei, and seven more were forced in. -/

def sharedAccount : PaymasterAccount where
  paymaster :=
    { Paymaster.deployed fundedDeployment.params stakeBlock with
      contributions := Function.update (Function.update (fun _ => 0) sampleDonor 1)
        sampleOperator 2
      outstanding := 3 }
  balance := 10
  log := [(7, .donated sampleDonor 1), (7, .donated sampleOperator 2)]

theorem sharedAccount_reachable :
    PaymasterReachable fundedDeployment.params lapseBlock sharedAccount := by
  have hfirst := (PaymasterReachable.deployed stakeBlock).step
    (@PaymasterStep.donates fundedDeployment.params _ _ sampleDonor 1 _ (by decide) rfl)
  have hsecond := hfirst.step (@PaymasterStep.donates _ _ _ sampleOperator 2 _ (by decide) rfl)
  have hforced := hsecond.step (@PaymasterStep.forced _ _ _ 7 (by decide))
  exact hforced.advance (show stakeBlock.timestamp ≤ lapseBlock.timestamp by decide)

theorem sharedAccount_donors (donor : Address) :
    0 < sharedAccount.paymaster.contributions donor ↔ donor ∈ [sampleOperator, sampleDonor] := by
  have hne : sampleDonor ≠ sampleOperator := by decide
  change 0 < Function.update (Function.update (fun _ => 0) sampleDonor 1) sampleOperator 2 donor ↔ _
  by_cases hoperator : donor = sampleOperator
  · subst hoperator
    simp
  · by_cases hdonor : donor = sampleDonor
    · subst hdonor
      simp [Function.update_of_ne hne]
    · simp [hoperator, hdonor]

theorem dormancy_sweep_shared : ∃ final, Sweep fundedDeployment.params sharedAccount
    [(sampleOperator, 6), (sampleDonor, 4)] final ∧ final.paymaster.outstanding = 0 := by
  have hsweep : Sweep fundedDeployment.params sharedAccount
      [(sampleOperator, 6), (sampleDonor, 4)] _ :=
    @Sweep.reclaims _ lapseBlock _ _ _ _ 7 _ _ _ _ rfl rfl (.pushes rfl (by decide)) (.refl _)
      (@Sweep.reclaims _ lapseBlock _ _ _ _ 7 _ _ _ _ rfl rfl (.pushes rfl (by decide)) (.refl _)
        .done)
  exact ⟨_, hsweep, (dormancy_sweep sharedAccount_reachable.ledgered.credited hsweep (by decide)
    sharedAccount_donors (List.cons_ne_nil _ _)).2.2⟩

end Blobsitter.Contract
