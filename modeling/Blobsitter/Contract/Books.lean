import Blobsitter.Contract.StoreInvariant

/-!
# The books of stakes and bonds

Every provider's counter is the number of its unresolved challenges, statuses only
move forward, and every stake and every bond leaves the books once.
-/

namespace Blobsitter.Contract

open Library
open Reference (Chunk Hash Address)

section

variable {keccak256 : ByteString → Hash} {dep : Deployment} {block : Block} {msg : Msg}

@[simp] theorem Storage.setProvider_providers (s : Storage) (id : Nat) (p : Provider) :
    (s.setProvider id p).providers = Function.update s.providers id p := rfl

@[simp] theorem Storage.setProvider_challengeRecords (s : Storage) (id : Nat) (p : Provider) :
    (s.setProvider id p).challengeRecords = s.challengeRecords := rfl

@[simp] theorem Storage.setProvider_nextProviderId (s : Storage) (id : Nat) (p : Provider) :
    (s.setProvider id p).nextProviderId = s.nextProviderId := rfl

@[simp] theorem Storage.setProvider_nextChallengeId (s : Storage) (id : Nat) (p : Provider) :
    (s.setProvider id p).nextChallengeId = s.nextChallengeId := rfl

theorem slashSplit_eq_ok {bounty remainder : Nat}
    (hsplit : slashSplit dep = .ok (bounty, remainder)) :
    bounty = dep.params.stakeWei * dep.params.bountyBps / 10000 ∧
      bounty + remainder = dep.params.stakeWei := by
  unfold slashSplit at hsplit
  cases hproduct : checkedMul 256 dep.params.stakeWei dep.params.bountyBps with
  | error code =>
      rw [hproduct] at hsplit
      cases hsplit
  | ok product =>
      rw [hproduct] at hsplit
      obtain ⟨_, rfl⟩ := checkedMul_eq_ok.mp hproduct
      cases hsub : checkedSub dep.params.stakeWei
          (dep.params.stakeWei * dep.params.bountyBps / 10000) with
      | error code =>
          simp only [bind, Except.bind, hsub] at hsplit
          cases hsplit
      | ok rest =>
          simp only [bind, Except.bind, hsub] at hsplit
          cases hsplit
          obtain ⟨hle, rfl⟩ := checkedSub_eq_ok.mp hsub
          exact ⟨rfl, Nat.add_sub_cancel' hle⟩

theorem slashSplit_ok (hfits : dep.params.stakeWei * dep.params.bountyBps < 2 ^ 256)
    (hle : dep.params.stakeWei * dep.params.bountyBps / 10000 ≤ dep.params.stakeWei) :
    slashSplit dep = .ok (dep.params.stakeWei * dep.params.bountyBps / 10000,
      dep.params.stakeWei - dep.params.stakeWei * dep.params.bountyBps / 10000) := by
  unfold slashSplit
  rw [checkedMul_ok hfits]
  simp only [bind, Except.bind, checkedSub_ok hle]
  rfl

/-! ## Well-formed records -/

/-- Ids of the unresolved challenges of a provider. -/
def Storage.unresolved (s : Storage) (id : Nat) : Finset Nat :=
  (Finset.range s.nextChallengeId).filter fun challengeId =>
    (s.challengeRecords challengeId).providerId = id ∧
      (s.challengeRecords challengeId).resolved = false

/-- One for an unresolved challenge of the provider, zero for any other record. -/
def Challenge.countsFor (id : Nat) (c : Challenge) : Nat :=
  if c.providerId = id ∧ c.resolved = false then 1 else 0

theorem Storage.card_unresolved (s : Storage) (id : Nat) :
    (s.unresolved id).card =
      recordSum (Challenge.countsFor id) s.nextChallengeId s.challengeRecords :=
  Finset.card_filter _ _

/-- Records exist exactly below the next ids, and counters count. -/
structure Storage.WellFormed (s : Storage) : Prop where
  unassigned : ∀ id, s.nextProviderId ≤ id → s.providers id = .empty
  unopened : ∀ challengeId, s.nextChallengeId ≤ challengeId →
    s.challengeRecords challengeId = .empty
  opened : ∀ challengeId < s.nextChallengeId,
    (s.challengeRecords challengeId).challenger ≠ zeroAddress ∧
      (s.providers (s.challengeRecords challengeId).providerId).status ≠ .none
  counter : ∀ id, (s.providers id).openChallenges = (s.unresolved id).card
  exited : ∀ id, (s.providers id).status = .exited → (s.providers id).openChallenges = 0

namespace Storage.WellFormed

variable {s : Storage}

theorem assigned (hwf : s.WellFormed) {id : Nat} (hstatus : (s.providers id).status ≠ .none) :
    id < s.nextProviderId := by
  by_contra hge
  rw [hwf.unassigned id (not_lt.mp hge)] at hstatus
  exact hstatus rfl

theorem openedBelow (hwf : s.WellFormed) {challengeId : Nat}
    (hopened : (s.challengeRecords challengeId).challenger ≠ zeroAddress) :
    challengeId < s.nextChallengeId := by
  by_contra hge
  rw [hwf.unopened challengeId (not_lt.mp hge)] at hopened
  exact hopened rfl

/-- Only the records and their counts matter. -/
theorem of_same (hwf : s.WellFormed) {next : Storage}
    (hproviders : next.providers = s.providers)
    (hproviderId : next.nextProviderId = s.nextProviderId)
    (hchallenges : next.challengeRecords = s.challengeRecords)
    (hchallengeId : next.nextChallengeId = s.nextChallengeId) : next.WellFormed := by
  have hunresolved : ∀ id, next.unresolved id = s.unresolved id := by
    intro id
    unfold Storage.unresolved
    rw [hchallenges, hchallengeId]
  constructor
  · rw [hproviders, hproviderId]
    exact hwf.unassigned
  · rw [hchallenges, hchallengeId]
    exact hwf.unopened
  · rw [hchallenges, hchallengeId, hproviders]
    exact hwf.opened
  · intro id
    rw [hproviders, hunresolved]
    exact hwf.counter id
  · rw [hproviders]
    exact hwf.exited

/-- A new record for an assigned provider that keeps its counter. -/
theorem setProvider (hwf : s.WellFormed) {id : Nat} {p : Provider}
    (hassigned : (s.providers id).status ≠ .none) (hstatus : p.status ≠ .none)
    (hopen : p.openChallenges = (s.providers id).openChallenges)
    (hexited : p.status = .exited → p.openChallenges = 0) : (s.setProvider id p).WellFormed := by
  constructor
  · intro other hother
    have hlt := hwf.assigned hassigned
    rw [Storage.setProvider_providers, Function.update_of_ne (Nat.ne_of_gt (hlt.trans_le hother))]
    exact hwf.unassigned other hother
  · exact hwf.unopened
  · intro challengeId hlt
    refine ⟨(hwf.opened challengeId hlt).1, ?_⟩
    rw [Storage.setProvider_providers, Function.update_apply]
    split
    · exact hstatus
    · exact (hwf.opened challengeId hlt).2
  · intro other
    change _ = (s.unresolved other).card
    rw [← hwf.counter other, Storage.setProvider_providers, Function.update_apply]
    split
    · rename_i heq
      rw [heq, hopen]
    · rfl
  · intro other
    rw [Storage.setProvider_providers, Function.update_apply]
    split
    · exact hexited
    · exact hwf.exited other

theorem addProvider (hwf : s.WellFormed) (operator withdrawal : Address) (anchor : Nat) :
    (s.addProvider operator withdrawal anchor).WellFormed := by
  have hempty := hwf.unassigned s.nextProviderId le_rfl
  constructor
  · intro other hother
    change s.nextProviderId + 1 ≤ other at hother
    change Function.update s.providers s.nextProviderId _ other = .empty
    rw [Function.update_of_ne (by omega)]
    exact hwf.unassigned other (by omega)
  · exact hwf.unopened
  · intro challengeId hlt
    refine ⟨(hwf.opened challengeId hlt).1, ?_⟩
    change (Function.update s.providers s.nextProviderId _ _).status ≠ .none
    rw [Function.update_apply]
    split
    · intro hnone
      cases hnone
    · exact (hwf.opened challengeId hlt).2
  · intro other
    change (Function.update s.providers s.nextProviderId _ other).openChallenges =
      (s.unresolved other).card
    rw [← hwf.counter other, Function.update_apply]
    split
    · rename_i heq
      rw [heq]
    · rfl
  · intro other
    change (Function.update s.providers s.nextProviderId _ other).status = .exited →
      (Function.update s.providers s.nextProviderId _ other).openChallenges = 0
    rw [Function.update_apply]
    split
    · intro hexited
      cases hexited
    · exact hwf.exited other

theorem addChallenge (hwf : s.WellFormed) {c : Challenge} (hchallenger : c.challenger ≠ zeroAddress)
    (hunresolved : c.resolved = false) (hnone : (s.providers c.providerId).status ≠ .none)
    (hexited : (s.providers c.providerId).status ≠ .exited) : (s.addChallenge c).WellFormed := by
  have hproviders : (s.addChallenge c).providers = Function.update s.providers c.providerId
      { s.providers c.providerId with
        openChallenges := (s.providers c.providerId).openChallenges + 1 } := rfl
  have hrecords : (s.addChallenge c).challengeRecords =
      Function.update s.challengeRecords s.nextChallengeId c := rfl
  have hstatus : ∀ id, ((s.addChallenge c).providers id).status = (s.providers id).status := by
    intro id
    rw [hproviders, Function.update_apply]
    split
    · rename_i heq
      rw [heq]
    · rfl
  constructor
  · intro other hother
    have hlt := hwf.assigned hnone
    rw [hproviders, Function.update_of_ne (Nat.ne_of_gt (hlt.trans_le hother))]
    exact hwf.unassigned other hother
  · intro challengeId hge
    change s.nextChallengeId + 1 ≤ challengeId at hge
    rw [hrecords, Function.update_of_ne (by omega)]
    exact hwf.unopened challengeId (by omega)
  · intro challengeId hlt
    change challengeId < s.nextChallengeId + 1 at hlt
    rw [hstatus, hrecords, Function.update_apply]
    split
    · exact ⟨hchallenger, hnone⟩
    · exact hwf.opened challengeId (by omega)
  · intro other
    rw [Storage.card_unresolved, hrecords]
    change _ = recordSum _ (s.nextChallengeId + 1) _
    rw [recordSum_push, ← Storage.card_unresolved, ← hwf.counter other, hproviders,
      Function.update_apply, Challenge.countsFor]
    split
    · rename_i heq
      rw [heq, if_pos ⟨rfl, hunresolved⟩]
    · rename_i hne
      rw [if_neg fun hboth => hne hboth.1.symm, Nat.add_zero]
  · intro other
    rw [hstatus, hproviders, Function.update_apply]
    split
    · rename_i heq
      intro hstop
      rw [heq] at hstop
      exact absurd hstop hexited
    · exact hwf.exited other

theorem resolve (hwf : s.WellFormed) {challengeId : Nat} {status : ProviderStatus}
    (hopened : (s.challengeRecords challengeId).challenger ≠ zeroAddress)
    (hunresolved : (s.challengeRecords challengeId).resolved = false)
    (hnone : status ≠ .none) (hexited : status ≠ .exited) :
    (s.resolve challengeId status).WellFormed := by
  have hbelow := hwf.openedBelow hopened
  have hproviders : (s.resolve challengeId status).providers =
      Function.update s.providers (s.challengeRecords challengeId).providerId
        { s.providers (s.challengeRecords challengeId).providerId with
          openChallenges :=
            (s.providers (s.challengeRecords challengeId).providerId).openChallenges - 1
          status := status } := rfl
  have hrecords : (s.resolve challengeId status).challengeRecords =
      Function.update s.challengeRecords challengeId
        { s.challengeRecords challengeId with resolved := true } := rfl
  constructor
  · intro other hother
    have hlt := hwf.assigned (hwf.opened challengeId hbelow).2
    rw [hproviders, Function.update_of_ne (Nat.ne_of_gt (hlt.trans_le hother))]
    exact hwf.unassigned other hother
  · intro other hge
    rw [hrecords, Function.update_of_ne (Nat.ne_of_gt (hbelow.trans_le hge))]
    exact hwf.unopened other hge
  · intro other hlt
    obtain ⟨hchallenger, hassigned⟩ := hwf.opened other hlt
    have hsame : ((s.resolve challengeId status).challengeRecords other).challenger =
        (s.challengeRecords other).challenger ∧
        ((s.resolve challengeId status).challengeRecords other).providerId =
          (s.challengeRecords other).providerId := by
      rw [hrecords, Function.update_apply]
      split
      · rename_i heq
        exact ⟨by rw [heq], by rw [heq]⟩
      · exact ⟨rfl, rfl⟩
    rw [hsame.1, hsame.2, hproviders, Function.update_apply]
    refine ⟨hchallenger, ?_⟩
    split
    · exact hnone
    · exact hassigned
  · intro other
    have hupdate := recordSum_update (Challenge.countsFor other) s.nextChallengeId
      s.challengeRecords hbelow { s.challengeRecords challengeId with resolved := true }
    have hafter : Challenge.countsFor other
        { s.challengeRecords challengeId with resolved := true } = 0 := by
      rw [Challenge.countsFor, if_neg]
      rintro ⟨_, hfalse⟩
      cases hfalse
    rw [Storage.card_unresolved, hrecords]
    change _ = recordSum _ s.nextChallengeId _
    rw [hafter, ← Storage.card_unresolved, ← hwf.counter other, Challenge.countsFor] at hupdate
    rw [hproviders, Function.update_apply]
    split
    · rename_i heq
      rw [if_pos ⟨heq.symm, hunresolved⟩, heq] at hupdate
      change _ - 1 = _
      rw [heq]
      omega
    · rename_i hne
      rw [if_neg fun hboth => hne hboth.1.symm] at hupdate
      exact hupdate.symm
  · intro other
    rw [hproviders, Function.update_apply]
    split
    · intro hstop
      exact absurd hstop hexited
    · exact hwf.exited other

/-- A challenge that is still open has been counted. -/
theorem openChallenges_pos (hwf : s.WellFormed) {challengeId : Nat}
    (hopened : (s.challengeRecords challengeId).challenger ≠ zeroAddress)
    (hunresolved : (s.challengeRecords challengeId).resolved = false) :
    0 < (s.providers (s.challengeRecords challengeId).providerId).openChallenges := by
  rw [hwf.counter, Finset.card_pos]
  exact ⟨challengeId, Finset.mem_filter.mpr
    ⟨Finset.mem_range.mpr (hwf.openedBelow hopened), rfl, hunresolved⟩⟩

/-- So its provider has not exited. -/
theorem not_exited (hwf : s.WellFormed) {challengeId : Nat}
    (hopened : (s.challengeRecords challengeId).challenger ≠ zeroAddress)
    (hunresolved : (s.challengeRecords challengeId).resolved = false) :
    (s.providers (s.challengeRecords challengeId).providerId).status ≠ .exited := by
  intro hexited
  have hzero := hwf.exited _ hexited
  exact Nat.ne_of_gt (hwf.openChallenges_pos hopened hunresolved) hzero

end Storage.WellFormed

theorem challengePin_eq_ok {s : Storage} {p : Provider} {root : Hash} {leafCount : Nat}
    (hpin : challengePin keccak256 dep block s p = .ok (root, leafCount)) :
    p.status = .active ∧ root = MMR.bagRoot keccak256 s.leafCount s.peaks ∧
        leafCount = s.leafCount ∨
      p.status = .unbonding ∧ block.timestamp < p.unbondingAt + dep.params.unbondingDelay ∧
        root = p.exitRoot ∧ leafCount = p.exitLeafCount := by
  unfold challengePin at hpin
  split at hpin
  · cases hpin
    exact Or.inl ⟨‹_›, rfl, rfl⟩
  · split at hpin
    · simp only [bind_eq_ok, orPanic_eq_ok, checkedAdd_eq_ok, revertIf_eq_ok, not_not, pure_eq_ok,
        Prod.mk.injEq] at hpin
      obtain ⟨_, ⟨_, rfl⟩, _, htime, rfl, rfl⟩ := hpin
      exact Or.inr ⟨‹_›, htime, rfl, rfl⟩
    · cases hpin

theorem Change.wellFormed {s : Storage} {call : Call} {out : Outcome}
    (hchange : Change keccak256 dep block msg s call out) (houtside : Outside dep msg.sender)
    (hwf : s.WellFormed) : out.storage.WellFormed := by
  have hassigned : ∀ {id : Nat} {status : ProviderStatus}, (s.providers id).status = status →
      status ≠ .none → (s.providers id).status ≠ .none := by
    rintro id status rfl hne
    exact hne
  cases hchange with
  | declared _ _ hsame =>
      exact hwf.of_same hsame.providers hsame.nextProviderId hsame.challengeRecords
        hsame.nextChallengeId
  | pointed _ haccepted =>
      have hsame := haccepted.same
      exact hwf.of_same hsame.providers hsame.nextProviderId hsame.challengeRecords
        hsame.nextChallengeId
  | noted => exact hwf
  | claimed => exact hwf.of_same rfl rfl rfl rfl
  | staked => exact hwf.addProvider _ _ _
  | unbonded _ _ hstatus =>
      refine hwf.setProvider (hassigned hstatus (by decide))
        (show ProviderStatus.unbonding ≠ .none by decide) rfl ?_
      intro hexited
      cases hexited
  | withdrawn _ hstatus _ _ hopen =>
      exact hwf.setProvider (hassigned hstatus (by decide))
        (show ProviderStatus.exited ≠ .none by decide) rfl fun _ => hopen
  | committed _ _ hstatus =>
      exact hwf.setProvider (hassigned hstatus (by decide)) (hassigned hstatus (by decide)) rfl
        (hwf.exited _)
  | proven _ _ _ hstatus =>
      exact hwf.setProvider (hassigned hstatus (by decide)) (hassigned hstatus (by decide)) rfl
        (hwf.exited _)
  | lapsed _ hstatus =>
      refine hwf.setProvider (hassigned hstatus (by decide))
        (show ProviderStatus.slashed ≠ .none by decide) rfl ?_
      intro hexited
      cases hexited
  | challenged hnone hpin =>
      refine hwf.addChallenge houtside.1 ?_ hnone ?_
      · rw [hwf.unopened _ le_rfl]
        rfl
      · intro hexited
        rcases challengePin_eq_ok hpin with ⟨hactive, _⟩ | ⟨hunbonding, _⟩
        · rw [hexited] at hactive
          cases hactive
        · rw [hexited] at hunbonding
          cases hunbonding
  | answered _ hopened _ _ hunresolved =>
      exact hwf.resolve hopened hunresolved (hwf.opened _ (hwf.openedBelow hopened)).2
        (hwf.not_exited hopened hunresolved)
  | timedOut _ hopened hunresolved =>
      exact hwf.resolve hopened hunresolved (by decide) (by decide)
  | refunded _ hopened hunresolved =>
      exact hwf.resolve hopened hunresolved (by decide) (by decide)

end

end Blobsitter.Contract
