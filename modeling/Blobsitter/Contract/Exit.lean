import Blobsitter.Contract.Answers
import Blobsitter.Contract.Lapse

/-!
# Leaving

A challenge against a leaving provider was opened before its unbonding delay ran out.
An answer is accepted before the response deadline and a timeout from then on, so a
bounded time after a provider began to leave nothing about it is open any more.
-/

namespace Blobsitter.Contract

open Library
open Reference (Chunk Hash Address)

section

variable {keccak256 : ByteString → Hash} {dep : Deployment} {block : Block} {msg : Msg}
variable {s : Storage}

/-- A provider that is leaving after a call was leaving before, since the same time, or
leaves with this call. -/
inductive LeaveStep (block : Block) (p next : Provider) : Prop where
  | stays (hstatus : next.status ≠ .unbonding) : LeaveStep block p next
  | kept (hstatus : p.status = .unbonding) (htime : next.unbondingAt = p.unbondingAt) :
      LeaveStep block p next
  | leaves (hstatus : p.status = .active) (htime : next.unbondingAt = block.timestamp) :
      LeaveStep block p next

theorem LeaveStep.of_same {p next : Provider} (hstatus : next.status = p.status)
    (htime : next.unbondingAt = p.unbondingAt) : LeaveStep block p next := by
  by_cases hunbonding : p.status = .unbonding
  · exact .kept hunbonding htime
  · exact .stays (by rwa [hstatus])

theorem LeaveStep.update {providers : Nat → Provider} {id : Nat} {next : Provider}
    (hstep : LeaveStep block (providers id) next) (other : Nat) :
    LeaveStep block (providers other) (Function.update providers id next other) := by
  by_cases heq : other = id
  · subst heq
    rw [Function.update_self]
    exact hstep
  · rw [Function.update_of_ne heq]
    exact .of_same rfl rfl

theorem Change.leaveStep {call : Call} {out : Outcome}
    (hchange : Change keccak256 dep block msg s call out) (id : Nat) :
    LeaveStep block (s.providers id) (out.storage.providers id) := by
  have hslashed : ProviderStatus.slashed ≠ .unbonding := by decide
  cases hchange with
  | declared _ _ hsame =>
      rw [hsame.providers]
      exact .of_same rfl rfl
  | pointed _ haccepted =>
      rw [haccepted.same.providers]
      exact .of_same rfl rfl
  | noted => exact .of_same rfl rfl
  | claimed => exact .of_same rfl rfl
  | staked =>
      refine LeaveStep.update (.stays ?_) id
      change ProviderStatus.active ≠ .unbonding
      decide
  | unbonded _ _ hstatus =>
      exact LeaveStep.update (.leaves hstatus (Nat.mod_eq_of_lt block.timestamp_lt)) id
  | withdrawn =>
      refine LeaveStep.update (.stays ?_) id
      change ProviderStatus.exited ≠ .unbonding
      decide
  | committed =>
      refine LeaveStep.update ?_ id
      exact .of_same rfl rfl
  | proven =>
      refine LeaveStep.update ?_ id
      exact .of_same rfl rfl
  | lapsed => exact LeaveStep.update (.stays hslashed) id
  | challenged =>
      refine LeaveStep.update ?_ id
      exact .of_same rfl rfl
  | answered =>
      refine LeaveStep.update ?_ id
      exact .of_same rfl rfl
  | timedOut => exact LeaveStep.update (.stays hslashed) id
  | refunded => exact LeaveStep.update (.stays hslashed) id

/-- No challenge was opened after the delay of its provider, or in the future. -/
structure ExitBound (dep : Deployment) (block : Block) (s : Storage) : Prop where
  wellFormed : s.WellFormed
  past : ∀ challengeId < s.nextChallengeId,
    (s.challengeRecords challengeId).openedAt ≤ block.timestamp
  bound : ∀ challengeId < s.nextChallengeId,
    (s.providers (s.challengeRecords challengeId).providerId).status = .unbonding →
    (s.challengeRecords challengeId).openedAt ≤
      (s.providers (s.challengeRecords challengeId).providerId).unbondingAt +
        dep.params.unbondingDelay

theorem challengePin_inside {p : Provider} {pin : Hash × Nat}
    (hpin : challengePin keccak256 dep block s p = .ok pin) :
    p.status = .active ∨
      p.status = .unbonding ∧ block.timestamp < p.unbondingAt + dep.params.unbondingDelay := by
  rcases challengePin_eq_ok hpin with ⟨hactive, _⟩ | ⟨hunbonding, htime, _⟩
  · exact Or.inl hactive
  · exact Or.inr ⟨hunbonding, htime⟩

/-- A new challenge is opened now, against an active provider or inside the delay of a
leaving one. -/
theorem Change.opens_now {call : Call} {out : Outcome}
    (hchange : Change keccak256 dep block msg s call out) :
    out.storage.nextChallengeId = s.nextChallengeId ∨
      ∃ id, out.storage.nextChallengeId = s.nextChallengeId + 1 ∧
        (out.storage.challengeRecords s.nextChallengeId).providerId = id ∧
        (out.storage.challengeRecords s.nextChallengeId).openedAt = block.timestamp ∧
        ((out.storage.providers id).status = .active ∨
          (out.storage.providers id).status = .unbonding ∧
            block.timestamp < (out.storage.providers id).unbondingAt + dep.params.unbondingDelay) := by
  cases hchange with
  | declared _ _ hsame => exact Or.inl hsame.nextChallengeId
  | pointed _ haccepted => exact Or.inl haccepted.same.nextChallengeId
  | @challenged id indices root leafCount _ hpin =>
      have hrecord : ∀ c : Challenge, (s.addChallenge c).challengeRecords s.nextChallengeId = c :=
        fun c => Function.update_self _ _ _
      have hprovider : ∀ c : Challenge, c.providerId = id → (s.addChallenge c).providers id =
          { s.providers id with openChallenges := (s.providers id).openChallenges + 1 } := by
        rintro c rfl
        exact Function.update_self _ _ _
      refine Or.inr ⟨id, rfl, ?_, ?_, ?_⟩
      · simp only [Outcome.plain, hrecord]
      · simp only [Outcome.plain, hrecord]
        exact Nat.mod_eq_of_lt block.timestamp_lt
      · simp only [Outcome.plain, hprovider]
        exact challengePin_inside hpin
  | _ => exact Or.inl rfl

theorem ExitBound.change (hexit : ExitBound dep block s) (houtside : Outside dep msg.sender)
    {call : Call} {out : Outcome} (hchange : Change keccak256 dep block msg s call out) :
    ExitBound dep block out.storage := by
  have hwf := hexit.wellFormed
  have hold : ∀ challengeId < s.nextChallengeId,
      (out.storage.challengeRecords challengeId).openedAt ≤ block.timestamp ∧
        ((out.storage.providers (out.storage.challengeRecords challengeId).providerId).status =
            .unbonding →
          (out.storage.challengeRecords challengeId).openedAt ≤
            (out.storage.providers (out.storage.challengeRecords challengeId).providerId).unbondingAt +
              dep.params.unbondingDelay) := by
    intro challengeId hbelow
    obtain ⟨resolved, hrecord⟩ :=
      (hchange.bondStep hwf challengeId).kept_record (hwf.record_ne_empty hbelow)
    have hpast := hexit.past challengeId hbelow
    rw [hrecord]
    refine ⟨hpast, ?_⟩
    simp only
    intro hunbonding
    cases hchange.leaveStep (s.challengeRecords challengeId).providerId with
    | stays hstatus => exact absurd hunbonding hstatus
    | kept hstatus htime =>
        rw [htime]
        exact hexit.bound challengeId hbelow hstatus
    | leaves _ htime =>
        rw [htime]
        omega
  have hwf' := hchange.wellFormed houtside hwf
  rcases hchange.opens_now with hsame | ⟨id, hnext, hid, hopened, hinside⟩
  · refine ⟨hwf', ?_, ?_⟩
    · rw [hsame]
      exact fun challengeId hbelow => (hold challengeId hbelow).1
    · rw [hsame]
      exact fun challengeId hbelow => (hold challengeId hbelow).2
  · refine ⟨hwf', ?_, ?_⟩
    · intro challengeId hbelow
      rw [hnext] at hbelow
      rcases Nat.lt_succ_iff_lt_or_eq.mp hbelow with hlt | rfl
      · exact (hold challengeId hlt).1
      · exact hopened.le
    · intro challengeId hbelow hunbonding
      rw [hnext] at hbelow
      rcases Nat.lt_succ_iff_lt_or_eq.mp hbelow with hlt | rfl
      · exact (hold challengeId hlt).2 hunbonding
      · rw [hid] at hunbonding ⊢
        rw [hopened]
        rcases hinside with hactive | ⟨_, htime⟩
        · rw [hactive] at hunbonding
          cases hunbonding
        · exact htime.le

theorem exit_invariant :
    StoreInvariant keccak256 dep fun block s _ _ => ExitBound dep block s where
  change hexit houtside _ hchange := hexit.change houtside hchange
  quiet _ _ hexit _ := ⟨hexit.wellFormed.of_same rfl rfl rfl rfl, hexit.past, hexit.bound⟩
  advance hexit hle :=
    ⟨hexit.wellFormed, fun challengeId hbelow => (hexit.past challengeId hbelow).trans hle,
      hexit.bound⟩

theorem Reachable.exitBound {world : World} (hreach : Reachable keccak256 dep world) :
    ExitBound dep world.env world.state.store := by
  refine (hreach.holds exit_invariant.preserves ?_).state
  intro block
  refine ⟨(deployed_distributed block).wellFormed, ?_, ?_⟩
  · intro challengeId hbelow
    exact absurd hbelow (Nat.not_lt_zero _)
  · intro challengeId hbelow
    exact absurd hbelow (Nat.not_lt_zero _)

/-! ## The two windows -/

theorem checkProofs_ne_closed {indices : List Nat} {n : Nat} {peaks : List Hash}
    {proofs : List ChunkProof} {j deadline : Nat} :
    checkProofs keccak256 indices n peaks proofs j ≠ .error (.responseWindowClosed deadline) := by
  induction proofs generalizing j with
  | nil =>
      intro herror
      cases herror
  | cons proof rest ih =>
      intro herror
      rcases bind_eq_error.mp herror with hload | ⟨_, _, herror⟩
      · obtain ⟨_, _, hcode⟩ := orPanic_eq_error.mp hload
        cases hcode
      rcases bind_eq_error.mp herror with hverify | ⟨_, _, herror⟩
      · obtain ⟨_, _, hcode⟩ := orPanic_eq_error.mp hverify
        cases hcode
      exact ih (revertIf_passed herror (by simp)).2

/-- An accepted answer is in time. -/
theorem respond_before {challengeId : Nat} {indices : List Nat} {n : Nat} {peaks : List Hash}
    {proofs : List ChunkProof} {out : Outcome}
    (hok : respond keccak256 dep block msg s challengeId indices n peaks proofs = .ok out) :
    (s.challengeRecords challengeId).challenger ≠ zeroAddress ∧ block.timestamp <
      (s.challengeRecords challengeId).openedAt + dep.params.responseWindow := by
  simp only [respond, bind_eq_ok, revertIf_eq_ok, orPanic_eq_ok, checkedAdd_eq_ok,
    challengeRecord_eq_ok] at hok
  obtain ⟨_, ⟨hopened, rfl⟩, _, _, _, ⟨_, rfl⟩, _, htime, _⟩ := hok
  exact ⟨hopened, not_le.mp htime⟩

/-- An accepted challenge is against an active provider, or inside a leaving one's delay. -/
theorem challenge_inside {id : Nat} {indices : List Nat} {out : Outcome}
    (hok : challenge keccak256 dep block msg s id indices = .ok out) :
    (s.providers id).status = .active ∨ (s.providers id).status = .unbonding ∧
      block.timestamp < (s.providers id).unbondingAt + dep.params.unbondingDelay := by
  simp only [challenge, bind_eq_ok, provider_eq_ok] at hok
  obtain ⟨_, ⟨_, rfl⟩, pin, hpin, _⟩ := hok
  exact challengePin_inside hpin

/-- An answer of the operator comes too late exactly from the deadline on. -/
theorem respond_closed_iff {challengeId : Nat} {indices : List Nat} {n : Nat} {peaks : List Hash}
    {proofs : List ChunkProof} (hopened : (s.challengeRecords challengeId).challenger ≠ zeroAddress)
    (hfits : (s.challengeRecords challengeId).openedAt + dep.params.responseWindow < 2 ^ 64)
    (hsender : msg.sender = (s.providers (s.challengeRecords challengeId).providerId).operator) :
    (∃ deadline, respond keccak256 dep block msg s challengeId indices n peaks proofs =
        .error (.responseWindowClosed deadline)) ↔
      (s.challengeRecords challengeId).openedAt + dep.params.responseWindow ≤ block.timestamp := by
  have hrecord : challengeRecord s challengeId = .ok (s.challengeRecords challengeId) :=
    challengeRecord_eq_ok.mpr ⟨hopened, rfl⟩
  unfold respond
  simp only [hrecord, ok_bind, revertIf_ok (not_not_intro hsender), checkedAdd_ok hfits,
    Checked.orPanic]
  constructor
  · rintro ⟨deadline, herror⟩
    by_contra hbefore
    rcases bind_eq_error.mp herror with hwindow | ⟨_, _, herror⟩
    · exact hbefore (revertIf_eq_error.mp hwindow).1
    obtain ⟨_, herror⟩ := revertIf_passed herror (by simp)
    obtain ⟨_, herror⟩ := revertIf_passed herror (by simp)
    obtain ⟨_, herror⟩ := revertIf_passed herror (by simp)
    obtain ⟨_, herror⟩ := revertIf_passed herror (by simp)
    obtain ⟨_, herror⟩ := revertIf_passed herror (by simp)
    rcases bind_eq_error.mp herror with hproofs | ⟨_, _, herror⟩
    · exact checkProofs_ne_closed hproofs
    rcases bind_eq_error.mp herror with hcounter | ⟨_, _, hreturn⟩
    · obtain ⟨_, _, hcode⟩ := orPanic_eq_error.mp hcounter
      cases hcode
    · cases hreturn
  · intro hlate
    exact ⟨_, bind_eq_error.mpr (Or.inl (revertIf_eq_error.mpr ⟨hlate, rfl⟩))⟩

/-- A timeout of an unresolved challenge comes too early exactly before the deadline. -/
theorem resolveTimeout_open_iff {challengeId : Nat}
    (hopened : (s.challengeRecords challengeId).challenger ≠ zeroAddress)
    (hunresolved : (s.challengeRecords challengeId).resolved = false)
    (hfits : (s.challengeRecords challengeId).openedAt + dep.params.responseWindow < 2 ^ 64) :
    (∃ deadline, resolveTimeout dep block msg s challengeId =
        .error (.responseWindowStillOpen deadline)) ↔
      block.timestamp < (s.challengeRecords challengeId).openedAt + dep.params.responseWindow := by
  have hrecord : challengeRecord s challengeId = .ok (s.challengeRecords challengeId) :=
    challengeRecord_eq_ok.mpr ⟨hopened, rfl⟩
  have hpending : ¬(s.challengeRecords challengeId).resolved = true := by
    rw [hunresolved]
    exact Bool.false_ne_true
  unfold resolveTimeout
  simp only [hrecord, ok_bind, revertIf_ok hpending, checkedAdd_ok hfits, Checked.orPanic]
  constructor
  · rintro ⟨deadline, herror⟩
    by_contra hafter
    rcases bind_eq_error.mp herror with hwindow | ⟨_, _, herror⟩
    · exact hafter (revertIf_eq_error.mp hwindow).1
    rcases bind_eq_error.mp herror with hcounter | ⟨_, _, herror⟩
    · obtain ⟨_, _, hcode⟩ := orPanic_eq_error.mp hcounter
      cases hcode
    split at herror
    · rcases bind_eq_error.mp herror with hsplit | ⟨_, _, herror⟩
      · obtain ⟨_, _, hcode⟩ := orPanic_eq_error.mp hsplit
        cases hcode
      rcases bind_eq_error.mp herror with hrefund | ⟨_, _, hreturn⟩
      · obtain ⟨_, _, hcode⟩ := orPanic_eq_error.mp hrefund
        cases hcode
      · cases hreturn
    · cases herror
  · intro hearly
    exact ⟨_, bind_eq_error.mpr (Or.inl (revertIf_eq_error.mpr ⟨hearly, rfl⟩))⟩

theorem withdraw_ok {id : Nat} (hstatus : (s.providers id).status = .unbonding)
    (hfits : (s.providers id).unbondingAt + dep.params.unbondingDelay < 2 ^ 64)
    (hdelay : (s.providers id).unbondingAt + dep.params.unbondingDelay ≤ block.timestamp)
    (hopen : (s.providers id).openChallenges = 0) :
    withdraw dep block s id = .ok ⟨s.setProvider id { s.providers id with status := .exited },
      [.withdrawn id], none, [.stakeReturned id (s.providers id).withdrawal dep.params.stakeWei],
      .payout (s.providers id).withdrawal dep.params.stakeWei⟩ := by
  have hassigned : (s.providers id).status ≠ .none := by
    rw [hstatus]
    decide
  unfold withdraw
  refine bind_eq_ok.mpr ⟨_, provider_eq_ok.mpr ⟨hassigned, rfl⟩, ?_⟩
  refine bind_eq_ok.mpr ⟨(), revertIf_ok (not_not_intro hstatus), ?_⟩
  refine bind_eq_ok.mpr ⟨_, orPanic_eq_ok.mpr (checkedAdd_ok hfits), ?_⟩
  refine bind_eq_ok.mpr ⟨(), revertIf_ok (not_lt.mpr hdelay), ?_⟩
  exact bind_eq_ok.mpr ⟨(), revertIf_ok (not_not_intro hopen), rfl⟩

/-- A provider whose challenges are all resolved has none open. -/
theorem Storage.WellFormed.openChallenges_eq_zero (hwf : s.WellFormed) {id : Nat}
    (hanswered : ∀ challengeId < s.nextChallengeId,
      (s.challengeRecords challengeId).providerId = id →
        (s.challengeRecords challengeId).resolved = true) :
    (s.providers id).openChallenges = 0 := by
  rw [hwf.counter id, Finset.card_eq_zero, Storage.unresolved, Finset.filter_eq_empty_iff]
  rintro challengeId hbelow ⟨hid, hunresolved⟩
  rw [hanswered challengeId (Finset.mem_range.mp hbelow) hid] at hunresolved
  cases hunresolved

/-- A leaving provider past its delay and without open challenges gets its stake. -/
theorem withdraw_runs {chain : Chain} {id : Nat} (hsolvent : Solvent dep chain)
    (hether : chain.ether < etherBound) (hid : chain.store.nextProviderId < 2 ^ 64) (houtside : Outside dep msg.sender)
    (hvalue : msg.value = 0) (hstatus : (chain.store.providers id).status = .unbonding)
    (hfits : (chain.store.providers id).unbondingAt + dep.params.unbondingDelay < 2 ^ 64)
    (hdelay : (chain.store.providers id).unbondingAt + dep.params.unbondingDelay ≤ block.timestamp)
    (hopen : (chain.store.providers id).openChallenges = 0) :
    ∃ result, chain.callInstance dep block keccak256 msg (.withdraw id) = some result := by
  have hassigned : (chain.store.providers id).status ≠ .none := by
    rw [hstatus]
    decide
  have hrange : (Call.withdraw id).inRange = true :=
    decide_eq_true ((hsolvent.wellFormed.assigned hassigned).trans hid)
  have hguard : ¬((Call.withdraw id).inRange = false ∨
      (Call.withdraw id).payable = false ∧ msg.value ≠ 0) := by
    simp [hrange, hvalue]
  have hdispatch : dispatch keccak256 dep block msg chain.store (.withdraw id) =
      withdraw dep block chain.store id := by
    unfold dispatch
    rw [revertIf_ok hguard]
    rfl
  have haccepted : Accepted keccak256 dep block chain msg (.withdraw id) _ :=
    ⟨houtside, by rw [hvalue]; exact hether,
      hdispatch.trans (withdraw_ok hstatus hfits hdelay hopen)⟩
  exact haccepted.runs (hsolvent.applyOutcome haccepted).2

end

end Blobsitter.Contract
