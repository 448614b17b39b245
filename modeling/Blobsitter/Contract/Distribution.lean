import Blobsitter.Contract.Books

/-!
# Single distribution of stakes and bonds

What one accepted call does to one provider and to one challenge, with the payments it
makes for them.  Over a run every stake and every bond is paid out at most once.
-/

namespace Blobsitter.Contract

open Library
open Reference (Chunk Hash Address)

/-- The only ways a status moves. -/
inductive StatusMove : ProviderStatus → ProviderStatus → Prop where
  | stake : StatusMove .none .active
  | unbond : StatusMove .active .unbonding
  | slashActive : StatusMove .active .slashed
  | exit : StatusMove .unbonding .exited
  | slashUnbonding : StatusMove .unbonding .slashed

/-- The payment distributes the stake of the provider. -/
def Payment.ofStake (id : Nat) : Payment → Bool
  | .stakeReturned providerId _ _ => providerId = id
  | .stakeSlashed providerId _ _ _ => providerId = id
  | _ => false

/-- The payment settles the bond of the challenge. -/
def Payment.ofBond (id : Nat) : Payment → Bool
  | .bondToOperator challengeId _ _ => challengeId = id
  | .bondToChallenger challengeId _ _ => challengeId = id
  | _ => false

section

variable (dep : Deployment)

/-- One provider before and after an accepted call, and the payments of its stake. -/
inductive StakeStep (id : Nat) (p next : Provider) : List Payment → Prop where
  | kept (hstatus : next.status = p.status) (hoperator : next.operator = p.operator)
      (hwithdrawal : next.withdrawal = p.withdrawal) : StakeStep id p next []
  | staked (hbefore : p.status = .none) (hafter : next.status = .active) : StakeStep id p next []
  | unbonded (hbefore : p.status = .active) (hafter : next.status = .unbonding)
      (hoperator : next.operator = p.operator) (hwithdrawal : next.withdrawal = p.withdrawal) :
      StakeStep id p next []
  | returned (hbefore : p.status = .unbonding) (hafter : next.status = .exited)
      (hoperator : next.operator = p.operator) (hwithdrawal : next.withdrawal = p.withdrawal) :
      StakeStep id p next [.stakeReturned id p.withdrawal dep.params.stakeWei]
  | slashed {recipient : Address} {bounty remainder : Nat}
      (hbefore : p.status = .active ∨ p.status = .unbonding) (hafter : next.status = .slashed)
      (hoperator : next.operator = p.operator) (hwithdrawal : next.withdrawal = p.withdrawal)
      (hwhole : bounty + remainder = dep.params.stakeWei) :
      StakeStep id p next [.stakeSlashed id recipient bounty remainder]

/-- One challenge before and after an accepted call, and the payments of its bond. -/
inductive BondStep (id : Nat) (operator : Address) (c next : Challenge) : List Payment → Prop where
  | kept (hsame : next = c) : BondStep id operator c next []
  | opened (hbefore : c = .empty) (hafter : next.resolved = false) : BondStep id operator c next []
  | answered (hopened : c ≠ .empty) (hbefore : c.resolved = false)
      (hafter : next = { c with resolved := true }) :
      BondStep id operator c next [.bondToOperator id operator c.bond]
  | timedOut (hopened : c ≠ .empty) (hbefore : c.resolved = false)
      (hafter : next = { c with resolved := true }) :
      BondStep id operator c next [.bondToChallenger id c.challenger c.bond]

/-- The stake has been distributed as the status says: not yet, wholly to the
withdrawal address, or as bounty and remainder. -/
def StakePaid (id : Nat) (p : Provider) (payments : List Payment) : Prop :=
  match p.status with
  | .exited => payments.filter (Payment.ofStake id) =
      [.stakeReturned id p.withdrawal dep.params.stakeWei]
  | .slashed => ∃ recipient bounty remainder, bounty + remainder = dep.params.stakeWei ∧
      payments.filter (Payment.ofStake id) = [.stakeSlashed id recipient bounty remainder]
  | _ => payments.filter (Payment.ofStake id) = []

end

/-- The bond has been settled if the challenge is resolved, and with one party only. -/
def BondPaid (s : Storage) (id : Nat) (payments : List Payment) : Prop :=
  let c := s.challengeRecords id
  if c.resolved then
    payments.filter (Payment.ofBond id) =
        [.bondToOperator id (s.providers c.providerId).operator c.bond] ∨
      payments.filter (Payment.ofBond id) = [.bondToChallenger id c.challenger c.bond]
  else payments.filter (Payment.ofBond id) = []

/-- The transfers of an accepted call are its payments, and each payment has its entry
point behind it. -/
def TransfersMatch (call : Call) (out : Outcome) : Prop :=
  match out.payments with
  | [] => out.absorbed = none ∧ ∀ recipient amount, out.tail ≠ .payout recipient amount
  | [.stakeReturned id recipient amount] =>
      call = .withdraw id ∧ out.absorbed = none ∧ out.tail = .payout recipient amount
  | [.stakeSlashed id recipient bounty remainder] =>
      call = .lapse id ∧ out.absorbed = some remainder ∧ out.tail = .payout recipient bounty
  | [.stakeSlashed _ recipient bounty remainder, .bondToChallenger id challenger bond] =>
      call = .resolveTimeout id ∧ recipient = challenger ∧ out.absorbed = some remainder ∧
        out.tail = .payout challenger (bounty + bond)
  | [.bondToChallenger id challenger bond] =>
      call = .resolveTimeout id ∧ out.absorbed = none ∧ out.tail = .payout challenger bond
  | [.bondToOperator id operator bond] =>
      (∃ indices n peaks proofs, call = .respond id indices n peaks proofs) ∧
        out.absorbed = none ∧ out.tail = .payout operator bond
  | _ => False

section

variable {keccak256 : ByteString → Hash} {dep : Deployment} {block : Block} {msg : Msg}

theorem StakeStep.same {id : Nat} {p : Provider} : StakeStep dep id p p [] := .kept rfl rfl rfl

/-- Only one record is written, and only its stake is paid. -/
theorem StakeStep.update {providers : Nat → Provider} {id : Nat} {next : Provider}
    {payments : List Payment}
    (hstep : StakeStep dep id (providers id) next (payments.filter (Payment.ofStake id)))
    (hothers : ∀ other, other ≠ id → payments.filter (Payment.ofStake other) = []) (other : Nat) :
    StakeStep dep other (providers other) (Function.update providers id next other)
      (payments.filter (Payment.ofStake other)) := by
  by_cases heq : other = id
  · subst heq
    rw [Function.update_self]
    exact hstep
  · rw [Function.update_of_ne heq, hothers other heq]
    exact .same

theorem Change.stakeStep {s : Storage} {call : Call} {out : Outcome}
    (hchange : Change keccak256 dep block msg s call out) (hwf : s.WellFormed) (id : Nat) :
    StakeStep dep id (s.providers id) (out.storage.providers id)
      (out.payments.filter (Payment.ofStake id)) := by
  cases hchange with
  | declared _ _ hsame _ hpayments =>
      rw [hsame.providers, hpayments]
      exact .same
  | pointed _ haccepted =>
      rw [haccepted.same.providers, haccepted.payments]
      exact .same
  | noted => exact .same
  | claimed => exact .same
  | staked =>
      refine StakeStep.update ?_ (fun _ _ => rfl) id
      refine .staked ?_ rfl
      rw [hwf.unassigned _ le_rfl]
      rfl
  | unbonded _ _ hstatus =>
      refine StakeStep.update ?_ (fun _ _ => rfl) id
      exact .unbonded hstatus rfl rfl rfl
  | withdrawn _ hstatus =>
      refine StakeStep.update ?_ ?_ id
      · simp only [Payment.ofStake, decide_true, List.filter_cons_of_pos, List.filter_nil]
        exact .returned hstatus rfl rfl rfl
      · intro other hne
        simp [Payment.ofStake, hne.symm]
  | committed =>
      refine StakeStep.update ?_ (fun _ _ => rfl) id
      exact .kept rfl rfl rfl
  | proven =>
      refine StakeStep.update ?_ (fun _ _ => rfl) id
      exact .kept rfl rfl rfl
  | lapsed _ hstatus _ hsplit =>
      refine StakeStep.update ?_ ?_ id
      · simp only [Payment.ofStake, decide_true, List.filter_cons_of_pos, List.filter_nil]
        exact .slashed (Or.inl hstatus) rfl rfl rfl (slashSplit_eq_ok hsplit).2
      · intro other hne
        simp [Payment.ofStake, hne.symm]
  | challenged =>
      refine StakeStep.update ?_ (fun _ _ => rfl) id
      exact .kept rfl rfl rfl
  | answered =>
      refine StakeStep.update ?_ (fun _ _ => rfl) id
      exact .kept rfl rfl rfl
  | timedOut _ hopened hunresolved _ _ hstatus hsplit =>
      have hexited := hwf.not_exited hopened hunresolved
      have hnone := (hwf.opened _ (hwf.openedBelow hopened)).2
      refine StakeStep.update ?_ ?_ id
      · simp only [Payment.ofStake, decide_true, List.filter_cons_of_pos, List.filter_nil,
          Bool.false_eq_true, not_false_eq_true, List.filter_cons_of_neg]
        refine .slashed ?_ rfl rfl rfl (slashSplit_eq_ok hsplit).2
        cases hcase : (s.providers (s.challengeRecords _).providerId).status with
        | none => exact absurd hcase hnone
        | active => exact Or.inl rfl
        | unbonding => exact Or.inr rfl
        | exited => exact absurd hcase hexited
        | slashed => exact absurd hcase hstatus
      · intro other hne
        simp [Payment.ofStake, hne.symm]
  | refunded _ _ _ _ _ hstatus =>
      refine StakeStep.update ?_ (fun _ _ => rfl) id
      exact .kept hstatus.symm rfl rfl

theorem BondStep.update {s : Storage} {id : Nat} {next : Challenge} {payments : List Payment}
    (hstep : BondStep id (s.providers (s.challengeRecords id).providerId).operator
      (s.challengeRecords id) next (payments.filter (Payment.ofBond id)))
    (hothers : ∀ other, other ≠ id → payments.filter (Payment.ofBond other) = []) (other : Nat) :
    BondStep other (s.providers (s.challengeRecords other).providerId).operator
      (s.challengeRecords other) (Function.update s.challengeRecords id next other)
      (payments.filter (Payment.ofBond other)) := by
  by_cases heq : other = id
  · subst heq
    rw [Function.update_self]
    exact hstep
  · rw [Function.update_of_ne heq, hothers other heq]
    exact .kept rfl

theorem Challenge.ne_empty {c : Challenge} (hopened : c.challenger ≠ zeroAddress) : c ≠ .empty := by
  rintro rfl
  exact hopened rfl

theorem Change.bondStep {s : Storage} {call : Call} {out : Outcome}
    (hchange : Change keccak256 dep block msg s call out) (hwf : s.WellFormed) (id : Nat) :
    BondStep id (s.providers (s.challengeRecords id).providerId).operator
      (s.challengeRecords id) (out.storage.challengeRecords id)
      (out.payments.filter (Payment.ofBond id)) := by
  cases hchange with
  | declared _ _ hsame _ hpayments =>
      rw [hsame.challengeRecords, hpayments]
      exact .kept rfl
  | pointed _ haccepted =>
      rw [haccepted.same.challengeRecords, haccepted.payments]
      exact .kept rfl
  | noted => exact .kept rfl
  | claimed => exact .kept rfl
  | staked => exact .kept rfl
  | unbonded => exact .kept rfl
  | withdrawn => exact .kept rfl
  | committed => exact .kept rfl
  | proven => exact .kept rfl
  | lapsed => exact .kept rfl
  | challenged =>
      have hempty := hwf.unopened _ le_rfl
      refine BondStep.update ?_ (fun _ _ => rfl) id
      refine .opened hempty ?_
      rw [hempty]
      rfl
  | answered _ hopened _ _ hunresolved =>
      refine BondStep.update ?_ ?_ id
      · simp only [Payment.ofBond, decide_true, List.filter_cons_of_pos, List.filter_nil]
        exact .answered (Challenge.ne_empty hopened) hunresolved rfl
      · intro other hne
        simp [Payment.ofBond, hne.symm]
  | timedOut _ hopened hunresolved =>
      refine BondStep.update ?_ ?_ id
      · simp only [Payment.ofBond, decide_true, List.filter_cons_of_pos, List.filter_nil,
          Bool.false_eq_true, not_false_eq_true, List.filter_cons_of_neg]
        exact .timedOut (Challenge.ne_empty hopened) hunresolved rfl
      · intro other hne
        simp [Payment.ofBond, hne.symm]
  | refunded _ hopened hunresolved =>
      refine BondStep.update ?_ ?_ id
      · simp only [Payment.ofBond, decide_true, List.filter_cons_of_pos, List.filter_nil]
        exact .timedOut (Challenge.ne_empty hopened) hunresolved rfl
      · intro other hne
        simp [Payment.ofBond, hne.symm]

theorem Change.transfersMatch {s : Storage} {call : Call} {out : Outcome}
    (hchange : Change keccak256 dep block msg s call out) : TransfersMatch call out := by
  have hquiet : ∀ {out : Outcome}, out.payments = [] → out.absorbed = none →
      (∀ recipient amount, out.tail ≠ .payout recipient amount) → TransfersMatch call out := by
    intro out hpayments habsorbed htail
    unfold TransfersMatch
    rw [hpayments]
    exact ⟨habsorbed, htail⟩
  cases hchange with
  | declared _ _ _ habsorbed hpayments htail =>
      obtain ⟨amount, htail⟩ := htail
      exact hquiet hpayments habsorbed (by simp [htail])
  | pointed _ haccepted =>
      obtain ⟨amount, htail⟩ := haccepted.tail
      exact hquiet haccepted.payments haccepted.absorbed (by simp [htail])
  | noted => exact hquiet rfl rfl (by simp [Outcome.plain])
  | staked => exact hquiet rfl rfl (by simp [Outcome.plain])
  | unbonded => exact hquiet rfl rfl (by simp [Outcome.plain])
  | committed => exact hquiet rfl rfl (by simp [Outcome.plain])
  | proven => exact hquiet rfl rfl (by simp [Outcome.plain])
  | challenged => exact hquiet rfl rfl (by simp [Outcome.plain])
  | claimed => exact hquiet rfl rfl (by simp)
  | withdrawn => exact ⟨rfl, rfl, rfl⟩
  | lapsed => exact ⟨rfl, rfl, rfl⟩
  | answered => exact ⟨⟨_, _, _, _, rfl⟩, rfl, rfl⟩
  | timedOut => exact ⟨rfl, rfl, rfl, rfl⟩
  | refunded => exact ⟨rfl, rfl, rfl⟩

/-! ## From one call to a run -/

theorem StakeStep.moves {id : Nat} {p next : Provider} {payments : List Payment}
    (hstep : StakeStep dep id p next payments) :
    next.status = p.status ∨ StatusMove p.status next.status := by
  cases hstep with
  | kept hstatus => exact Or.inl hstatus
  | staked hbefore hafter =>
      rw [hbefore, hafter]
      exact Or.inr .stake
  | unbonded hbefore hafter =>
      rw [hbefore, hafter]
      exact Or.inr .unbond
  | returned hbefore hafter =>
      rw [hbefore, hafter]
      exact Or.inr .exit
  | slashed hbefore hafter =>
      rw [hafter]
      rcases hbefore with hactive | hunbonding
      · rw [hactive]
        exact Or.inr .slashActive
      · rw [hunbonding]
        exact Or.inr .slashUnbonding

/-- The operator of an assigned provider never changes. -/
theorem StakeStep.operator_eq {id : Nat} {p next : Provider} {payments : List Payment}
    (hstep : StakeStep dep id p next payments) (hassigned : p.status ≠ .none) :
    next.operator = p.operator := by
  cases hstep with
  | staked hbefore => exact absurd hbefore hassigned
  | kept _ hoperator => exact hoperator
  | unbonded _ _ hoperator => exact hoperator
  | returned _ _ hoperator => exact hoperator
  | slashed _ _ hoperator => exact hoperator

theorem StakePaid.step {id : Nat} {p next : Provider} {payments added : List Payment}
    (hpaid : StakePaid dep id p payments)
    (hstep : StakeStep dep id p next (added.filter (Payment.ofStake id))) :
    StakePaid dep id next (payments ++ added) := by
  have hunpaid : p.status = .none ∨ p.status = .active ∨ p.status = .unbonding →
      payments.filter (Payment.ofStake id) = [] := by
    unfold StakePaid at hpaid
    rintro (hstatus | hstatus | hstatus) <;> rwa [hstatus] at hpaid
  generalize hnew : added.filter (Payment.ofStake id) = new at hstep
  unfold StakePaid
  rw [List.filter_append, hnew]
  cases hstep with
  | kept hstatus _ hwithdrawal =>
      rw [hstatus, hwithdrawal, List.append_nil]
      exact hpaid
  | staked hbefore hafter =>
      rw [hafter, hunpaid (Or.inl hbefore)]
      rfl
  | unbonded hbefore hafter =>
      rw [hafter, hunpaid (Or.inr (Or.inl hbefore))]
      rfl
  | returned hbefore hafter _ hwithdrawal =>
      rw [hafter, hunpaid (Or.inr (Or.inr hbefore)), hwithdrawal]
      rfl
  | slashed hbefore hafter _ _ hwhole =>
      rw [hafter, hunpaid (Or.inr hbefore)]
      exact ⟨_, _, _, hwhole, rfl⟩

theorem BondPaid.step {s next : Storage} {id : Nat} {payments added : List Payment}
    (hpaid : BondPaid s id payments)
    (hstep : BondStep id (s.providers (s.challengeRecords id).providerId).operator
      (s.challengeRecords id) (next.challengeRecords id) (added.filter (Payment.ofBond id)))
    (hoperator : s.challengeRecords id ≠ .empty →
      (next.providers (s.challengeRecords id).providerId).operator =
        (s.providers (s.challengeRecords id).providerId).operator) :
    BondPaid next id (payments ++ added) := by
  generalize hnew : added.filter (Payment.ofBond id) = new at hstep
  unfold BondPaid at hpaid ⊢
  simp only [List.filter_append, hnew] at hpaid ⊢
  cases hstep with
  | kept hsame =>
      rw [List.append_nil, hsame]
      cases hresolved : (s.challengeRecords id).resolved with
      | false => simpa [hresolved] using hpaid
      | true =>
          have hexists : s.challengeRecords id ≠ .empty := by
            intro hempty
            rw [hempty] at hresolved
            cases hresolved
          rw [hoperator hexists]
          simpa [hresolved] using hpaid
  | opened hbefore hafter =>
      rw [hbefore] at hpaid
      rw [hafter, List.append_nil]
      exact hpaid
  | answered hopened hbefore hafter =>
      rw [hbefore] at hpaid
      have hresolved : (next.challengeRecords id).resolved = true := by rw [hafter]
      have hsame := hoperator hopened
      simp only [Bool.false_eq_true, if_false] at hpaid
      rw [if_pos hresolved, hpaid, hafter]
      simp only [hsame, List.nil_append, true_or]
  | timedOut _ hbefore hafter =>
      rw [hbefore] at hpaid
      have hresolved : (next.challengeRecords id).resolved = true := by rw [hafter]
      simp only [Bool.false_eq_true, if_false] at hpaid
      rw [if_pos hresolved, hpaid, hafter]
      simp only [List.nil_append, or_true]

structure Distributed (dep : Deployment) (s : Storage) (payments : List Payment) : Prop where
  wellFormed : s.WellFormed
  stakes : ∀ id, StakePaid dep id (s.providers id) payments
  bonds : ∀ id, BondPaid s id payments

theorem Distributed.change {s : Storage} {payments : List Payment} {call : Call} {out : Outcome}
    (hdistributed : Distributed dep s payments) (houtside : Outside dep msg.sender)
    (hchange : Change keccak256 dep block msg s call out) :
    Distributed dep out.storage (payments ++ out.payments) := by
  obtain ⟨hwf, hstakes, hbonds⟩ := hdistributed
  refine ⟨hchange.wellFormed houtside hwf, fun id => (hstakes id).step (hchange.stakeStep hwf id),
    fun id => (hbonds id).step (hchange.bondStep hwf id) ?_⟩
  intro hexists
  apply (hchange.stakeStep hwf _).operator_eq
  by_contra hunassigned
  exact hexists (hwf.unopened id (not_lt.mp fun hbelow => (hwf.opened id hbelow).2 hunassigned))

theorem distributed_invariant :
    StoreInvariant keccak256 dep fun _ s _ payments => Distributed dep s payments where
  change hdistributed houtside _ hchange := hdistributed.change houtside hchange
  quiet _ _ hdistributed _ :=
    ⟨hdistributed.wellFormed.of_same rfl rfl rfl rfl, hdistributed.stakes, hdistributed.bonds⟩
  advance hdistributed _ := hdistributed

/-- What a run adds to the books it started from. -/
structure Extends (base : Chain) (s : Storage) (payments : List Payment) : Prop where
  wellFormed : s.WellFormed
  moves : ∀ id, Relation.ReflTransGen StatusMove (base.store.providers id).status
    (s.providers id).status
  payments : base.payments <+: payments

theorem extends_invariant (base : Chain) :
    StoreInvariant keccak256 dep fun _ s _ payments => Extends base s payments where
  change {_ s _ payments _ _ out} hextends houtside _ hchange := by
    refine ⟨hchange.wellFormed houtside hextends.wellFormed, ?_,
      hextends.payments.trans (List.prefix_append _ _)⟩
    intro id
    rcases (hchange.stakeStep hextends.wellFormed id).moves with hsame | hmove
    · rw [hsame]
      exact hextends.moves id
    · exact (hextends.moves id).tail hmove
  quiet _ _ hextends _ :=
    ⟨hextends.wellFormed.of_same rfl rfl rfl rfl, hextends.moves, hextends.payments⟩
  advance hextends _ := hextends

theorem deployed_distributed (block : Block) :
    OnChain (fun _ s _ payments => Distributed dep s payments) block (Chain.deployed dep block) := by
  refine ⟨⟨fun _ _ => rfl, fun _ _ => rfl, ?_, ?_, ?_⟩, fun _ => rfl, fun _ => rfl⟩
  · intro challengeId hlt
    exact absurd hlt (Nat.not_lt_zero _)
  · intro id
    rfl
  · intro id hexited
    cases hexited

theorem Reachable.distributed {world : World} (hreach : Reachable keccak256 dep world) :
    Distributed dep world.state.store world.state.payments :=
  (hreach.holds distributed_invariant.preserves deployed_distributed).state

/-- A status stays or moves forward by one, unless the step undoes a call. -/
theorem step_moves {world next : World} (hwf : world.state.store.WellFormed)
    (hstep : (system keccak256 dep).Step world next) :
    world.Undoes next ∨ ∀ id,
      (next.state.store.providers id).status = (world.state.store.providers id).status ∨
        StatusMove (world.state.store.providers id).status (next.state.store.providers id).status := by
  have hquiet : ∀ {chain result : Chain}, chain.Quiet result →
      result.store.providers = chain.store.providers := by
    rintro chain result ⟨⟨sink, entered, hstore⟩, _, _⟩
    rw [hstore]
  have hcalled : ∀ {block : Block} {action : Action} {chain after : Chain}
      {frame : Option (Frame Chain Rest)}, chain.store.WellFormed →
      chain.act dep block keccak256 action = some (after, frame) → ∀ id,
      (after.store.providers id).status = (chain.store.providers id).status ∨
        StatusMove (chain.store.providers id).status (after.store.providers id).status := by
    intro block action chain after frame hwf hcall id
    rcases act_results hcall (Or.inl rfl) with
      hresult | ⟨msg, call, out, _, haccepted, hresult⟩
    · rw [hquiet hresult]
      exact Or.inl rfl
    · rw [hquiet hresult]
      exact (haccepted.change.stakeStep hwf id).moves
  cases hstep with
  | returns hcall => exact Or.inr (hcalled hwf hcall)
  | opens hcall => exact Or.inr (hcalled hwf hcall)
  | succeeds hresume =>
      refine Or.inr fun id => Or.inl ?_
      rw [hquiet (resume_aside hresume).quiet]
  | fails => exact Or.inl ⟨_, rfl, Or.inl rfl⟩
  | aborts => exact Or.inl ⟨_, rfl, Or.inr rfl⟩
  | advances => exact Or.inr fun id => Or.inl rfl

/-- A due, unresolved and counted challenge of a provider that has exited. -/
structure ExitedTimeout (dep : Deployment) (block : Block) (s : Storage) (challengeId bounty : Nat) :
    Prop where
  opened : (s.challengeRecords challengeId).challenger ≠ zeroAddress
  unresolved : (s.challengeRecords challengeId).resolved = false
  exited : (s.providers (s.challengeRecords challengeId).providerId).status = .exited
  counted : 1 ≤ (s.providers (s.challengeRecords challengeId).providerId).openChallenges
  fits : (s.challengeRecords challengeId).openedAt + dep.params.responseWindow < 2 ^ 64
  due : (s.challengeRecords challengeId).openedAt + dep.params.responseWindow ≤ block.timestamp
  refundFits : bounty + (s.challengeRecords challengeId).bond < 2 ^ 256

/-- `resolveTimeout` itself does not spare an exited provider. -/
theorem resolveTimeout_slashes_exited {s : Storage} {challengeId bounty remainder : Nat}
    (hsplit : slashSplit dep = .ok (bounty, remainder))
    (htimeout : ExitedTimeout dep block s challengeId bounty) :
    ∃ next events payments, resolveTimeout dep block msg s challengeId =
      .ok ⟨next, events, some remainder, payments, .payout (s.challengeRecords challengeId).challenger
        (bounty + (s.challengeRecords challengeId).bond)⟩ := by
  have hrecord := challengeRecord_eq_ok.mpr ⟨htimeout.opened, rfl⟩
  have hstatus : (s.providers (s.challengeRecords challengeId).providerId).status ≠ .slashed := by
    rw [htimeout.exited]
    decide
  unfold resolveTimeout
  rw [hrecord]
  simp only [bind, Except.bind, htimeout.unresolved, revertIf_ok Bool.false_ne_true,
    checkedAdd_ok htimeout.fits, Checked.orPanic, revertIf_ok (not_lt.mpr htimeout.due),
    checkedSub_ok htimeout.counted, if_pos hstatus, hsplit, checkedAdd_ok htimeout.refundFits]
  exact ⟨_, _, _, rfl⟩

/-- Counters count, exited providers owe nothing, statuses only move forward, and
every stake and bond is distributed once, whole, and to the right party. -/
theorem single_distribution {world : World} (hreach : Reachable keccak256 dep world) :
    (∀ id, (world.state.store.providers id).openChallenges =
      (world.state.store.unresolved id).card) ∧
    (∀ id, (world.state.store.providers id).status = .exited →
      world.state.store.unresolved id = ∅) ∧
    (∀ next, (system keccak256 dep).Step world next → world.Undoes next ∨ ∀ id,
      (next.state.store.providers id).status = (world.state.store.providers id).status ∨
        StatusMove (world.state.store.providers id).status
          (next.state.store.providers id).status) ∧
    (world.stack = [] → ∀ later, (system keccak256 dep).Steps world later →
      (∀ id, Relation.ReflTransGen StatusMove (world.state.store.providers id).status
        (later.state.store.providers id).status) ∧
      world.state.payments <+: later.state.payments) ∧
    (∀ id, StakePaid dep id (world.state.store.providers id) world.state.payments) ∧
    (∀ challengeId, BondPaid world.state.store challengeId world.state.payments) ∧
    (∀ msg call out, Accepted keccak256 dep world.env world.state msg call out →
      TransfersMatch call out) ∧
    ∀ block msg s challengeId bounty remainder, slashSplit dep = .ok (bounty, remainder) →
      ExitedTimeout dep block s challengeId bounty →
      ∃ next events payments, resolveTimeout dep block msg s challengeId =
        .ok ⟨next, events, some remainder, payments,
          .payout (s.challengeRecords challengeId).challenger
            (bounty + (s.challengeRecords challengeId).bond)⟩ := by
  have hbooks := hreach.distributed
  have hwf := hbooks.wellFormed
  refine ⟨hwf.counter, ?_, fun _ => step_moves hwf, ?_, hbooks.stakes, hbooks.bonds,
    fun _ _ _ haccepted => haccepted.change.transfersMatch,
    fun _ _ _ _ _ _ => resolveTimeout_slashes_exited⟩
  · intro id hexited
    rw [← Finset.card_eq_zero, ← hwf.counter id]
    exact hwf.exited id hexited
  · intro hidle later hsteps
    obtain ⟨env, chain, stack⟩ := world
    cases hidle
    have hlater := (hsteps.holds (extends_invariant chain).preserves
      (Machine.holds_of_idle ⟨hwf, fun _ => .refl, List.prefix_rfl⟩)).state
    exact ⟨hlater.moves, hlater.payments⟩

theorem single_distribution_lapsed :
    StakePaid sampleDeployment 1 (lapsedWorld.state.store.providers 1) lapsedWorld.state.payments :=
  (single_distribution lapsedWorld_reachable).2.2.2.2.1 1

end

end Blobsitter.Contract
