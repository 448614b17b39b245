import Blobsitter.Contract.PaymasterLedger
import Blobsitter.Contract.Solvency

/-!
# Parked payouts

A payout whose push failed waits in the ledger of the contract that owed it.  Nobody but
its owner takes it out: whatever else happens the entry does not shrink, and whenever the
owner claims, the whole entry is paid.
-/

namespace Blobsitter.Contract

open Library
open Reference (Hash Address)

/-- Actions but the claims of an account. -/
def notClaiming (account : Address) (_ : Block) (_ : Chain) : Action → Bool
  | .call msg .claim => msg.sender != account
  | .callPaymaster msg .claim => msg.sender != account
  | _ => true

/-- The contracts that owe payouts. -/
inductive Debtor where
  | blobsitter
  | paymaster

namespace Chain

/-- What the contract has parked for the account. -/
def parked (chain : Chain) (account : Address) : Debtor → Nat
  | .blobsitter => chain.store.sink.claimable account
  | .paymaster => chain.paymaster.sink.claimable account

/-- The ETH of the contract. -/
def held (chain : Chain) : Debtor → Nat
  | .blobsitter => chain.balance
  | .paymaster => chain.paymasterBalance

/-- A call of `claim`. -/
def claim (chain : Chain) (keccak256 : ByteString → Hash) (dep : Deployment) (block : Block)
    (msg : Msg) : Debtor → Option (Chain × Option (Frame Chain Rest))
  | .blobsitter => chain.callInstance dep block keccak256 msg .claim
  | .paymaster => chain.callPaymaster dep block msg .claim

/-- A transfer of a claimed amount: the claim changes nothing when it fails, and is
logged when it succeeds. -/
def transfer (chain : Chain) (account : Address) (amount : Nat) (debtor : Debtor) :
    Frame Chain Rest :=
  ⟨chain, chain, match debtor with
    | .blobsitter => .claimed account amount
    | .paymaster => .paymasterClaimed account amount⟩

/-- At least these amounts are parked for the account. -/
structure Parks (account : Address) (floor : Debtor → Nat) (chain : Chain) : Prop where
  own : floor .blobsitter ≤ chain.store.sink.claimable account
  pool : floor .paymaster ≤ chain.paymaster.sink.claimable account

end Chain

/-- Parking adds to an entry and leaves the others. -/
theorem PayoutSink.park_grows {sink next : PayoutSink} {recipient : Address} {amount : Nat}
    (hpark : sink.park recipient amount = .ok next) (account : Address) :
    sink.claimable account ≤ next.claimable account := by
  simp only [PayoutSink.park, bind_eq_ok, checkedAdd_eq_ok, pure_eq_ok] at hpark
  obtain ⟨parked, ⟨-, rfl⟩, total, ⟨-, rfl⟩, rfl⟩ := hpark
  by_cases heq : account = recipient
  · subst heq
    simp only [Function.update_self]
    exact Nat.le_add_right _ _
  · simp only [Function.update_of_ne heq]
    exact Nat.le_refl _

/-- A claim empties the entry of its sender and leaves the others. -/
theorem PayoutSink.claim_empties {sink next : PayoutSink} {sender : Address} {amount : Nat}
    (hclaim : sink.claim sender = .ok (next, amount)) :
    0 < amount ∧ amount = sink.claimable sender ∧ next.claimable sender = 0 ∧
      next.totalClaimable + amount = sink.totalClaimable ∧
      ∀ account, account ≠ sender → next.claimable account = sink.claimable account := by
  simp only [PayoutSink.claim, bind_eq_ok, revertIf_eq_ok, orPanic_eq_ok, checkedSub_eq_ok,
    pure_eq_ok, Prod.mk.injEq] at hclaim
  obtain ⟨_, hsome, total, ⟨hle, rfl⟩, rfl, rfl⟩ := hclaim
  exact ⟨Nat.pos_of_ne_zero hsome, rfl, Function.update_self .., Nat.sub_add_cancel hle,
    fun account hne => Function.update_of_ne hne ..⟩

/-- A covered entry can always be claimed. -/
theorem PayoutSink.claim_passes {sink : PayoutSink} {sender : Address}
    (hpositive : 0 < sink.claimable sender) (hbalanced : sink.Balanced) :
    ∃ next, sink.claim sender = .ok (next, sink.claimable sender) := by
  have hle : sink.claimable sender ≤ sink.totalClaimable := by
    rw [hbalanced]
    exact Finset.single_le_sum (fun _ _ => Nat.zero_le _) (Finset.mem_univ sender)
  unfold PayoutSink.claim
  simp only [revertIf_ok hpositive.ne', ok_bind, checkedSub_ok hle]
  exact ⟨_, rfl⟩

section

variable {keccak256 : ByteString → Hash} {dep : Deployment} {block : Block}
variable {account : Address} {floor : Debtor → Nat}

namespace Chain.Parks

variable {chain entry next : Chain}

/-- Whatever leaves the two ledgers alone. -/
theorem of_same (hparks : chain.Parks account floor) (hown : next.store.sink = chain.store.sink)
    (hpool : next.paymaster.sink = chain.paymaster.sink) : next.Parks account floor := by
  refine ⟨?_, ?_⟩
  · rw [hown]
    exact hparks.own
  · rw [hpool]
    exact hparks.pool

theorem release (hparks : chain.Parks account floor) : chain.release.Parks account floor :=
  hparks.of_same rfl rfl

theorem park (hparks : chain.Parks account floor) (hentry : entry.Parks account floor)
    (recipient : Address) (amount : Nat) :
    (chain.park block entry recipient amount).Parks account floor := by
  unfold Chain.park
  cases hpark : chain.store.sink.park recipient amount with
  | error code => exact hentry
  | ok sink => exact ⟨hparks.own.trans (PayoutSink.park_grows hpark account), hparks.pool⟩

theorem parkPaymaster (hparks : chain.Parks account floor) (hentry : entry.Parks account floor)
    (recipient : Address) (amount : Nat) :
    (chain.parkPaymaster block entry recipient amount).Parks account floor := by
  unfold Chain.parkPaymaster
  cases hpark : chain.paymaster.sink.park recipient amount with
  | error code => exact hentry
  | ok sink => exact ⟨hparks.own, hparks.pool.trans (PayoutSink.park_grows hpark account)⟩

theorem startPayout {recipient : Address} {amount : Nat} {frame : Option (Frame Chain Rest)}
    (hparks : chain.Parks account floor) (hentry : entry.Parks account floor)
    (hstart : chain.startPayout dep block entry recipient amount = (next, frame)) {result : Chain}
    (hresult : Results next frame result) : result.Parks account floor := by
  have hparked := @park block _ _ _ _ hparks hentry recipient amount
  unfold Chain.startPayout at hstart
  simp only at hstart
  split at hstart
  · cases hstart
    obtain rfl := hresult.returned
    exact hparked
  · cases hstart
    rcases hresult.opened with rfl | rfl | rfl
    · exact hparks.of_same rfl rfl
    · exact hparked
    · exact hentry

theorem startReimbursement {starved : Bool} {carrier : Address} {amount : Nat}
    {isDeclaration : Bool} {frame : Option (Frame Chain Rest)} (hparks : chain.Parks account floor)
    (hstart : chain.startReimbursement dep block starved carrier amount isDeclaration =
      (next, frame)) {result : Chain} (hresult : Results next frame result) :
    result.Parks account floor := by
  have hskipped := hparks.release
  unfold Chain.startReimbursement at hstart
  simp only at hstart
  split at hstart
  · cases hstart
    obtain rfl := hresult.returned
    exact hskipped
  · cases hreimburse : chain.paymaster.reimburse dep.params block chain.paymasterBalance carrier
      amount isDeclaration with
    | error e =>
        rw [hreimburse] at hstart
        cases hstart
        obtain rfl := hresult.returned
        exact hskipped
    | ok out =>
        rw [hreimburse] at hstart
        simp only at hstart
        have hsink : out.storage.sink = chain.paymaster.sink := by
          obtain ⟨_, _, _, ⟨_, rfl⟩ | ⟨_, _, rfl⟩⟩ := Paymaster.reimburse_eq_ok hreimburse
          · rfl
          · rfl
        have hcharged : ({ chain with paymaster := out.storage }.emitPaymaster block
            out.events).Parks account floor := hparks.of_same rfl hsink
        split at hstart
        · rename_i recipient payout htail
          have hparked := (@parkPaymaster block _ _ _ _ hcharged hparks recipient payout).release
          split at hstart
          · cases hstart
            obtain rfl := hresult.returned
            exact hparked
          · cases hstart
            rcases hresult.opened with rfl | rfl | rfl
            · exact hcharged.of_same rfl rfl
            · exact hparked
            · exact hskipped
        · cases hstart
          obtain rfl := hresult.returned
          exact hcharged.release

theorem startTail {starved : Bool} {tail : Tail} {frame : Option (Frame Chain Rest)}
    (hparks : chain.Parks account floor) (hentry : entry.Parks account floor)
    (hstart : chain.startTail dep block entry starved tail = some (next, frame)) {result : Chain}
    (hresult : Results next frame result) : result.Parks account floor := by
  cases tail with
  | done =>
      cases hstart
      obtain rfl := hresult.returned
      exact hparks
  | payout recipient amount => exact hparks.startPayout hentry (Option.some.inj hstart) hresult
  | claim recipient amount =>
      rw [Chain.startTail] at hstart
      split at hstart
      · cases hstart
      · cases hstart
        rcases hresult.opened with rfl | rfl | rfl
        · exact hparks.of_same rfl rfl
        · exact hentry
        · exact hentry
  | reimburse carrier amount isDeclaration =>
      exact hparks.startReimbursement (Option.some.inj hstart) hresult

theorem startPaymasterTail {tail : Tail} {frame : Option (Frame Chain Rest)}
    (hparks : chain.Parks account floor) (hentry : entry.Parks account floor)
    (hstart : chain.startPaymasterTail block entry tail = some (next, frame)) {result : Chain}
    (hresult : Results next frame result) : result.Parks account floor := by
  cases tail with
  | payout recipient amount =>
      have hparked := @parkPaymaster block _ _ _ _ hparks hentry recipient amount
      rw [Chain.startPaymasterTail] at hstart
      split at hstart
      · cases hstart
        obtain rfl := hresult.returned
        exact hparked
      · cases hstart
        rcases hresult.opened with rfl | rfl | rfl
        · exact hparks.of_same rfl rfl
        · exact hparked
        · exact hentry
  | claim recipient amount =>
      rw [Chain.startPaymasterTail] at hstart
      split at hstart
      · cases hstart
      · cases hstart
        rcases hresult.opened with rfl | rfl | rfl
        · exact hparks.of_same rfl rfl
        · exact hentry
        · exact hentry
  | _ =>
      cases hstart
      obtain rfl := hresult.returned
      exact hparks

/-- An accepted call changes the ledger of the instance only by a claim. -/
theorem applyOutcome {msg : Msg} {call : Call} {out : Outcome} (hparks : chain.Parks account floor)
    (haccepted : Accepted keccak256 dep block chain msg call out)
    (hother : notClaiming account block chain (.call msg call) = true) :
    (chain.applyOutcome block msg.value out).Parks account floor := by
  have hsame : out.storage.sink = chain.store.sink →
      (chain.applyOutcome block msg.value out).Parks account floor :=
    fun hsink => hparks.of_same hsink rfl
  cases haccepted.change with
  | declared _ _ hkept => exact hsame hkept.sink
  | pointed _ hpointed => exact hsame hpointed.same.sink
  | claimed _ hclaim =>
      obtain ⟨_, _, _, _, hothers⟩ := PayoutSink.claim_empties hclaim
      refine ⟨?_, hparks.pool⟩
      exact hparks.own.trans (hothers account (bne_iff_ne.mp hother).symm).ge
  | _ => exact hsame rfl

/-- A call of the paymaster shrinks no entry but the one its sender claims. -/
theorem dispatch_keeps {msg : Msg} {call : PaymasterCall} {out : PaymasterOutcome}
    {balance checkpoint : Nat}
    (hdispatch : chain.paymaster.dispatch dep.params block balance checkpoint msg call = .ok out)
    (hother : notClaiming account block chain (.callPaymaster msg call) = true) :
    chain.paymaster.sink.claimable account ≤ out.storage.sink.claimable account := by
  cases call with
  | donate =>
      obtain ⟨_, _, rfl⟩ := Paymaster.donate_eq_ok.mp hdispatch
      exact Nat.le_refl _
  | reimburse => cases hdispatch
  | absorbSlash => cases hdispatch
  | reclaim =>
      obtain ⟨_, _, hreclaim⟩ := bind_eq_ok.mp hdispatch
      obtain ⟨_, _, _, _, _, _, _, rfl⟩ := Paymaster.reclaim_eq_ok.mp hreclaim
      exact Nat.le_refl _
  | claim =>
      obtain ⟨_, _, hclaim⟩ := bind_eq_ok.mp hdispatch
      obtain ⟨_, _, rfl⟩ := Paymaster.claim_eq_ok.mp hclaim
      exact (Function.update_of_ne (bne_iff_ne.mp hother).symm ..).ge

theorem callPaymaster {msg : Msg} {call : PaymasterCall} {frame : Option (Frame Chain Rest)}
    (hparks : chain.Parks account floor)
    (hcall : chain.callPaymaster dep block msg call = some (next, frame))
    (hother : notClaiming account block chain (.callPaymaster msg call) = true) {result : Chain}
    (hresult : Results next frame result) : result.Parks account floor := by
  unfold Chain.callPaymaster at hcall
  split at hcall
  · cases hcall
  · cases hdispatch : chain.paymaster.dispatch dep.params block
      (chain.paymasterBalance + msg.value) chain.store.activityCheckpointTime msg call with
    | error e =>
        rw [hdispatch] at hcall
        cases hcall
    | ok out =>
        rw [hdispatch] at hcall
        have hcharged : ({ chain with
            paymaster := out.storage
            paymasterBalance := chain.paymasterBalance + msg.value }.emitPaymaster block
              out.events).Parks account floor := by
          refine ⟨hparks.own, hparks.pool.trans ?_⟩
          exact dispatch_keeps hdispatch hother
        exact hcharged.startPaymasterTail hparks hcall hresult

theorem act {action : Action} {frame : Option (Frame Chain Rest)} (hparks : chain.Parks account floor)
    (hact : chain.act dep block keccak256 action = some (next, frame))
    (hother : notClaiming account block chain action = true) {result : Chain}
    (hresult : Results next frame result) : result.Parks account floor := by
  cases action with
  | call msg call =>
      obtain ⟨out, haccepted, _, hstart⟩ := callInstance_accepted hact
      exact startTail (hparks.applyOutcome haccepted hother) hparks hstart hresult
  | callPaymaster msg call => exact hparks.callPaymaster hact hother hresult
  | forceSend amount =>
      simp only [Chain.act] at hact
      split at hact
      · cases hact
      · cases hact
        obtain rfl := hresult.returned
        exact hparks.of_same rfl rfl
  | forceSendPaymaster amount =>
      simp only [Chain.act] at hact
      split at hact
      · cases hact
      · cases hact
        obtain rfl := hresult.returned
        exact hparks.of_same rfl rfl

theorem resume {rest : Rest} (hparks : chain.Parks account floor)
    (hresume : chain.resume dep block rest = some next) : next.Parks account floor := by
  cases rest with
  | paidOut recipient amount =>
      unfold Chain.resume at hresume
      simp only at hresume
      split at hresume
      · cases hresume
        exact hparks
      · split at hresume
        · cases hresume
        · split at hresume
          · cases hresume
          · rename_i out hdonate
            obtain ⟨_, _, rfl⟩ := Paymaster.donate_eq_ok.mp hdonate
            cases hresume
            exact hparks.of_same rfl rfl
  | claimed recipient amount =>
      cases hresume
      exact hparks.of_same rfl rfl
  | reimbursed =>
      cases hresume
      exact hparks.release
  | paymasterPaidOut =>
      cases hresume
      exact hparks
  | paymasterClaimed recipient amount =>
      cases hresume
      exact hparks.of_same rfl rfl

theorem preserves : ((system keccak256 dep).restrict (notClaiming account)).Preserves
    fun _ chain => chain.Parks account floor where
  returns _ _ _ _ _ hparks hcall := by
    obtain ⟨hother, hact⟩ := CallSystem.restrict_call.mp hcall
    exact hparks.act hact hother (Or.inl rfl)
  opens _ _ _ _ _ hparks hcall := by
    obtain ⟨hother, hact⟩ := CallSystem.restrict_call.mp hcall
    exact ⟨hparks.act hact hother (Or.inr ⟨_, rfl, Or.inl rfl⟩),
      hparks.act hact hother (Or.inr ⟨_, rfl, Or.inr rfl⟩)⟩
  resume _ _ _ _ hparks hresume := hparks.resume hresume
  advance _ _ _ hparks _ := hparks

end Chain.Parks

/-! ## A claim -/

/-- What a claim that was accepted did before its transfer. -/
structure Chain.Drained (account : Address) (debtor : Debtor) (chain opened : Chain) : Prop where
  emptied : opened.parked account debtor = 0
  left : opened.held debtor + chain.parked account debtor = chain.held debtor
  others : ∀ other, other ≠ account → opened.parked other debtor = chain.parked other debtor

theorem Chain.claim_blobsitter {chain : Chain} (hsolvent : Solvent dep chain)
    (hether : chain.ether < etherBound) {msg : Msg} (houtside : Outside dep msg.sender)
    (hvalue : msg.value = 0) (hparked : 0 < chain.store.sink.claimable msg.sender) :
    ∃ opened, chain.callInstance dep block keccak256 msg .claim = some (opened,
        some (chain.transfer msg.sender (chain.store.sink.claimable msg.sender) .blobsitter)) ∧
      chain.Drained msg.sender .blobsitter opened := by
  have hguard : ¬(¬Outside dep msg.sender ∨ etherBound ≤ chain.ether + msg.value) := by
    rw [not_or, not_not, not_le, hvalue]
    exact ⟨houtside, hether⟩
  obtain ⟨sink, hclaim⟩ := PayoutSink.claim_passes hparked hsolvent.balanced
  obtain ⟨_, _, hempty, htotal, hothers⟩ := PayoutSink.claim_empties hclaim
  have hcovered : chain.store.sink.claimable msg.sender ≤ chain.balance := by
    have howed := hsolvent.covered
    unfold Storage.owed at howed
    omega
  have hpayable : ¬(Call.claim.inRange = false ∨ Call.claim.payable = false ∧ msg.value ≠ 0) := by
    rintro (hrange | ⟨_, hpaid⟩)
    · cases hrange
    · exact hpaid hvalue
  have hdispatch : dispatch keccak256 dep block msg chain.store .claim = .ok
      ⟨{ chain.store with sink := sink }, [], none, [],
        .claim msg.sender (chain.store.sink.claimable msg.sender)⟩ := by
    unfold dispatch Contract.claim
    rw [revertIf_ok hpayable, hclaim]
    rfl
  have hbalance : ¬chain.balance + msg.value - 0 < chain.store.sink.claimable msg.sender := by
    omega
  refine ⟨{ chain.applyOutcome block msg.value ⟨{ chain.store with sink := sink }, [], none, [],
      .claim msg.sender (chain.store.sink.claimable msg.sender)⟩ with
    balance := chain.balance + msg.value - 0 - chain.store.sink.claimable msg.sender }, ?_, ?_⟩
  · unfold Chain.callInstance
    rw [if_neg hguard, hdispatch]
    change (if chain.balance + msg.value < 0 then none else _) = _
    rw [if_neg (Nat.not_lt_zero _)]
    change (if chain.balance + msg.value - 0 < _ then none else _) = _
    rw [if_neg hbalance]
    rfl
  · refine ⟨hempty, ?_, hothers⟩
    change chain.balance + msg.value - 0 - _ + chain.store.sink.claimable msg.sender = chain.balance
    omega

theorem Chain.claim_paymaster {chain : Chain} (hrunning : chain.Running dep block) {msg : Msg}
    (houtside : Outside dep msg.sender) (hvalue : msg.value = 0)
    (hparked : 0 < chain.paymaster.sink.claimable msg.sender) :
    ∃ opened, chain.callPaymaster dep block msg .claim = some (opened,
        some (chain.transfer msg.sender (chain.paymaster.sink.claimable msg.sender) .paymaster)) ∧
      chain.Drained msg.sender .paymaster opened := by
  have hguard : ¬(¬Outside dep msg.sender ∨ etherBound ≤ chain.ether + msg.value) := by
    rw [not_or, not_not, not_le, hvalue]
    exact ⟨houtside, hrunning.ether⟩
  have hledger := hrunning.reach.ledgered
  obtain ⟨sink, hclaim⟩ := PayoutSink.claim_passes hparked hledger.balanced
  obtain ⟨_, _, hempty, _, hothers⟩ := PayoutSink.claim_empties hclaim
  have hcovered : chain.paymaster.sink.claimable msg.sender ≤ chain.paymasterBalance :=
    (hledger.claimable_le msg.sender).trans hledger.parked
  have hdispatch : chain.paymaster.dispatch dep.params block (chain.paymasterBalance + msg.value)
      chain.store.activityCheckpointTime msg .claim = .ok
        ⟨{ chain.paymaster with sink := sink }, [],
          .claim msg.sender (chain.paymaster.sink.claimable msg.sender)⟩ := by
    unfold Paymaster.dispatch Paymaster.claim
    rw [revertIf_ok (not_not.mpr hvalue), hclaim]
    rfl
  have hbalance : ¬chain.paymasterBalance + msg.value <
      chain.paymaster.sink.claimable msg.sender := by
    omega
  refine ⟨{ { chain with paymaster := { chain.paymaster with sink := sink } }.emitPaymaster block
      [] with
    paymasterBalance :=
      chain.paymasterBalance + msg.value - chain.paymaster.sink.claimable msg.sender }, ?_, ?_⟩
  · unfold Chain.callPaymaster
    rw [if_neg hguard, hdispatch]
    change (if chain.paymasterBalance + msg.value < _ then none else _) = _
    rw [if_neg hbalance]
    rfl
  · refine ⟨hempty, ?_, hothers⟩
    change chain.paymasterBalance + msg.value - _ + chain.paymaster.sink.claimable msg.sender =
      chain.paymasterBalance
    omega

/-- The owner of an entry takes all of it, by a transfer that either is logged or leaves
the entry where it is. -/
theorem Chain.claim_pays {chain : Chain} (hsolvent : Solvent dep chain)
    (hrunning : chain.Running dep block) {msg : Msg} (houtside : Outside dep msg.sender)
    (hvalue : msg.value = 0) {debtor : Debtor} (hparked : 0 < chain.parked msg.sender debtor) :
    ∃ opened, chain.claim keccak256 dep block msg debtor =
        some (opened, some (chain.transfer msg.sender (chain.parked msg.sender debtor) debtor)) ∧
      chain.Drained msg.sender debtor opened := by
  cases debtor with
  | blobsitter => exact Chain.claim_blobsitter hsolvent hrunning.ether houtside hvalue hparked
  | paymaster => exact Chain.claim_paymaster hrunning houtside hvalue hparked

/-- From a reachable state with no call open, and as long as the owner of a parked payout does
not claim: whatever others do, in any order and nested in any way, what either contract has
parked for it does not shrink; and at any time its claim is accepted, takes the whole entry and
nothing else out of the ledger, and sends exactly that. -/
theorem parked_until_claimed {world later : World} (hreach : Reachable keccak256 dep world)
    (hidle : world.stack = []) {account : Address}
    (hsteps : ((system keccak256 dep).restrict (notClaiming account)).Steps world later) :
    (∀ debtor, world.state.parked account debtor ≤ later.state.parked account debtor) ∧
      ∀ msg debtor, msg.sender = account → Outside dep account → msg.value = 0 →
        0 < later.state.parked account debtor →
        ∃ opened, later.state.claim keccak256 dep later.env msg debtor = some (opened,
            some (later.state.transfer account (later.state.parked account debtor) debtor)) ∧
          later.state.Drained account debtor opened := by
  obtain ⟨env, chain, stack⟩ := world
  cases hidle
  have hlater : Reachable keccak256 dep later := hreach.steps hsteps.of_restrict
  constructor
  · have hpreserves : ((system keccak256 dep).restrict (notClaiming account)).Preserves
        fun _ next => next.Parks account (chain.parked account) := Chain.Parks.preserves
    have hparks := (hsteps.holds hpreserves
      (Machine.holds_of_idle ⟨Nat.le_refl _, Nat.le_refl _⟩)).state
    intro debtor
    cases debtor with
    | blobsitter => exact hparks.own
    | paymaster => exact hparks.pool
  · rintro msg debtor rfl houtside hvalue hparked
    exact Chain.claim_pays hlater.solvent hlater.running houtside hvalue hparked

end

/-- The bounty could not be pushed and is parked for whoever called `lapse`. -/
def parkedWorld : World :=
  ⟨lapseBlock, (lapsedWorld.stack.map Frame.onFailure).headD dueWorld.state, []⟩

def forcedWorld : World :=
  ⟨lapseBlock, (parkedWorld.state.after lapseBlock (.forceSend 5)).1, []⟩

set_option maxRecDepth 10000 in
theorem parked_until_claimed_bounty : ∃ opened,
    forcedWorld.state.claim Keccak.keccak256 sampleDeployment lapseBlock
        (sampleMsg (Vector.replicate 20 5) 0) .blobsitter = some (opened,
      some (forcedWorld.state.transfer (Vector.replicate 20 5) 150 .blobsitter)) ∧
    opened.balance + 150 = forcedWorld.state.balance := by
  have hfails : (system Keccak.keccak256 sampleDeployment).Step lapsedWorld parkedWorld := .fails
  let others := (system Keccak.keccak256 sampleDeployment).restrict
    (notClaiming (Vector.replicate 20 5))
  have hforced : others.call lapseBlock (.forceSend 5) parkedWorld.state =
      some (forcedWorld.state, none) := rfl
  obtain ⟨_, hclaim⟩ := parked_until_claimed
    (lapsedWorld_reachable.steps (.single hfails)) rfl (.single (.returns hforced))
  have hparked : forcedWorld.state.parked (Vector.replicate 20 5) .blobsitter = 150 := rfl
  obtain ⟨opened, hopened, hdrained⟩ := hclaim (sampleMsg (Vector.replicate 20 5) 0) .blobsitter rfl
    (by decide) rfl (by rw [hparked]; decide)
  have hleft := hdrained.left
  rw [hparked] at hopened hleft
  exact ⟨opened, hopened, hleft⟩

end Blobsitter.Contract
