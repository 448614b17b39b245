import Blobsitter.Contract.StoreInvariant

/-!
# Runs of the paymaster

The paymaster on its own: its entry points in any order and at non-decreasing times,
called by any account and by an instance that asks for any amounts.  Every function
finishes its effects before it pushes, so a failed push leaves a parked payout, and the
calls that run during a push simply come later.  On the chain of both contracts the
paymaster makes such a run.
-/

namespace Blobsitter.Contract

open Library
open Reference (Chunk Hash Address)

/-- The paymaster with its ETH and its log. -/
structure PaymasterAccount where
  paymaster : Paymaster
  balance : Nat
  log : List (Nat × PaymasterEvent)

namespace PaymasterAccount

def deployed (params : Params) (block : Block) : PaymasterAccount :=
  ⟨.deployed params block, 0, []⟩

def emit (account : PaymasterAccount) (block : Block) (events : List PaymasterEvent) :
    PaymasterAccount :=
  { account with log := account.log ++ events.map fun event => (block.timestamp, event) }

end PaymasterAccount

section

variable (params : Params) (block : Block)

/-- A request that may end in a payout: the instance's, or a donor's. -/
inductive Spends (account : PaymasterAccount) : PaymasterOutcome → Prop where
  | reimburse {carrier : Address} {amount : Nat} {isDeclaration : Bool} {out : PaymasterOutcome}
      (hok : account.paymaster.reimburse params block account.balance carrier amount isDeclaration =
        .ok out) : Spends account out
  | reclaim {activityCheckpointTime : Nat} {sender : Address} {out : PaymasterOutcome}
      (hok : account.paymaster.reclaim params block account.balance activityCheckpointTime sender =
        .ok out) : Spends account out

/-- How an answered request ends: nothing is paid, or the push succeeds, or the payout is
parked. -/
inductive Settles (account : PaymasterAccount) (out : PaymasterOutcome) : PaymasterAccount → Prop where
  | skips (htail : out.tail = .done) :
      Settles account out (PaymasterAccount.emit
        { account with paymaster := out.storage } block out.events)
  | pushes {recipient : Address} {amount : Nat} (htail : out.tail = .payout recipient amount)
      (hfunded : amount ≤ account.balance) :
      Settles account out (PaymasterAccount.emit
        ⟨out.storage, account.balance - amount, account.log⟩ block out.events)
  | parks {recipient : Address} {amount : Nat} {sink : PayoutSink}
      (htail : out.tail = .payout recipient amount)
      (hpark : out.storage.sink.park recipient amount = .ok sink) :
      Settles account out ((PaymasterAccount.emit
        { account with paymaster := { out.storage with sink := sink } } block out.events).emit block
          [.payoutDeferred recipient amount])

/-- One step of the paymaster in a block.  ETH comes in by donations and plain
transfers, from the instance, or by force. -/
inductive PaymasterStep (account : PaymasterAccount) : PaymasterAccount → Prop where
  | donates {donor : Address} {value : Nat} {out : PaymasterOutcome}
      (hether : account.balance + value < etherBound)
      (hok : account.paymaster.donate donor value = .ok out) :
      PaymasterStep account (PaymasterAccount.emit
        ⟨out.storage, account.balance + value, account.log⟩ block out.events)
  | absorbs {amount : Nat} (hether : account.balance + amount < etherBound) :
      PaymasterStep account (PaymasterAccount.emit
        { account with balance := account.balance + amount } block [.slashAbsorbed amount])
  | forced {amount : Nat} (hether : account.balance + amount < etherBound) :
      PaymasterStep account { account with balance := account.balance + amount }
  | answers {out : PaymasterOutcome} {next : PaymasterAccount}
      (hspends : Spends params block account out) (hsettles : Settles block account out next) :
      PaymasterStep account next
  | claims {sender recipient : Address} {amount : Nat} {out : PaymasterOutcome}
      (hok : account.paymaster.claim sender = .ok out) (htail : out.tail = .claim recipient amount)
      (hfunded : amount ≤ account.balance) :
      PaymasterStep account (PaymasterAccount.emit
        ⟨out.storage, account.balance - amount, account.log⟩ block out.events)
  | claimed {recipient : Address} {amount : Nat} :
      -- the event of `claim` comes after its transfer, when other calls may have run
      PaymasterStep account (account.emit block [.claimed recipient amount])

end

/-- The states that some run of a deployed paymaster reaches, with the time. -/
inductive PaymasterReachable (params : Params) : Block → PaymasterAccount → Prop where
  | deployed (block : Block) : PaymasterReachable params block (.deployed params block)
  | step {block : Block} {account next : PaymasterAccount}
      (hreach : PaymasterReachable params block account)
      (hstep : PaymasterStep params block account next) : PaymasterReachable params block next
  | advance {block next : Block} {account : PaymasterAccount}
      (hreach : PaymasterReachable params block account)
      (hle : block.timestamp ≤ next.timestamp) : PaymasterReachable params next account

/-- What every step and the clock keep holds throughout a run. -/
structure PaymasterInvariant (params : Params) (Q : Block → PaymasterAccount → Prop) : Prop where
  deployed : ∀ block, Q block (.deployed params block)
  step : ∀ {block : Block} {account next : PaymasterAccount}, Q block account →
    PaymasterStep params block account next → Q block next
  advance : ∀ {block next : Block} {account : PaymasterAccount}, Q block account →
    block.timestamp ≤ next.timestamp → Q next account

theorem PaymasterReachable.holds {params : Params} {Q : Block → PaymasterAccount → Prop}
    (hinv : PaymasterInvariant params Q) {block : Block} {account : PaymasterAccount}
    (hreach : PaymasterReachable params block account) : Q block account := by
  induction hreach with
  | deployed block => exact hinv.deployed block
  | step _ hstep ih => exact hinv.step ih hstep
  | advance _ hle ih => exact hinv.advance ih hle

/-! ## The paymaster on the chain -/

/-- The paymaster's part of the chain. -/
def Chain.account (chain : Chain) : PaymasterAccount :=
  ⟨chain.paymaster, chain.paymasterBalance, chain.paymasterLog⟩

/-- The two contracts hold a bounded amount of ETH, and the paymaster is in a state of
one of its own runs. -/
structure Chain.Running (dep : Deployment) (block : Block) (chain : Chain) : Prop where
  ether : chain.ether < etherBound
  reach : PaymasterReachable dep.params block chain.account

section

variable {keccak256 : ByteString → Hash} {dep : Deployment} {block : Block}

namespace Chain.Running

variable {chain next : Chain}

/-- The paymaster is untouched, and no ETH comes in. -/
theorem of_same (hrunning : chain.Running dep block) (haccount : next.account = chain.account)
    (hbalance : next.balance ≤ chain.balance) : next.Running dep block := by
  refine ⟨?_, by rw [haccount]; exact hrunning.reach⟩
  have hether := hrunning.ether
  have hpaymaster : next.paymasterBalance = chain.paymasterBalance :=
    congrArg PaymasterAccount.balance haccount
  unfold Chain.ether at hether ⊢
  omega

/-- The paymaster makes a step, and no ETH comes in. -/
theorem step (hrunning : chain.Running dep block)
    (hstep : PaymasterStep dep.params block chain.account next.account)
    (hether : next.ether ≤ chain.ether) : next.Running dep block :=
  ⟨hether.trans_lt hrunning.ether, hrunning.reach.step hstep⟩

theorem release (hrunning : chain.Running dep block) : chain.release.Running dep block :=
  hrunning.of_same rfl le_rfl

theorem park {entry : Chain} (hentry : entry.Running dep block)
    (hrunning : chain.Running dep block) (recipient : Address) (amount : Nat) :
    (chain.park block entry recipient amount).Running dep block := by
  unfold Chain.park
  cases chain.store.sink.park recipient amount with
  | error e => exact hentry
  | ok sink => exact hrunning.of_same rfl le_rfl

theorem startPayout {entry : Chain} {recipient : Address} {amount : Nat}
    {frame : Option (Frame Chain Rest)} (hentry : entry.Running dep block)
    (hrunning : chain.Running dep block)
    (hstart : chain.startPayout dep block entry recipient amount = (next, frame)) {result : Chain}
    (hresult : Results next frame result) : result.Running dep block := by
  have hparked := park hentry hrunning recipient amount
  unfold Chain.startPayout at hstart
  simp only at hstart
  split at hstart
  · cases hstart
    obtain rfl := hresult.returned
    exact hparked
  · cases hstart
    rcases hresult.opened with rfl | rfl | rfl
    · exact hrunning.of_same rfl (Nat.sub_le _ _)
    · exact hparked
    · exact hentry

/-- A request whose push fails is parked, or undone where the ledger overflows. -/
theorem parkPaymaster {entry : Chain} {out : PaymasterOutcome} {recipient : Address} {amount : Nat}
    (hentry : entry.Running dep block) (hrunning : chain.Running dep block)
    (hspends : Spends dep.params block chain.account out)
    (htail : out.tail = .payout recipient amount) :
    (({ chain with paymaster := out.storage }.emitPaymaster block out.events).parkPaymaster block
      entry recipient amount).Running dep block := by
  unfold Chain.parkPaymaster
  cases hpark : out.storage.sink.park recipient amount with
  | error e =>
      simp only [Chain.emitPaymaster, hpark]
      exact hentry
  | ok sink =>
      simp only [Chain.emitPaymaster, hpark]
      exact hrunning.step (.answers hspends (.parks htail hpark)) le_rfl

theorem push {out : PaymasterOutcome} {recipient : Address} {amount : Nat}
    (hrunning : chain.Running dep block) (hspends : Spends dep.params block chain.account out)
    (htail : out.tail = .payout recipient amount) (hfunded : amount ≤ chain.paymasterBalance) :
    ({ chain.emitPaymaster block out.events with
        paymaster := out.storage
        paymasterBalance := chain.paymasterBalance - amount }).Running dep block :=
  hrunning.step (.answers hspends (.pushes htail hfunded)) (Nat.add_le_add_left (Nat.sub_le _ _) _)

theorem startReimbursement {starved : Bool} {carrier : Address} {amount : Nat}
    {isDeclaration : Bool} {frame : Option (Frame Chain Rest)} (hrunning : chain.Running dep block)
    (hstart : chain.startReimbursement dep block starved carrier amount isDeclaration =
      (next, frame)) {result : Chain} (hresult : Results next frame result) :
    result.Running dep block := by
  have hskipped := hrunning.release
  unfold Chain.startReimbursement at hstart
  simp only at hstart
  split at hstart
  · cases hstart
    obtain rfl := hresult.returned
    exact hskipped
  · cases hreimburse : chain.paymaster.reimburse dep.params block chain.paymasterBalance carrier
      amount isDeclaration with
    | error e =>
        rw [hreimburse] at hstart
        cases hstart
        obtain rfl := hresult.returned
        exact hskipped
    | ok out =>
        rw [hreimburse] at hstart
        simp only at hstart
        have hspends : Spends dep.params block chain.account out := .reimburse hreimburse
        split at hstart
        · rename_i recipient payout htail
          have hparked := (parkPaymaster hrunning hrunning hspends htail).release
          split at hstart
          · cases hstart
            obtain rfl := hresult.returned
            exact hparked
          · rename_i hfunded
            cases hstart
            rcases hresult.opened with rfl | rfl | rfl
            · exact hrunning.push hspends htail (not_lt.mp hfunded)
            · exact hparked
            · exact hskipped
        · rename_i hother
          have hdone : out.tail = .done := by
            obtain ⟨_, _, _, ⟨_, rfl⟩ | ⟨_, _, rfl⟩⟩ := Paymaster.reimburse_eq_ok hreimburse
            · rfl
            · exact absurd rfl (hother _ _)
          have hcharged : ({ chain with paymaster := out.storage }.emitPaymaster block
              out.events).Running dep block := hrunning.step (.answers hspends (.skips hdone)) le_rfl
          cases hstart
          obtain rfl := hresult.returned
          exact hcharged.release

theorem startTail {entry : Chain} {starved : Bool} {tail : Tail}
    {frame : Option (Frame Chain Rest)} (hentry : entry.Running dep block)
    (hrunning : chain.Running dep block)
    (hstart : chain.startTail dep block entry starved tail = some (next, frame)) {result : Chain}
    (hresult : Results next frame result) : result.Running dep block := by
  cases tail with
  | done =>
      cases hstart
      obtain rfl := hresult.returned
      exact hrunning
  | payout recipient amount => exact startPayout hentry hrunning (Option.some.inj hstart) hresult
  | claim recipient amount =>
      rw [Chain.startTail] at hstart
      split at hstart
      · cases hstart
      · cases hstart
        rcases hresult.opened with rfl | rfl | rfl
        · exact hrunning.of_same rfl (Nat.sub_le _ _)
        · exact hentry
        · exact hentry
  | reimburse carrier amount isDeclaration =>
      exact startReimbursement hrunning (Option.some.inj hstart) hresult

/-- The effects of an accepted call of the instance, which may absorb a slash. -/
theorem applyOutcome {msg : Msg} {call : Call} {out : Outcome} (hrunning : chain.Running dep block)
    (haccepted : Accepted keccak256 dep block chain msg call out)
    (habsorbed : out.absorbed.getD 0 ≤ chain.balance + msg.value) :
    (chain.applyOutcome block msg.value out).Running dep block := by
  have hbound := haccepted.bound
  have hether : (chain.applyOutcome block msg.value out).ether < etherBound := by
    unfold Chain.ether Chain.applyOutcome at *
    simp only
    omega
  refine ⟨hether, ?_⟩
  unfold Chain.ether at hether hbound
  cases habsorb : out.absorbed with
  | none =>
      have hsame : (chain.applyOutcome block msg.value out).account = chain.account := by
        simp [Chain.account, Chain.applyOutcome, Chain.emitPaymaster, Chain.emit, habsorb]
      rw [hsame]
      exact hrunning.reach
  | some amount =>
      rw [habsorb, Option.getD_some] at habsorbed
      have hsum : chain.account.balance + amount < etherBound := by
        change chain.paymasterBalance + amount < _
        omega
      have hshape : (chain.applyOutcome block msg.value out).account = PaymasterAccount.emit
          { chain.account with balance := chain.account.balance + amount } block
            [.slashAbsorbed amount] := by
        simp [Chain.account, Chain.applyOutcome, Chain.emitPaymaster, Chain.emit,
          PaymasterAccount.emit, habsorb]
      rw [hshape]
      exact hrunning.reach.step (.absorbs hsum)

theorem callPaymaster {msg : Msg} {call : PaymasterCall} {frame : Option (Frame Chain Rest)}
    (hrunning : chain.Running dep block)
    (hcall : chain.callPaymaster dep block msg call = some (next, frame)) {result : Chain}
    (hresult : Results next frame result) : result.Running dep block := by
  unfold Chain.callPaymaster at hcall
  split at hcall
  · cases hcall
  · rename_i hguard
    rw [not_or, not_not, not_le] at hguard
    have hether : chain.paymasterBalance + msg.value < etherBound :=
      (Nat.add_le_add_right (Nat.le_add_left _ _) _).trans_lt hguard.2
    cases hdispatch : chain.paymaster.dispatch dep.params block
      (chain.paymasterBalance + msg.value) chain.store.activityCheckpointTime msg call with
    | error e =>
        rw [hdispatch] at hcall
        cases hcall
    | ok out =>
        rw [hdispatch] at hcall
        simp only at hcall
        cases call with
        | donate =>
            have htail : out.tail = .done := by
              rw [(Paymaster.donate_eq_ok.mp hdispatch).2.2]
            rw [htail] at hcall
            cases hcall
            obtain rfl := hresult.returned
            refine ⟨?_, hrunning.reach.step (.donates hether hdispatch)⟩
            have hbound := hguard.2
            unfold Chain.ether at hbound ⊢
            exact (Nat.add_assoc _ _ _).symm.trans_lt hbound
        | reimburse _ _ _ => cases hdispatch
        | absorbSlash => cases hdispatch
        | reclaim =>
            simp only [Paymaster.dispatch, bind_eq_ok, revertIf_eq_ok, not_not] at hdispatch
            obtain ⟨_, hvalue, hok⟩ := hdispatch
            rw [hvalue, Nat.add_zero] at hok hcall
            obtain ⟨payout, htail⟩ : ∃ payout, out.tail = .payout msg.sender payout := by
              obtain ⟨_, _, _, _, _, _, _, rfl⟩ := Paymaster.reclaim_eq_ok.mp hok
              exact ⟨_, rfl⟩
            have hspends : Spends dep.params block chain.account out := .reclaim hok
            have hparked := parkPaymaster hrunning hrunning hspends htail
            rw [htail, Chain.startPaymasterTail] at hcall
            split at hcall
            · cases hcall
              obtain rfl := hresult.returned
              exact hparked
            · rename_i hfunded
              cases hcall
              rcases hresult.opened with rfl | rfl | rfl
              · exact hrunning.push hspends htail (not_lt.mp hfunded)
              · exact hparked
              · exact hrunning
        | claim =>
            simp only [Paymaster.dispatch, bind_eq_ok, revertIf_eq_ok, not_not] at hdispatch
            obtain ⟨_, hvalue, hok⟩ := hdispatch
            rw [hvalue, Nat.add_zero] at hcall
            obtain ⟨amount, htail⟩ : ∃ amount, out.tail = .claim msg.sender amount := by
              rw [(Paymaster.claim_eq_ok.mp hok).2.2]
              exact ⟨_, rfl⟩
            rw [htail, Chain.startPaymasterTail] at hcall
            split at hcall
            · cases hcall
            · rename_i hfunded
              cases hcall
              rcases hresult.opened with rfl | rfl | rfl
              · exact hrunning.step (.claims hok htail (not_lt.mp hfunded))
                  (Nat.add_le_add_left (Nat.sub_le _ _) _)
              · exact hrunning
              · exact hrunning

theorem act {action : Action} {frame : Option (Frame Chain Rest)}
    (hrunning : chain.Running dep block)
    (hact : chain.act dep block keccak256 action = some (next, frame)) {result : Chain}
    (hresult : Results next frame result) : result.Running dep block := by
  cases action with
  | call msg call =>
      obtain ⟨out, haccepted, habsorbed, hstart⟩ := callInstance_accepted hact
      exact startTail hrunning (hrunning.applyOutcome haccepted habsorbed) hstart hresult
  | callPaymaster msg call => exact hrunning.callPaymaster hact hresult
  | forceSend amount =>
      unfold Chain.act at hact
      simp only at hact
      split at hact
      · cases hact
      · rename_i hbound
        cases hact
        obtain rfl := hresult.returned
        refine ⟨?_, hrunning.reach⟩
        unfold Chain.ether at hbound ⊢
        simp only
        omega
  | forceSendPaymaster amount =>
      unfold Chain.act at hact
      simp only at hact
      split at hact
      · cases hact
      · rename_i hbound
        cases hact
        obtain rfl := hresult.returned
        unfold Chain.ether at hbound
        refine ⟨?_, hrunning.reach.step (.forced ?_)⟩
        · unfold Chain.ether
          simp only
          omega
        · change chain.paymasterBalance + amount < _
          omega

theorem resume {rest : Rest} (hrunning : chain.Running dep block)
    (hresume : chain.resume dep block rest = some next) : next.Running dep block := by
  cases rest with
  | paidOut recipient amount =>
      unfold Chain.resume at hresume
      simp only at hresume
      split at hresume
      · cases hresume
        exact hrunning
      · split at hresume
        · cases hresume
        · rename_i hbound
          unfold Chain.ether at hbound
          split at hresume
          · cases hresume
          · rename_i out hdonate
            cases hresume
            refine ⟨?_, hrunning.reach.step (.donates ?_ hdonate)⟩
            · unfold Chain.ether
              simp only [Chain.emitPaymaster]
              omega
            · change chain.paymasterBalance + amount < _
              omega
  | claimed recipient amount =>
      cases hresume
      exact hrunning.of_same rfl le_rfl
  | reimbursed =>
      cases hresume
      exact hrunning.release
  | paymasterPaidOut =>
      cases hresume
      exact hrunning
  | paymasterClaimed recipient amount =>
      cases hresume
      exact hrunning.step .claimed le_rfl

theorem preserves : (system keccak256 dep).Preserves fun block chain => chain.Running dep block where
  returns _ _ _ _ _ hrunning hcall := hrunning.act hcall (Or.inl rfl)
  opens _ _ _ _ _ hrunning hcall :=
    ⟨hrunning.act hcall (Or.inr ⟨_, rfl, Or.inl rfl⟩),
      hrunning.act hcall (Or.inr ⟨_, rfl, Or.inr rfl⟩)⟩
  resume _ _ _ _ hrunning hresume := hrunning.resume hresume
  advance _ _ _ hrunning hadvance := ⟨hrunning.ether, hrunning.reach.advance hadvance⟩

end Chain.Running

/-- In every reachable world the paymaster is in a state of one of its own runs. -/
theorem Reachable.running {world : World} (hreach : Reachable keccak256 dep world) :
    world.state.Running dep world.env := by
  refine (hreach.holds Chain.Running.preserves ?_).state
  intro block
  exact ⟨show 0 < etherBound by decide, .deployed block⟩

end

end Blobsitter.Contract
