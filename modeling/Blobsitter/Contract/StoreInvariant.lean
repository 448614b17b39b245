import Blobsitter.Contract.World

/-!
# Invariants of storage, log and payments

Pushes, parked amounts, the latch, balances and the paymaster never touch what the
provider machine and the dataset are about.  `Quiet` collects those changes; apart
from them a step is exactly one accepted call.
-/

namespace Blobsitter.Contract

open Library
open Reference (Chunk Hash Address)

/-- Events of the payout ledger. -/
def Event.isTransfer : Event → Bool
  | .payoutDeferred _ _ => true
  | .claimed _ _ => true
  | _ => false

section

variable {α : Type} (read : Event → Option α)

/-- What a reader of events finds in a log, with the times of the blocks. -/
def recorded (log : List (Nat × Event)) : List (Nat × α) :=
  log.filterMap fun entry => (read entry.2).map fun found => (entry.1, found)

theorem recorded_append_events (log : List (Nat × Event)) (time : Nat) (events : List Event) :
    recorded read (log ++ events.map fun event => (time, event)) =
      recorded read log ++ (events.filterMap read).map fun found => (time, found) := by
  unfold recorded
  rw [List.filterMap_append, List.filterMap_map, List.map_filterMap]
  rfl

/-- A reader that passes over transfers finds nothing new in them. -/
theorem recorded_append_transfers (hread : ∀ event, event.isTransfer = true → read event = none)
    (log : List (Nat × Event)) {extra : List (Nat × Event)}
    (htransfer : ∀ entry ∈ extra, entry.2.isTransfer = true) :
    recorded read (log ++ extra) = recorded read log := by
  have hnone : recorded read extra = [] := by
    refine List.filterMap_eq_nil_iff.mpr ?_
    intro entry hmem
    rw [hread entry.2 (htransfer entry hmem)]
    rfl
  unfold recorded at hnone ⊢
  rw [List.filterMap_append, hnone, List.append_nil]

end

/-! ## Steps that leave the books alone -/

/-- Nothing of the instance changed but the latch, and its log only by transfers. -/
structure Chain.Aside (chain next : Chain) : Prop where
  store : ∃ entered, next.store = { chain.store with entered := entered }
  log : ∃ extra : List (Nat × Event), next.log = chain.log ++ extra ∧
    ∀ entry ∈ extra, entry.2.isTransfer = true
  payments : next.payments = chain.payments
  balance : next.balance = chain.balance
  forced : next.forced = chain.forced

/-- Nothing changed but the payout ledger, the latch, ETH and the paymaster. -/
structure Chain.Quiet (chain next : Chain) : Prop where
  store : ∃ sink entered, next.store = { chain.store with sink := sink, entered := entered }
  log : ∃ extra : List (Nat × Event), next.log = chain.log ++ extra ∧
    ∀ entry ∈ extra, entry.2.isTransfer = true
  payments : next.payments = chain.payments

namespace Chain.Aside

/-- The instance, its log and its balance are all that counts. -/
theorem of_eq {chain next : Chain} (hstore : next.store = chain.store)
    (hlog : next.log = chain.log) (hpayments : next.payments = chain.payments)
    (hbalance : next.balance = chain.balance) (hforced : next.forced = chain.forced) :
    chain.Aside next :=
  ⟨⟨chain.store.entered, hstore⟩,
    ⟨[], by rw [hlog, List.append_nil], fun entry hmem => by cases hmem⟩, hpayments, hbalance, hforced⟩

theorem refl (chain : Chain) : chain.Aside chain := of_eq rfl rfl rfl rfl rfl

theorem trans {first second third : Chain} (hfirst : first.Aside second)
    (hsecond : second.Aside third) : first.Aside third := by
  obtain ⟨⟨entered, hstore⟩, ⟨extra, hlog, htransfer⟩, hpayments, hbalance, hforced⟩ := hfirst
  obtain ⟨⟨entered', hstore'⟩, ⟨extra', hlog', htransfer'⟩, hpayments', hbalance', hforced'⟩ := hsecond
  refine ⟨⟨entered', by rw [hstore', hstore]⟩, ⟨extra ++ extra', ?_, ?_⟩, ?_, ?_, ?_⟩
  · rw [hlog', hlog, List.append_assoc]
  · intro entry hmem
    rcases List.mem_append.mp hmem with hleft | hright
    · exact htransfer entry hleft
    · exact htransfer' entry hright
  · rw [hpayments', hpayments]
  · rw [hbalance', hbalance]
  · rw [hforced', hforced]

theorem release (chain : Chain) : chain.Aside chain.release :=
  ⟨⟨false, rfl⟩, ⟨[], by simp [Chain.release], fun entry hmem => by cases hmem⟩, rfl, rfl, rfl⟩

theorem emit (block : Block) (chain : Chain) {event : Event} (htransfer : event.isTransfer = true) :
    chain.Aside (chain.emit block [event]) := by
  refine ⟨⟨chain.store.entered, rfl⟩, ⟨[(block.timestamp, event)], rfl, ?_⟩, rfl, rfl, rfl⟩
  intro entry hmem
  cases List.mem_singleton.mp hmem
  exact htransfer

theorem quiet {chain next : Chain} (haside : chain.Aside next) : chain.Quiet next := by
  obtain ⟨⟨entered, hstore⟩, hlog, hpayments, _, _⟩ := haside
  exact ⟨⟨chain.store.sink, entered, hstore⟩, hlog, hpayments⟩

theorem parkPaymaster (block : Block) {chain entry next : Chain} {recipient : Address}
    {amount : Nat} (hpark : chain.parkPaymaster block entry recipient amount = next) :
    chain.Aside next ∨ next = entry := by
  subst hpark
  unfold Chain.parkPaymaster
  cases chain.paymaster.sink.park recipient amount with
  | error code => exact Or.inr rfl
  | ok sink => exact Or.inl (of_eq rfl rfl rfl rfl rfl)

end Chain.Aside

namespace Chain.Quiet

theorem refl (chain : Chain) : chain.Quiet chain := (Chain.Aside.refl chain).quiet

/-- Storage, log and payments are all that counts. -/
theorem of_eq {chain next : Chain} (hstore : next.store = chain.store)
    (hlog : next.log = chain.log) (hpayments : next.payments = chain.payments) :
    chain.Quiet next :=
  ⟨⟨chain.store.sink, chain.store.entered, hstore⟩,
    ⟨[], by rw [hlog, List.append_nil], fun entry hmem => by cases hmem⟩, hpayments⟩

/-- Parking is quiet, and when it overflows the call is undone. -/
theorem park (block : Block) {chain entry next : Chain} {recipient : Address} {amount : Nat}
    (hpark : chain.park block entry recipient amount = next) :
    chain.Quiet next ∨ next = entry := by
  subst hpark
  unfold Chain.park
  cases chain.store.sink.park recipient amount with
  | error code => exact Or.inr rfl
  | ok sink =>
      refine Or.inl ⟨⟨sink, chain.store.entered, rfl⟩,
        ⟨[(block.timestamp, .payoutDeferred recipient amount)], rfl, ?_⟩, rfl⟩
      intro entry hmem
      cases List.mem_singleton.mp hmem
      rfl

end Chain.Quiet

section

variable {keccak256 : ByteString → Hash} {dep : Deployment} {block : Block}

/-- A chain, or what a waiting call falls back to: both count as results of a step. -/
def Results (next : Chain) (frame : Option (Frame Chain Rest)) (result : Chain) : Prop :=
  result = next ∨ ∃ waiting, frame = some waiting ∧
    (result = waiting.onFailure ∨ result = waiting.onAbort)

theorem Results.returned {next result : Chain} (hresult : Results next none result) :
    result = next := by
  rcases hresult with hnext | ⟨waiting, hframe, _⟩
  · exact hnext
  · cases hframe

theorem Results.opened {next result : Chain} {waiting : Frame Chain Rest}
    (hresult : Results next (some waiting) result) :
    result = next ∨ result = waiting.onFailure ∨ result = waiting.onAbort := by
  rcases hresult with hnext | ⟨other, hframe, hfallback⟩
  · exact Or.inl hnext
  · cases hframe
    exact Or.inr hfallback

theorem startPayout_results {chain entry next : Chain} {recipient : Address} {amount : Nat}
    {frame : Option (Frame Chain Rest)} {result : Chain}
    (hstart : chain.startPayout dep block entry recipient amount = (next, frame))
    (hresult : Results next frame result) : chain.Quiet result ∨ result = entry := by
  unfold Chain.startPayout at hstart
  simp only at hstart
  split at hstart
  · cases hstart
    exact Chain.Quiet.park block hresult.returned.symm
  · cases hstart
    rcases hresult.opened with rfl | hfailure | habort
    · exact Or.inl (Chain.Quiet.of_eq rfl rfl rfl)
    · exact Chain.Quiet.park block hfailure.symm
    · exact Or.inr habort

theorem startReimbursement_results {chain next : Chain} {starved : Bool} {carrier : Address}
    {amount : Nat} {isDeclaration : Bool} {frame : Option (Frame Chain Rest)} {result : Chain}
    (hstart : chain.startReimbursement dep block starved carrier amount isDeclaration =
      (next, frame)) (hresult : Results next frame result) : chain.Aside result := by
  have hskipped := Chain.Aside.release chain
  unfold Chain.startReimbursement at hstart
  simp only at hstart
  split at hstart
  · cases hstart
    obtain rfl := hresult.returned
    exact hskipped
  · cases hreimburse : chain.paymaster.reimburse dep.params block chain.paymasterBalance carrier
      amount isDeclaration with
    | error e =>
        rw [hreimburse] at hstart
        cases hstart
        obtain rfl := hresult.returned
        exact hskipped
    | ok out =>
        rw [hreimburse] at hstart
        simp only at hstart
        have hcharged : chain.Aside
            ({ chain with paymaster := out.storage }.emitPaymaster block out.events) :=
          Chain.Aside.of_eq rfl rfl rfl rfl rfl
        have hparked : ∀ recipient amount, chain.Aside
            ((({ chain with paymaster := out.storage }.emitPaymaster block
              out.events).parkPaymaster block chain recipient amount).release) := by
          intro recipient amount
          rcases Chain.Aside.parkPaymaster block
            (show ({ chain with paymaster := out.storage }.emitPaymaster block
              out.events).parkPaymaster block chain recipient amount = _ from rfl)
            with haside | hentry
          · exact (hcharged.trans haside).trans (Chain.Aside.release _)
          · rw [hentry]
            exact hskipped
        split at hstart
        · split at hstart
          · cases hstart
            obtain rfl := hresult.returned
            exact hparked _ _
          · cases hstart
            rcases hresult.opened with rfl | rfl | rfl
            · exact Chain.Aside.of_eq rfl rfl rfl rfl rfl
            · exact hparked _ _
            · exact hskipped
        · cases hstart
          obtain rfl := hresult.returned
          exact hcharged.trans (Chain.Aside.release _)

theorem startTail_results {chain entry next : Chain} {starved : Bool} {tail : Tail}
    {frame : Option (Frame Chain Rest)} {result : Chain}
    (hstart : chain.startTail dep block entry starved tail = some (next, frame))
    (hresult : Results next frame result) : chain.Quiet result ∨ result = entry := by
  cases tail with
  | done =>
      cases hstart
      obtain rfl := hresult.returned
      exact Or.inl (Chain.Quiet.refl _)
  | payout recipient amount => exact startPayout_results (Option.some.inj hstart) hresult
  | claim recipient amount =>
      rw [Chain.startTail] at hstart
      split at hstart
      · cases hstart
      · cases hstart
        rcases hresult.opened with rfl | hfailure | habort
        · exact Or.inl (Chain.Quiet.of_eq rfl rfl rfl)
        · exact Or.inr hfailure
        · exact Or.inr habort
  | reimburse carrier amount isDeclaration =>
      exact Or.inl (startReimbursement_results (Option.some.inj hstart) hresult).quiet

theorem startPaymasterTail_results {chain entry next : Chain} {tail : Tail}
    {frame : Option (Frame Chain Rest)} {result : Chain}
    (hstart : chain.startPaymasterTail block entry tail = some (next, frame))
    (hresult : Results next frame result) : chain.Aside result ∨ result = entry := by
  cases tail with
  | done =>
      cases hstart
      obtain rfl := hresult.returned
      exact Or.inl (Chain.Aside.refl _)
  | payout recipient amount =>
      rw [Chain.startPaymasterTail] at hstart
      split at hstart
      · cases hstart
        exact Chain.Aside.parkPaymaster block hresult.returned.symm
      · cases hstart
        rcases hresult.opened with rfl | hfailure | habort
        · exact Or.inl (Chain.Aside.of_eq rfl rfl rfl rfl rfl)
        · exact Chain.Aside.parkPaymaster block hfailure.symm
        · exact Or.inr habort
  | claim recipient amount =>
      rw [Chain.startPaymasterTail] at hstart
      split at hstart
      · cases hstart
      · cases hstart
        rcases hresult.opened with rfl | hfailure | habort
        · exact Or.inl (Chain.Aside.of_eq rfl rfl rfl rfl rfl)
        · exact Or.inr hfailure
        · exact Or.inr habort
  | reimburse carrier amount isDeclaration =>
      cases hstart
      obtain rfl := hresult.returned
      exact Or.inl (Chain.Aside.refl _)

/-- A call that was accepted at a chain. -/
structure Accepted (keccak256 : ByteString → Hash) (dep : Deployment) (block : Block)
    (chain : Chain) (msg : Msg) (call : Call) (out : Outcome) : Prop where
  outside : Outside dep msg.sender
  bound : chain.ether + msg.value < etherBound
  dispatched : dispatch keccak256 dep block msg chain.store call = .ok out

theorem Accepted.change {chain : Chain} {msg : Msg} {call : Call} {out : Outcome}
    (haccepted : Accepted keccak256 dep block chain msg call out) :
    Change keccak256 dep block msg chain.store call out :=
  (dispatch_change haccepted.dispatched).2

theorem Accepted.balance_lt {chain : Chain} {msg : Msg} {call : Call} {out : Outcome}
    (haccepted : Accepted keccak256 dep block chain msg call out) :
    chain.balance + msg.value < etherBound :=
  (Nat.add_le_add_right (Nat.le_add_right _ _) _).trans_lt haccepted.bound

theorem callInstance_accepted {chain next : Chain} {msg : Msg} {call : Call}
    {frame : Option (Frame Chain Rest)}
    (hcall : chain.callInstance dep block keccak256 msg call = some (next, frame)) :
    ∃ out, Accepted keccak256 dep block chain msg call out ∧
      out.absorbed.getD 0 ≤ chain.balance + msg.value ∧
      (chain.applyOutcome block msg.value out).startTail dep block chain msg.starved out.tail =
        some (next, frame) := by
  unfold Chain.callInstance at hcall
  split at hcall
  · cases hcall
  · rename_i hguard
    rw [not_or, not_not, not_le] at hguard
    split at hcall
    · cases hcall
    · rename_i out hdispatch
      split at hcall
      · cases hcall
      · exact ⟨out, ⟨hguard.1, hguard.2, hdispatch⟩, by omega, hcall⟩

theorem callPaymaster_results {chain next : Chain} {msg : Msg} {call : PaymasterCall}
    {frame : Option (Frame Chain Rest)}
    (hcall : chain.callPaymaster dep block msg call = some (next, frame)) {result : Chain}
    (hresult : Results next frame result) : chain.Aside result := by
  unfold Chain.callPaymaster at hcall
  split at hcall
  · cases hcall
  · cases hdispatch : chain.paymaster.dispatch dep.params block
      (chain.paymasterBalance + msg.value) chain.store.activityCheckpointTime msg call with
    | error e =>
        rw [hdispatch] at hcall
        cases hcall
    | ok out =>
        rw [hdispatch] at hcall
        rcases startPaymasterTail_results hcall hresult with haside | rfl
        · refine Chain.Aside.trans ?_ haside
          exact Chain.Aside.of_eq rfl rfl rfl rfl rfl
        · exact Chain.Aside.refl _

/-- An accepted call without a payment returns at once. -/
theorem Accepted.returns {chain : Chain} {msg : Msg} {call : Call} {out : Outcome}
    (haccepted : Accepted keccak256 dep block chain msg call out) (habsorbed : out.absorbed = none)
    (htail : out.tail = .done) :
    chain.callInstance dep block keccak256 msg call =
      some (chain.applyOutcome block msg.value out, none) := by
  have hguard : ¬(¬Outside dep msg.sender ∨ etherBound ≤ chain.ether + msg.value) := by
    rw [not_or, not_not, not_le]
    exact ⟨haccepted.outside, haccepted.bound⟩
  unfold Chain.callInstance
  rw [if_neg hguard, haccepted.dispatched]
  simp only [habsorbed, htail]
  rfl

/-- An accepted call whose transfers are funded runs through; a failed push is parked. -/
theorem Accepted.runs {chain : Chain} {msg : Msg} {call : Call} {out : Outcome}
    (haccepted : Accepted keccak256 dep block chain msg call out)
    (hfunded : out.absorbed.getD 0 + out.tail.amount ≤ chain.balance + msg.value) :
    ∃ result, chain.callInstance dep block keccak256 msg call = some result := by
  have hguard : ¬(¬Outside dep msg.sender ∨ etherBound ≤ chain.ether + msg.value) := by
    rw [not_or, not_not, not_le]
    exact ⟨haccepted.outside, haccepted.bound⟩
  have habsorbed : ¬chain.balance + msg.value < out.absorbed.getD 0 := by omega
  unfold Chain.callInstance
  rw [if_neg hguard, haccepted.dispatched]
  simp only [if_neg habsorbed]
  cases htail : out.tail with
  | done => exact ⟨_, rfl⟩
  | payout recipient amount => exact ⟨_, rfl⟩
  | claim recipient amount =>
      have hbalance : ¬(chain.applyOutcome block msg.value out).balance < amount := by
        rw [htail] at hfunded
        change ¬chain.balance + msg.value - out.absorbed.getD 0 < amount
        change _ + amount ≤ _ at hfunded
        omega
      unfold Chain.startTail
      simp only [if_neg hbalance]
      exact ⟨_, rfl⟩
  | reimburse carrier amount isDeclaration => exact ⟨_, rfl⟩

/-- An action is a call to the instance, or ETH forced into it, or leaves it alone. -/
theorem act_cases {chain next : Chain} {action : Action} {frame : Option (Frame Chain Rest)}
    (hact : chain.act dep block keccak256 action = some (next, frame)) {result : Chain}
    (hresult : Results next frame result) :
    (∃ msg call, action = .call msg call ∧
        chain.callInstance dep block keccak256 msg call = some (next, frame)) ∨
      (∃ amount, chain.ether + amount < etherBound ∧ result =
        { chain with balance := chain.balance + amount, forced := chain.forced + amount }) ∨
      chain.Aside result := by
  cases action with
  | call msg call => exact Or.inl ⟨msg, call, rfl, hact⟩
  | callPaymaster msg call => exact Or.inr (Or.inr (callPaymaster_results hact hresult))
  | forceSend amount =>
      unfold Chain.act at hact
      simp only at hact
      split at hact
      · cases hact
      · cases hact
        obtain rfl := hresult.returned
        exact Or.inr (Or.inl ⟨amount, by omega, rfl⟩)
  | forceSendPaymaster amount =>
      unfold Chain.act at hact
      simp only at hact
      split at hact
      · cases hact
      · cases hact
        obtain rfl := hresult.returned
        exact Or.inr (Or.inr (Chain.Aside.of_eq rfl rfl rfl rfl rfl))

/-- A step is one accepted call followed by quiet changes, or quiet changes only. -/
theorem act_results {chain next : Chain} {action : Action} {frame : Option (Frame Chain Rest)}
    (hact : chain.act dep block keccak256 action = some (next, frame)) {result : Chain}
    (hresult : Results next frame result) :
    chain.Quiet result ∨ ∃ msg call out, action = .call msg call ∧
      Accepted keccak256 dep block chain msg call out ∧
      (chain.applyOutcome block msg.value out).Quiet result := by
  rcases act_cases hact hresult with ⟨msg, call, haction, hcall⟩ | ⟨amount, _, rfl⟩ | haside
  · obtain ⟨out, haccepted, _, hstart⟩ := callInstance_accepted hcall
    rcases startTail_results hstart hresult with hquiet | rfl
    · exact Or.inr ⟨msg, call, out, haction, haccepted, hquiet⟩
    · exact Or.inl (Chain.Quiet.refl _)
  · exact Or.inl (Chain.Quiet.of_eq rfl rfl rfl)
  · exact Or.inl haside.quiet

theorem resume_aside {chain next : Chain} {rest : Rest}
    (hresume : chain.resume dep block rest = some next) : chain.Aside next := by
  cases rest with
  | paidOut recipient amount =>
      unfold Chain.resume at hresume
      simp only at hresume
      split at hresume
      · cases hresume
        exact Chain.Aside.refl _
      · split at hresume
        · cases hresume
        · split at hresume
          · cases hresume
          · cases hresume
            exact Chain.Aside.of_eq rfl rfl rfl rfl rfl
  | claimed recipient amount =>
      cases hresume
      exact Chain.Aside.emit block chain rfl
  | reimbursed =>
      cases hresume
      exact Chain.Aside.release chain
  | paymasterPaidOut =>
      cases hresume
      exact Chain.Aside.refl _
  | paymasterClaimed recipient amount =>
      cases hresume
      exact Chain.Aside.of_eq rfl rfl rfl rfl rfl

/-! ## The invariant rule -/

/-- What an invariant of storage, log and payments has to satisfy: accepted calls and
the clock keep it, and it does not look at the payout ledger or the latch. -/
structure StoreInvariant (keccak256 : ByteString → Hash) (dep : Deployment)
    (Q : Block → Storage → List (Nat × Event) → List Payment → Prop) : Prop where
  change : ∀ {block : Block} {s : Storage} {log : List (Nat × Event)} {payments : List Payment}
    {msg : Msg} {call : Call} {out : Outcome}, Q block s log payments → Outside dep msg.sender →
    call.inRange = true → Change keccak256 dep block msg s call out →
    Q block out.storage (log ++ out.events.map fun event => (block.timestamp, event))
      (payments ++ out.payments)
  quiet : ∀ {block : Block} {s : Storage} {log extra : List (Nat × Event)}
    {payments : List Payment} (sink : PayoutSink) (entered : Bool), Q block s log payments →
    (∀ entry ∈ extra, entry.2.isTransfer = true) →
    Q block { s with sink := sink, entered := entered } (log ++ extra) payments
  advance : ∀ {block next : Block} {s : Storage} {log : List (Nat × Event)}
    {payments : List Payment}, Q block s log payments → block.timestamp ≤ next.timestamp →
    Q next s log payments

/-- The same for the runs in which every accepted call meets a condition on the state it
is made in. -/
structure StoreInvariantWhere (keccak256 : ByteString → Hash) (dep : Deployment)
    (allowed : Block → Storage → Call → Bool)
    (Q : Block → Storage → List (Nat × Event) → List Payment → Prop) : Prop where
  change : ∀ {block : Block} {s : Storage} {log : List (Nat × Event)} {payments : List Payment}
    {msg : Msg} {call : Call} {out : Outcome}, Q block s log payments → Outside dep msg.sender →
    call.inRange = true → allowed block s call = true → Change keccak256 dep block msg s call out →
    Q block out.storage (log ++ out.events.map fun event => (block.timestamp, event))
      (payments ++ out.payments)
  quiet : ∀ {block : Block} {s : Storage} {log extra : List (Nat × Event)}
    {payments : List Payment} (sink : PayoutSink) (entered : Bool), Q block s log payments →
    (∀ entry ∈ extra, entry.2.isTransfer = true) →
    Q block { s with sink := sink, entered := entered } (log ++ extra) payments
  advance : ∀ {block next : Block} {s : Storage} {log : List (Nat × Event)}
    {payments : List Payment}, Q block s log payments → block.timestamp ≤ next.timestamp →
    Q next s log payments

/-- The property of chains that an invariant of their parts is. -/
def OnChain (Q : Block → Storage → List (Nat × Event) → List Payment → Prop) (block : Block)
    (chain : Chain) : Prop :=
  Q block chain.store chain.log chain.payments

/-- The actions whose calls meet the condition. -/
def Action.guard (allowed : Block → Storage → Call → Bool) (block : Block) (chain : Chain) :
    Action → Bool
  | .call _ made => allowed block chain.store made
  | _ => true

variable {allowed : Block → Storage → Call → Bool}
variable {Q : Block → Storage → List (Nat × Event) → List Payment → Prop}

theorem StoreInvariant.where (hinv : StoreInvariant keccak256 dep Q) :
    StoreInvariantWhere keccak256 dep allowed Q where
  change hholds houtside hrange _ hchange := hinv.change hholds houtside hrange hchange
  quiet sink entered hholds htransfer := hinv.quiet sink entered hholds htransfer
  advance hholds hle := hinv.advance hholds hle

namespace StoreInvariantWhere

theorem of_quiet (hinv : StoreInvariantWhere keccak256 dep allowed Q) {chain next : Chain}
    (hquiet : chain.Quiet next) (hholds : OnChain Q block chain) : OnChain Q block next := by
  obtain ⟨⟨sink, entered, hstore⟩, ⟨extra, hlog, htransfer⟩, hpayments⟩ := hquiet
  unfold OnChain
  rw [hstore, hlog, hpayments]
  exact hinv.quiet sink entered hholds htransfer

theorem of_accepted (hinv : StoreInvariantWhere keccak256 dep allowed Q) {chain : Chain}
    {msg : Msg} {call : Call} {out : Outcome}
    (haccepted : Accepted keccak256 dep block chain msg call out)
    (hallowed : allowed block chain.store call = true) (hholds : OnChain Q block chain) :
    OnChain Q block (chain.applyOutcome block msg.value out) :=
  hinv.change hholds haccepted.outside (dispatch_change haccepted.dispatched).1 hallowed
    haccepted.change

theorem of_act (hinv : StoreInvariantWhere keccak256 dep allowed Q) {chain next : Chain}
    {action : Action} {frame : Option (Frame Chain Rest)}
    (hact : chain.act dep block keccak256 action = some (next, frame))
    (hguard : action.guard allowed block chain = true)
    (hholds : OnChain Q block chain) {result : Chain} (hresult : Results next frame result) :
    OnChain Q block result := by
  rcases act_results hact hresult with hquiet | ⟨msg, call, out, rfl, haccepted, hquiet⟩
  · exact hinv.of_quiet hquiet hholds
  · exact hinv.of_quiet hquiet (hinv.of_accepted haccepted hguard hholds)

/-- Such an invariant is preserved by every step that meets the condition. -/
theorem preserves (hinv : StoreInvariantWhere keccak256 dep allowed Q) :
    ((system keccak256 dep).restrict fun block chain action =>
      action.guard allowed block chain).Preserves (OnChain Q) where
  returns _ _ _ _ _ hholds hcall := by
    obtain ⟨hguard, hact⟩ := CallSystem.restrict_call.mp hcall
    exact hinv.of_act hact hguard hholds (Or.inl rfl)
  opens _ _ _ _ _ hholds hcall := by
    obtain ⟨hguard, hact⟩ := CallSystem.restrict_call.mp hcall
    exact ⟨hinv.of_act hact hguard hholds (Or.inr ⟨_, rfl, Or.inl rfl⟩),
      hinv.of_act hact hguard hholds (Or.inr ⟨_, rfl, Or.inr rfl⟩)⟩
  resume _ _ _ _ hholds hresume := hinv.of_quiet (resume_aside hresume).quiet hholds
  advance _ _ _ hholds hadvance := hinv.advance hholds hadvance

end StoreInvariantWhere

/-- An invariant is preserved by every step of the system. -/
theorem StoreInvariant.preserves (hinv : StoreInvariant keccak256 dep Q) :
    (system keccak256 dep).Preserves (OnChain Q) := by
  have hwhere : StoreInvariantWhere keccak256 dep (fun _ _ _ => true) Q := hinv.where
  have hguard : ∀ block chain (action : Action),
      action.guard (fun _ _ _ => true) block chain = true := by
    intro block chain action
    cases action <;> rfl
  refine ⟨?_, ?_, ?_, ?_⟩
  · intro block action chain next frame hholds hcall
    exact hwhere.of_act hcall (hguard _ _ _) hholds (Or.inl rfl)
  · intro block action chain next frame hholds hcall
    exact ⟨hwhere.of_act hcall (hguard _ _ _) hholds (Or.inr ⟨_, rfl, Or.inl rfl⟩),
      hwhere.of_act hcall (hguard _ _ _) hholds (Or.inr ⟨_, rfl, Or.inr rfl⟩)⟩
  · intro block rest chain next hholds hresume
    exact hwhere.of_quiet (resume_aside hresume).quiet hholds
  · intro block next chain hholds hadvance
    exact hinv.advance hholds hadvance

/-- The same rule for properties of whole chains, in the runs that a guard of actions
leaves: quiet changes, guarded accepted calls and the clock have to keep the property. -/
theorem guarded_preserves {guard : Block → Chain → Action → Bool} {P : Block → Chain → Prop}
    (hquiets : ∀ {block : Block} {chain next : Chain}, chain.Quiet next → P block chain →
      P block next)
    (haccepts : ∀ {block : Block} {chain : Chain} {msg : Msg} {call : Call} {out : Outcome},
      guard block chain (.call msg call) = true → Accepted keccak256 dep block chain msg call out →
      P block chain → P block (chain.applyOutcome block msg.value out))
    (hadvances : ∀ {block next : Block} {chain : Chain}, P block chain →
      block.timestamp ≤ next.timestamp → P next chain) :
    ((system keccak256 dep).restrict guard).Preserves P := by
  have hact : ∀ {block : Block} {chain next : Chain} {action : Action}
      {frame : Option (Frame Chain Rest)} {result : Chain}, P block chain →
      ((system keccak256 dep).restrict guard).call block action chain = some (next, frame) →
      Results next frame result → P block result := by
    intro block chain next action frame result hholds hcall hresult
    obtain ⟨hguard, hact⟩ := CallSystem.restrict_call.mp hcall
    rcases act_results hact hresult with hquiet | ⟨msg, call, out, rfl, haccepted, hquiet⟩
    · exact hquiets hquiet hholds
    · exact hquiets hquiet (haccepts hguard haccepted hholds)
  refine ⟨?_, ?_, ?_, ?_⟩
  · intro block action chain next frame hholds hcall
    exact hact hholds hcall (Or.inl rfl)
  · intro block action chain next frame hholds hcall
    exact ⟨hact hholds hcall (Or.inr ⟨_, rfl, Or.inl rfl⟩),
      hact hholds hcall (Or.inr ⟨_, rfl, Or.inr rfl⟩)⟩
  · intro block rest chain next hholds hresume
    exact hquiets (resume_aside hresume).quiet hholds
  · intro block next chain hholds hadvance
    exact hadvances hholds hadvance

/-- The log of a later world extends the one of an idle earlier world. -/
theorem log_extends {world later : World} (hreach : Reachable keccak256 dep world)
    (hidle : world.stack = []) (hsteps : (system keccak256 dep).Steps world later) :
    world.state.log <+: later.state.log := by
  have hinv : StoreInvariant keccak256 dep fun _ _ log _ => world.state.log <+: log :=
    { change := fun hextends _ _ _ => hextends.trans (List.prefix_append _ _)
      quiet := fun _ _ hextends _ => hextends.trans (List.prefix_append _ _)
      advance := fun hextends _ => hextends }
  obtain ⟨env, chain, stack⟩ := world
  cases hidle
  exact (hsteps.holds hinv.preserves (Machine.holds_of_idle List.prefix_rfl)).state

end

end Blobsitter.Contract
