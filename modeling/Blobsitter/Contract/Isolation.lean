import Blobsitter.Contract.Declarations

/-!
# A publication stands

The last thing a publication does is to ask the paymaster for the carrier's expenses, and
the paymaster pushes them to the carrier's code.  Whatever that code calls and however the
push ends, what was published stays published, nothing else is published meanwhile, and
the paymaster is asked at most once.
-/

namespace Blobsitter.Contract

open Library
open Reference (Hash Address)

/-- The fields that only signed intents write. -/
structure PublicationState where
  leafCount : Nat
  peaks : List Hash
  declarationNonce : Nat
  appPointerNonce : Nat
  successorNonce : Nat
  appPointer : Hash
  successor : Address
  activityCheckpointTime : Nat
  activityCheckpointLeafCount : Nat

def Storage.publicationState (s : Storage) : PublicationState where
  leafCount := s.leafCount
  peaks := s.peaks
  declarationNonce := s.declarationNonce
  appPointerNonce := s.appPointerNonce
  successorNonce := s.successorNonce
  appPointer := s.appPointer
  successor := s.successor
  activityCheckpointTime := s.activityCheckpointTime
  activityCheckpointLeafCount := s.activityCheckpointLeafCount

/-- The calls that carry a signed intent. -/
def Call.publishes : Call → Bool
  | .declareFor _ _ _ _ => true
  | .setAppPointer _ _ _ _ => true
  | .setSuccessor _ _ _ _ => true
  | _ => false

/-- The entries of signed intents, oldest first. -/
def intentEntries (log : List (Nat × Event)) : List (Nat × Event) :=
  log.filter fun entry => entry.2.isIntent

/-- The paymaster's answers to requests for reimbursement. -/
def PaymasterEvent.isAnswer : PaymasterEvent → Bool
  | .reimbursed _ _ _ => true
  | .reimbursementSkipped _ _ _ _ => true
  | _ => false

def answers (log : List (Nat × PaymasterEvent)) : List (Nat × PaymasterEvent) :=
  log.filter fun entry => entry.2.isAnswer

/-- All of the chain that publication is about. -/
structure PublicView where
  latch : Bool
  state : PublicationState
  intents : List (Nat × Event)
  answers : List (Nat × PaymasterEvent)

def Chain.publicView (chain : Chain) : PublicView where
  latch := chain.store.entered
  state := chain.store.publicationState
  intents := intentEntries chain.log
  answers := answers chain.paymasterLog

section

variable {keccak256 : ByteString → Hash} {dep : Deployment} {block : Block} {msg : Msg}

theorem intentEntries_append (log extra : List (Nat × Event)) :
    intentEntries (log ++ extra) = intentEntries log ++ intentEntries extra :=
  List.filter_append log extra

theorem intentEntries_append_none (log : List (Nat × Event)) {extra : List (Nat × Event)}
    (hother : ∀ entry ∈ extra, entry.2.isIntent = false) :
    intentEntries (log ++ extra) = intentEntries log := by
  have hnone : intentEntries extra = [] := by
    refine List.filter_eq_nil_iff.mpr fun entry hmem => ?_
    rw [hother entry hmem]
    exact Bool.false_ne_true
  rw [intentEntries_append, hnone, List.append_nil]

theorem answers_append_none (log : List (Nat × PaymasterEvent)) (time : Nat)
    {events : List PaymasterEvent} (hother : ∀ event ∈ events, event.isAnswer = false) :
    answers (log ++ events.map fun event => (time, event)) = answers log := by
  have hnone : answers (events.map fun event => (time, event)) = [] := by
    refine List.filter_eq_nil_iff.mpr fun entry hmem => ?_
    obtain ⟨event, hevent, rfl⟩ := List.mem_map.mp hmem
    rw [hother event hevent]
    exact Bool.false_ne_true
  unfold answers at hnone ⊢
  rw [List.filter_append, hnone, List.append_nil]

/-- What a call that carries no intent leaves as it was. -/
structure Outcome.Unpublished (s : Storage) (out : Outcome) : Prop where
  state : out.storage.publicationState = s.publicationState
  latch : out.storage.entered = s.entered
  events : ∀ event ∈ out.events, event.isIntent = false
  tail : ∀ carrier amount isDeclaration, out.tail ≠ .reimburse carrier amount isDeclaration

theorem Change.unpublished {s : Storage} {call : Call} {out : Outcome}
    (hchange : Change keccak256 dep block msg s call out) (hother : call.publishes = false) :
    out.Unpublished s := by
  have hevents : ∀ event ∈ out.events, event.isIntent = false := by
    rcases hchange.publication with ⟨d, publisherSig, openings, equivalenceProof, rfl, _⟩ |
      ⟨hcall, _⟩ | ⟨_, _, hevents⟩
    · cases hother
    · rcases hcall with ⟨_, _, _, _, rfl⟩ | ⟨_, _, _, _, rfl⟩ <;> cases hother
    · exact hevents
  cases hchange with
  | declared => cases hother
  | pointed _ _ hcall =>
      rcases hcall with ⟨_, _, _, _, rfl⟩ | ⟨_, _, _, _, rfl⟩ <;> cases hother
  | _ =>
      refine ⟨rfl, rfl, hevents, ?_⟩
      rintro carrier amount isDeclaration htail
      cases htail

/-- A publication is accepted only with the latch open. -/
theorem Change.latch_open {s : Storage} {call : Call} {out : Outcome}
    (hchange : Change keccak256 dep block msg s call out) (hpublishes : call.publishes = true) :
    s.entered = false := by
  cases hchange with
  | declared _ haccepted => exact haccepted.idle
  | pointed _ haccepted => exact haccepted.idle
  | noted _ hevent => rcases hevent with ⟨_, rfl, _⟩ | ⟨rfl, _⟩ <;> cases hpublishes
  | proven _ hcall => rcases hcall with ⟨_, rfl⟩ | ⟨_, _, _, rfl⟩ <;> cases hpublishes
  | _ => cases hpublishes

/-! ## Steps that leave the view alone -/

theorem park_publicView {chain entry : Chain} {recipient : Address} {amount : Nat} :
    (chain.park block entry recipient amount).publicView = chain.publicView ∨
      chain.park block entry recipient amount = entry := by
  unfold Chain.park
  cases chain.store.sink.park recipient amount with
  | error code => exact Or.inr rfl
  | ok sink =>
      have hlog : intentEntries (chain.log ++ [(block.timestamp, .payoutDeferred recipient amount)]) =
          intentEntries chain.log := by
        refine intentEntries_append_none chain.log fun entry hmem => ?_
        rw [List.mem_singleton.mp hmem]
        rfl
      refine Or.inl ?_
      unfold Chain.publicView
      rw [← hlog]
      rfl

theorem parkPaymaster_publicView {chain entry : Chain} {recipient : Address} {amount : Nat} :
    (chain.parkPaymaster block entry recipient amount).publicView = chain.publicView ∨
      chain.parkPaymaster block entry recipient amount = entry := by
  unfold Chain.parkPaymaster
  cases chain.paymaster.sink.park recipient amount with
  | error code => exact Or.inr rfl
  | ok sink =>
      have hlog := @answers_append_none chain.paymasterLog block.timestamp
        [.payoutDeferred recipient amount] (fun event hmem => by rw [List.mem_singleton.mp hmem]; rfl)
      refine Or.inl ?_
      unfold Chain.publicView
      rw [← hlog]
      rfl

/-- A call's chain and the chains its push may fall back to. -/
theorem startPayout_publicView {chain entry next result : Chain} {recipient : Address} {amount : Nat}
    {frame : Option (Frame Chain Rest)} (hentry : entry.publicView = chain.publicView)
    (hstart : chain.startPayout dep block entry recipient amount = (next, frame))
    (hresult : Results next frame result) : result.publicView = chain.publicView := by
  have hparked : (chain.park block entry recipient amount).publicView = chain.publicView := by
    rcases park_publicView with hview | hback
    · exact hview
    · rw [hback, hentry]
  unfold Chain.startPayout at hstart
  simp only at hstart
  split at hstart
  · cases hstart
    obtain rfl := hresult.returned
    exact hparked
  · cases hstart
    rcases hresult.opened with rfl | rfl | rfl
    · rfl
    · exact hparked
    · exact hentry

theorem startTail_publicView {chain entry next result : Chain} {starved : Bool} {tail : Tail}
    {frame : Option (Frame Chain Rest)} (hentry : entry.publicView = chain.publicView)
    (htail : ∀ carrier amount isDeclaration, tail ≠ .reimburse carrier amount isDeclaration)
    (hstart : chain.startTail dep block entry starved tail = some (next, frame))
    (hresult : Results next frame result) : result.publicView = chain.publicView := by
  cases tail with
  | done =>
      cases hstart
      obtain rfl := hresult.returned
      rfl
  | payout recipient amount => exact startPayout_publicView hentry (Option.some.inj hstart) hresult
  | claim recipient amount =>
      rw [Chain.startTail] at hstart
      split at hstart
      · cases hstart
      · cases hstart
        rcases hresult.opened with rfl | rfl | rfl
        · rfl
        · exact hentry
        · exact hentry
  | reimburse carrier amount isDeclaration => exact absurd rfl (htail carrier amount isDeclaration)

theorem startPaymasterTail_publicView {chain entry next result : Chain} {tail : Tail}
    {frame : Option (Frame Chain Rest)} (hentry : entry.publicView = chain.publicView)
    (hstart : chain.startPaymasterTail block entry tail = some (next, frame))
    (hresult : Results next frame result) : result.publicView = chain.publicView := by
  have hparked : ∀ recipient amount,
      (chain.parkPaymaster block entry recipient amount).publicView = chain.publicView := by
    intro recipient amount
    rcases @parkPaymaster_publicView block chain entry recipient amount with hview | hback
    · exact hview
    · rw [hback, hentry]
  cases tail with
  | payout recipient amount =>
      rw [Chain.startPaymasterTail] at hstart
      split at hstart
      · cases hstart
        obtain rfl := hresult.returned
        exact hparked recipient amount
      · cases hstart
        rcases hresult.opened with rfl | rfl | rfl
        · rfl
        · exact hparked recipient amount
        · exact hentry
  | claim recipient amount =>
      rw [Chain.startPaymasterTail] at hstart
      split at hstart
      · cases hstart
      · cases hstart
        rcases hresult.opened with rfl | rfl | rfl
        · rfl
        · exact hentry
        · exact hentry
  | _ =>
      cases hstart
      obtain rfl := hresult.returned
      rfl

/-- The effects of an accepted call that carries no intent. -/
theorem applyOutcome_publicView {chain : Chain} {value : Nat} {out : Outcome}
    (hsame : out.Unpublished chain.store) :
    (chain.applyOutcome block value out).publicView = chain.publicView := by
  have hintents : intentEntries (chain.log ++ out.events.map fun event => (block.timestamp, event)) =
      intentEntries chain.log := by
    refine intentEntries_append_none chain.log fun entry hmem => ?_
    obtain ⟨event, hevent, rfl⟩ := List.mem_map.mp hmem
    exact hsame.events event hevent
  have hanswers : answers (chain.paymasterLog ++
      (out.absorbed.toList.map PaymasterEvent.slashAbsorbed).map fun event =>
        (block.timestamp, event)) = answers chain.paymasterLog := by
    refine answers_append_none chain.paymasterLog block.timestamp fun event hmem => ?_
    obtain ⟨amount, _, rfl⟩ := List.mem_map.mp hmem
    rfl
  unfold Chain.publicView
  rw [← hsame.latch, ← hsame.state, ← hintents, ← hanswers]
  rfl

theorem callInstance_publicView {chain next result : Chain} {call : Call}
    {frame : Option (Frame Chain Rest)} (hother : call.publishes = false)
    (hcall : chain.callInstance dep block keccak256 msg call = some (next, frame))
    (hresult : Results next frame result) : result.publicView = chain.publicView := by
  obtain ⟨out, haccepted, _, hstart⟩ := callInstance_accepted hcall
  have hsame := haccepted.change.unpublished hother
  have hview := @applyOutcome_publicView block chain msg.value out hsame
  exact (startTail_publicView hview.symm hsame.tail hstart hresult).trans hview

/-- No account but the instance is answered by the paymaster. -/
theorem Paymaster.dispatch_events {pm : Paymaster} {params : Params} {balance checkpoint : Nat}
    {call : PaymasterCall} {out : PaymasterOutcome}
    (hok : pm.dispatch params block balance checkpoint msg call = .ok out) :
    ∀ event ∈ out.events, event.isAnswer = false := by
  cases call with
  | donate =>
      obtain ⟨_, _, rfl⟩ := donate_eq_ok.mp hok
      intro event hmem
      rw [List.mem_singleton.mp hmem]
      rfl
  | reimburse => cases hok
  | absorbSlash => cases hok
  | reclaim =>
      obtain ⟨_, _, hok⟩ := bind_eq_ok.mp hok
      obtain ⟨_, _, _, _, _, _, _, rfl⟩ := reclaim_eq_ok.mp hok
      intro event hmem
      rw [List.mem_singleton.mp hmem]
      rfl
  | claim =>
      obtain ⟨_, _, hok⟩ := bind_eq_ok.mp hok
      obtain ⟨_, _, rfl⟩ := claim_eq_ok.mp hok
      intro event hmem
      cases hmem

theorem callPaymaster_publicView {chain next result : Chain} {call : PaymasterCall}
    {frame : Option (Frame Chain Rest)}
    (hcall : chain.callPaymaster dep block msg call = some (next, frame))
    (hresult : Results next frame result) : result.publicView = chain.publicView := by
  unfold Chain.callPaymaster at hcall
  split at hcall
  · cases hcall
  · cases hdispatch : chain.paymaster.dispatch dep.params block
      (chain.paymasterBalance + msg.value) chain.store.activityCheckpointTime msg call with
    | error e =>
        rw [hdispatch] at hcall
        cases hcall
    | ok out =>
        rw [hdispatch] at hcall
        have hanswers := answers_append_none chain.paymasterLog block.timestamp
          (Paymaster.dispatch_events hdispatch)
        have hview : ({ chain with
            paymaster := out.storage
            paymasterBalance := chain.paymasterBalance + msg.value }.emitPaymaster block
              out.events).publicView = chain.publicView := by
          unfold Chain.publicView
          rw [← hanswers]
          rfl
        exact (startPaymasterTail_publicView hview.symm hcall hresult).trans hview

/-- What is left of a call that carried no intent leaves the view alone too. -/
theorem resume_publicView {chain next : Chain} {rest : Rest} (hother : rest ≠ .reimbursed)
    (hresume : chain.resume dep block rest = some next) : next.publicView = chain.publicView := by
  cases rest with
  | paidOut recipient amount =>
      unfold Chain.resume at hresume
      simp only at hresume
      split at hresume
      · cases hresume
        rfl
      · split at hresume
        · cases hresume
        · cases hdonate : chain.paymaster.donate dep.self amount with
          | error e =>
              rw [hdonate] at hresume
              cases hresume
          | ok out =>
              rw [hdonate] at hresume
              cases hresume
              obtain ⟨_, _, rfl⟩ := Paymaster.donate_eq_ok.mp hdonate
              have hanswers := @answers_append_none chain.paymasterLog block.timestamp
                [.donated dep.self amount]
                (fun event hmem => by rw [List.mem_singleton.mp hmem]; rfl)
              unfold Chain.publicView
              rw [← hanswers]
              rfl
  | claimed recipient amount =>
      cases hresume
      have hlog : intentEntries (chain.log ++ [(block.timestamp, .claimed recipient amount)]) =
          intentEntries chain.log := by
        refine intentEntries_append_none chain.log fun entry hmem => ?_
        rw [List.mem_singleton.mp hmem]
        rfl
      unfold Chain.publicView
      rw [← hlog]
      rfl
  | reimbursed => exact absurd rfl hother
  | paymasterPaidOut =>
      cases hresume
      rfl
  | paymasterClaimed recipient amount =>
      cases hresume
      have hanswers := @answers_append_none chain.paymasterLog block.timestamp
        [.claimed recipient amount] (fun event hmem => by rw [List.mem_singleton.mp hmem]; rfl)
      unfold Chain.publicView
      rw [← hanswers]
      rfl

/-- Only the reimbursement of a publication waits as `reimbursed`. -/
theorem act_rest {chain next : Chain} {action : Action} {waiting : Frame Chain Rest}
    (hother : ∀ msg call, action = .call msg call → call.publishes = false)
    (hact : chain.act dep block keccak256 action = some (next, some waiting)) :
    waiting.onSuccess ≠ .reimbursed := by
  have hpaid : ∀ {chain entry : Chain} {tail : Tail},
      chain.startPaymasterTail block entry tail = some (next, some waiting) →
      waiting.onSuccess ≠ .reimbursed := by
    intro chain entry tail hstart
    cases tail with
    | payout recipient amount =>
        rw [Chain.startPaymasterTail] at hstart
        split at hstart <;> cases hstart
        exact Rest.noConfusion
    | claim recipient amount =>
        rw [Chain.startPaymasterTail] at hstart
        split at hstart <;> cases hstart
        exact Rest.noConfusion
    | _ => cases hstart
  cases action with
  | call msg call =>
      obtain ⟨out, haccepted, _, hstart⟩ := callInstance_accepted hact
      have htail := (haccepted.change.unpublished (hother msg call rfl)).tail
      cases hkind : out.tail with
      | done =>
          rw [hkind] at hstart
          cases hstart
      | payout recipient amount =>
          rw [hkind, Chain.startTail, Chain.startPayout] at hstart
          simp only [Option.some.injEq] at hstart
          split at hstart <;> cases hstart
          exact Rest.noConfusion
      | claim recipient amount =>
          rw [hkind, Chain.startTail] at hstart
          split at hstart <;> cases hstart
          exact Rest.noConfusion
      | reimburse carrier amount isDeclaration => exact absurd hkind (htail _ _ _)
  | callPaymaster msg call =>
      unfold Chain.act Chain.callPaymaster at hact
      simp only at hact
      split at hact
      · cases hact
      · split at hact
        · cases hact
        · exact hpaid hact
  | forceSend amount =>
      unfold Chain.act at hact
      simp only at hact
      split at hact <;> cases hact
  | forceSendPaymaster amount =>
      unfold Chain.act at hact
      simp only at hact
      split at hact <;> cases hact

theorem callInstance_latched {chain : Chain} {call : Call} (hlatch : chain.store.entered = true)
    (hpublishes : call.publishes = true) : chain.callInstance dep block keccak256 msg call = none := by
  cases hcall : chain.callInstance dep block keccak256 msg call with
  | none => rfl
  | some result =>
      obtain ⟨out, haccepted, _, _⟩ := callInstance_accepted hcall
      have hopen := haccepted.change.latch_open hpublishes
      rw [hlatch] at hopen
      cases hopen

/-- Behind the latch every accepted action leaves the view alone. -/
theorem act_publicView {chain next result : Chain} {action : Action}
    {frame : Option (Frame Chain Rest)}
    (hother : ∀ msg call, action = .call msg call → call.publishes = false)
    (hact : chain.act dep block keccak256 action = some (next, frame))
    (hresult : Results next frame result) : result.publicView = chain.publicView := by
  cases action with
  | call msg call => exact callInstance_publicView (hother msg call rfl) hact hresult
  | callPaymaster msg call => exact callPaymaster_publicView hact hresult
  | forceSend amount =>
      unfold Chain.act at hact
      simp only at hact
      split at hact <;> cases hact
      obtain rfl := hresult.returned
      rfl
  | forceSendPaymaster amount =>
      unfold Chain.act at hact
      simp only at hact
      split at hact <;> cases hact
      obtain rfl := hresult.returned
      rfl

/-- While the latch is closed the view is kept by whatever runs. -/
theorem latched_kept {view : PublicView} (hlatch : view.latch = true) :
    (system keccak256 dep).KeptBy (fun chain => chain.publicView = view) block := by
  have hother : ∀ {action : Action} {chain : Chain} {result : Chain × Option (Frame Chain Rest)},
      chain.publicView = view → chain.act dep block keccak256 action = some result →
      ∀ msg call, action = .call msg call → call.publishes = false := by
    rintro action chain result hview hact msg call rfl
    cases hpublishes : call.publishes with
    | false => rfl
    | true =>
        have hclosed : chain.store.entered = true := (congrArg PublicView.latch hview).trans hlatch
        rw [show chain.act dep block keccak256 (.call msg call) = none from
          callInstance_latched hclosed hpublishes] at hact
        cases hact
  refine ⟨?_, ?_⟩
  · intro action chain next frame hview hact
    exact (act_publicView (hother hview hact) hact (Or.inl rfl)).trans hview
  · intro action chain next waiting hview hact
    have hothers := hother hview hact
    refine ⟨?_, ?_, ?_⟩
    · exact (act_publicView hothers hact (Or.inr ⟨_, rfl, Or.inl rfl⟩)).trans hview
    · exact (act_publicView hothers hact (Or.inr ⟨_, rfl, Or.inr rfl⟩)).trans hview
    · intro state later hstate hresume
      exact (resume_publicView (act_rest hothers hact) hresume).trans hstate

/-! ## The publication itself -/

/-- What is left of a view once the paymaster was asked: the same, but at most one answer. -/
structure PublicView.AskedOnce (before view : PublicView) : Prop where
  state : view.state = before.state
  intents : view.intents = before.intents
  answers : view.answers = before.answers ∨ ∃ answer, view.answers = before.answers ++ [answer]

theorem Change.published {s : Storage} {call : Call} {out : Outcome}
    (hchange : Change keccak256 dep block msg s call out) (hpublishes : call.publishes = true) :
    (∀ event ∈ out.events, event.isIntent = true) ∧ out.absorbed = none ∧
      ∃ carrier amount isDeclaration, out.tail = .reimburse carrier amount isDeclaration := by
  cases hchange with
  | declared _ haccepted _ habsorbed _ htail =>
      obtain ⟨_, _, _, _, _, _, _, _, hevents⟩ := haccepted.subtreeCount
      obtain ⟨amount, htail⟩ := htail
      refine ⟨?_, habsorbed, _, _, _, htail⟩
      rw [hevents]
      intro event hmem
      rw [List.mem_singleton.mp hmem]
      rfl
  | pointed _ haccepted _ =>
      obtain ⟨amount, htail⟩ := haccepted.tail
      refine ⟨?_, haccepted.absorbed, _, _, _, htail⟩
      rcases haccepted.events with ⟨_, _, hevents⟩ | ⟨_, hevents⟩
      · rw [hevents]
        intro event hmem
        rw [List.mem_singleton.mp hmem]
        rfl
      · rw [hevents]
        intro event hmem
        rw [List.mem_singleton.mp hmem]
        rfl
  | noted _ hevent => rcases hevent with ⟨_, rfl, _⟩ | ⟨rfl, _⟩ <;> cases hpublishes
  | proven _ hcall => rcases hcall with ⟨_, rfl⟩ | ⟨_, _, _, rfl⟩ <;> cases hpublishes
  | _ => cases hpublishes

/-- An accepted publication closes the latch. -/
theorem dispatch_latched {s : Storage} {call : Call} {out : Outcome} (hpublishes : call.publishes = true)
    (hok : dispatch keccak256 dep block msg s call = .ok out) : out.storage.entered = true := by
  obtain ⟨_, _, hbody⟩ := bind_eq_ok.mp hok
  cases call with
  | declareFor =>
      repeat obtain ⟨_, _, hbody⟩ := bind_eq_ok.mp hbody
      cases pure_eq_ok.mp hbody
      rfl
  | setAppPointer =>
      repeat obtain ⟨_, _, hbody⟩ := bind_eq_ok.mp hbody
      cases pure_eq_ok.mp hbody
      rfl
  | setSuccessor =>
      repeat obtain ⟨_, _, hbody⟩ := bind_eq_ok.mp hbody
      cases pure_eq_ok.mp hbody
      rfl
  | _ => cases hpublishes

/-- An answer of the paymaster joins the log. -/
theorem reimburse_answers {pm : Paymaster} {params : Params} {balance amount : Nat}
    {carrier : Address} {isDeclaration : Bool} {out : PaymasterOutcome}
    (hok : pm.reimburse params block balance carrier amount isDeclaration = .ok out)
    (log : List (Nat × PaymasterEvent)) (time : Nat) :
    ∃ answer, answers (log ++ out.events.map fun event => (time, event)) = answers log ++ [answer] := by
  obtain ⟨level, _, _, ⟨_, rfl⟩ | ⟨_, _, rfl⟩⟩ := Paymaster.reimburse_eq_ok hok
  · exact ⟨_, List.filter_append _ _⟩
  · exact ⟨_, List.filter_append _ _⟩

/-- The reimbursement either ends at once, with the latch open again, or waits for the
carrier with the latch closed. -/
theorem startReimbursement_view {chain next : Chain} {starved : Bool} {carrier : Address}
    {amount : Nat} {isDeclaration : Bool} {frame : Option (Frame Chain Rest)}
    (hclosed : chain.store.entered = true)
    (hstart : chain.startReimbursement dep block starved carrier amount isDeclaration =
      (next, frame)) :
    chain.publicView.AskedOnce next.publicView ∧ (frame = none → next.store.entered = false) ∧
      ∀ waiting, frame = some waiting → next.store.entered = true ∧
        waiting.onSuccess = .reimbursed ∧
        ∀ result, result = waiting.onFailure ∨ result = waiting.onAbort →
          chain.publicView.AskedOnce result.publicView ∧ result.store.entered = false := by
  have hskipped : chain.publicView.AskedOnce chain.release.publicView := ⟨rfl, rfl, Or.inl rfl⟩
  unfold Chain.startReimbursement at hstart
  simp only at hstart
  split at hstart
  · cases hstart
    refine ⟨hskipped, fun _ => rfl, ?_⟩
    rintro waiting hframe
    cases hframe
  · cases hreimburse : chain.paymaster.reimburse dep.params block chain.paymasterBalance carrier
      amount isDeclaration with
    | error e =>
        rw [hreimburse] at hstart
        cases hstart
        refine ⟨hskipped, fun _ => rfl, ?_⟩
        rintro waiting hframe
        cases hframe
    | ok out =>
        rw [hreimburse] at hstart
        simp only at hstart
        obtain ⟨answer, hanswer⟩ := reimburse_answers hreimburse chain.paymasterLog block.timestamp
        have hparked : ∀ recipient amount, chain.publicView.AskedOnce
            ((({ chain with paymaster := out.storage }.emitPaymaster block
              out.events).parkPaymaster block chain recipient amount).release).publicView := by
          intro recipient amount
          rcases @parkPaymaster_publicView block ({ chain with
            paymaster := out.storage }.emitPaymaster block out.events) chain recipient amount with
            hview | hback
          · have hstate := congrArg PublicView.state hview
            have hintents := congrArg PublicView.intents hview
            have hanswers := congrArg PublicView.answers hview
            exact ⟨hstate, hintents, Or.inr ⟨answer, hanswers.trans hanswer⟩⟩
          · rw [hback]
            exact hskipped
        split at hstart
        · split at hstart
          · cases hstart
            refine ⟨hparked _ _, fun _ => rfl, ?_⟩
            rintro waiting hframe
            cases hframe
          · cases hstart
            refine ⟨⟨rfl, rfl, Or.inr ⟨answer, hanswer⟩⟩, ?_, ?_⟩
            · rintro hframe
              cases hframe
            rintro waiting hframe
            cases hframe
            refine ⟨hclosed, rfl, ?_⟩
            rintro result (rfl | rfl)
            · exact ⟨hparked _ _, rfl⟩
            · exact ⟨hskipped, rfl⟩
        · cases hstart
          refine ⟨⟨rfl, rfl, Or.inr ⟨answer, hanswer⟩⟩, fun _ => rfl, ?_⟩
          rintro waiting hframe
          cases hframe

/-- What the paymaster has answered since: nothing, or the one request of the carrier. -/
def Chain.Answered (dep : Deployment) (block : Block) (chain : Chain) (carrier : Address)
    (amount : Nat) (isDeclaration : Bool) (result : Chain) : Prop :=
  answers result.paymasterLog = answers chain.paymasterLog ∨
    ∃ out, chain.paymaster.reimburse dep.params block chain.paymasterBalance carrier amount
        isDeclaration = .ok out ∧
      answers result.paymasterLog =
        answers chain.paymasterLog ++ out.events.map fun event => (block.timestamp, event)

theorem reimburse_all_answers {pm : Paymaster} {params : Params} {balance amount : Nat}
    {carrier : Address} {isDeclaration : Bool} {out : PaymasterOutcome}
    (hok : pm.reimburse params block balance carrier amount isDeclaration = .ok out)
    (log : List (Nat × PaymasterEvent)) (time : Nat) :
    answers (log ++ out.events.map fun event => (time, event)) =
      answers log ++ out.events.map fun event => (time, event) := by
  obtain ⟨level, _, _, ⟨_, rfl⟩ | ⟨_, _, rfl⟩⟩ := Paymaster.reimburse_eq_ok hok
  · exact List.filter_append _ _
  · exact List.filter_append _ _

/-- However the request ends, the paymaster has answered it or nothing. -/
theorem startReimbursement_answered {chain next result : Chain} {starved : Bool} {carrier : Address}
    {amount : Nat} {isDeclaration : Bool} {frame : Option (Frame Chain Rest)}
    (hstart : chain.startReimbursement dep block starved carrier amount isDeclaration =
      (next, frame)) (hresult : Results next frame result) :
    chain.Answered dep block carrier amount isDeclaration result := by
  have hskipped : chain.Answered dep block carrier amount isDeclaration chain.release := Or.inl rfl
  unfold Chain.startReimbursement at hstart
  simp only at hstart
  split at hstart
  · cases hstart
    obtain rfl := hresult.returned
    exact hskipped
  · cases hreimburse : chain.paymaster.reimburse dep.params block chain.paymasterBalance carrier
      amount isDeclaration with
    | error e =>
        rw [hreimburse] at hstart
        cases hstart
        obtain rfl := hresult.returned
        exact hskipped
    | ok out =>
        rw [hreimburse] at hstart
        simp only at hstart
        have hcharged := reimburse_all_answers hreimburse chain.paymasterLog block.timestamp
        have hparked : ∀ recipient amount', chain.Answered dep block carrier amount isDeclaration
            (({ chain with paymaster := out.storage }.emitPaymaster block
              out.events).parkPaymaster block chain recipient amount').release := by
          intro recipient amount'
          rcases @parkPaymaster_publicView block ({ chain with
            paymaster := out.storage }.emitPaymaster block out.events) chain recipient amount' with
            hview | hback
          · have hanswers := congrArg PublicView.answers hview
            exact Or.inr ⟨out, hreimburse, hanswers.trans hcharged⟩
          · rw [hback]
            exact hskipped
        split at hstart
        · split at hstart
          · cases hstart
            obtain rfl := hresult.returned
            exact hparked _ _
          · cases hstart
            rcases hresult.opened with rfl | rfl | rfl
            · exact Or.inr ⟨out, hreimburse, hcharged⟩
            · exact hparked _ _
            · exact hskipped
        · cases hstart
          obtain rfl := hresult.returned
          exact Or.inr ⟨out, hreimburse, hcharged⟩

/-- The flag under which a publication asks for its reimbursement. -/
def Call.declares : Call → Bool
  | .declareFor _ _ _ _ => true
  | _ => false

theorem Change.asks {s : Storage} {call : Call} {out : Outcome}
    (hchange : Change keccak256 dep block msg s call out) (hpublishes : call.publishes = true) :
    ∃ amount, out.tail = .reimburse msg.sender amount call.declares := by
  cases hchange with
  | declared _ _ _ _ _ htail => exact htail
  | pointed _ haccepted hcall =>
      rcases hcall with ⟨_, _, _, _, rfl⟩ | ⟨_, _, _, _, rfl⟩ <;> exact haccepted.tail
  | noted _ hevent => rcases hevent with ⟨_, rfl, _⟩ | ⟨rfl, _⟩ <;> cases hpublishes
  | proven _ hcall => rcases hcall with ⟨_, rfl⟩ | ⟨_, _, _, rfl⟩ <;> cases hpublishes
  | _ => cases hpublishes

/-- As long as a publication runs and when it is over, the paymaster has answered its one
request at most, whatever else was called from the push to the carrier. -/
theorem publication_answered {chain next : Chain} {call : Call} {frame : Option (Frame Chain Rest)}
    {base : List (Frame Chain Rest)} {m : World} (hpublishes : call.publishes = true)
    (hcall : chain.callInstance dep block keccak256 msg call = some (next, frame))
    (hinside : (system keccak256 dep).Inside base ⟨block, next, frame.toList ++ base⟩ m) :
    ∃ amount, chain.Answered dep block msg.sender amount call.declares m.state := by
  obtain ⟨out, haccepted, _, hstart⟩ := callInstance_accepted hcall
  obtain ⟨_, habsorbed, _⟩ := haccepted.change.published hpublishes
  obtain ⟨amount, htail⟩ := haccepted.change.asks hpublishes
  have hclosed : (chain.applyOutcome block msg.value out).store.entered = true :=
    dispatch_latched hpublishes haccepted.dispatched
  have hcharged : ∀ {result : Chain},
      (chain.applyOutcome block msg.value out).Answered dep block msg.sender amount call.declares
        result → chain.Answered dep block msg.sender amount call.declares result := by
    intro result hanswered
    unfold Chain.applyOutcome Chain.Answered at hanswered
    rw [habsorbed] at hanswered
    simp only [Chain.emitPaymaster, Chain.emit, Option.toList_none, List.map_nil, List.append_nil,
      Option.getD_none, Nat.add_zero] at hanswered
    exact hanswered
  rw [htail] at hstart
  have hresults : ∀ result, Results next frame result →
      (chain.applyOutcome block msg.value out).Answered dep block msg.sender amount call.declares
        result := fun _ => startReimbursement_answered (Option.some.inj hstart)
  refine ⟨amount, hcharged ?_⟩
  cases frame with
  | none =>
      have hm : m = ⟨block, next, base⟩ := by
        rcases hinside.cases_head with rfl | ⟨_, ⟨_, above, top, hopen⟩, _⟩
        · rfl
        · have hlength : base.length = (above ++ top :: base).length := congrArg List.length hopen
          rw [List.length_append, List.length_cons] at hlength
          omega
      subst hm
      exact hresults next (Or.inl rfl)
  | some waiting =>
      obtain ⟨_, _, hwaits⟩ := startReimbursement_view hclosed (Option.some.inj hstart)
      obtain ⟨hlatched, hrest, _⟩ := hwaits waiting rfl
      have hends : (system keccak256 dep).Ends (fun chain => chain.publicView = next.publicView)
          (fun result => (chain.applyOutcome block msg.value out).Answered dep block msg.sender
            amount call.declares result) block waiting := by
        refine ⟨hresults _ (Or.inr ⟨waiting, rfl, Or.inl rfl⟩),
          hresults _ (Or.inr ⟨waiting, rfl, Or.inr rfl⟩), ?_⟩
        intro state later hview hresume
        rw [hrest] at hresume
        cases hresume
        have hanswers := congrArg PublicView.answers hview
        have hnext := hresults next (Or.inl rfl)
        unfold Chain.Answered at hnext ⊢
        rw [show answers next.paymasterLog = answers state.release.paymasterLog from
          hanswers.symm] at hnext
        exact hnext
      rcases hinside.waits (latched_kept hlatched) hends rfl with hwaiting | hended
      · obtain ⟨rfl, hview, _⟩ := hwaiting
        have hanswers := congrArg PublicView.answers hview
        have hnext := hresults next (Or.inl rfl)
        unfold Chain.Answered at hnext ⊢
        rw [show answers next.paymasterLog = answers m.state.paymasterLog from hanswers.symm] at hnext
        exact hnext
      · exact hended.state

/-- What `out` published is in the chain, and the paymaster was asked at most once since. -/
structure Chain.Stands (block : Block) (chain : Chain) (out : Outcome) (result : Chain) : Prop where
  state : result.store.publicationState = out.storage.publicationState
  intents : intentEntries result.log =
    intentEntries chain.log ++ out.events.map fun event => (block.timestamp, event)
  answers : answers result.paymasterLog = answers chain.paymasterLog ∨
    ∃ answer, Contract.answers result.paymasterLog = Contract.answers chain.paymasterLog ++ [answer]

theorem stands_of_askedOnce {chain result : Chain} {value : Nat} {out : Outcome}
    (hevents : ∀ event ∈ out.events, event.isIntent = true) (habsorbed : out.absorbed = none)
    (hasked : (chain.applyOutcome block value out).publicView.AskedOnce result.publicView) :
    Chain.Stands block chain out result := by
  have hkept : intentEntries (out.events.map fun event => (block.timestamp, event)) =
      out.events.map fun event => (block.timestamp, event) := by
    refine List.filter_eq_self.mpr fun entry hmem => ?_
    obtain ⟨event, hevent, rfl⟩ := List.mem_map.mp hmem
    exact hevents event hevent
  have hlog : (chain.applyOutcome block value out).paymasterLog = chain.paymasterLog := by
    unfold Chain.applyOutcome
    rw [habsorbed]
    exact List.append_nil _
  refine ⟨hasked.state, ?_, ?_⟩
  · refine hasked.intents.trans ?_
    change intentEntries (chain.log ++ _) = _
    rw [intentEntries_append, hkept]
  · rw [← hlog]
    exact hasked.answers

/-- A call that publishes takes effect for good.  As long as the carrier's push runs, and
after it ended in any way, the chain has exactly what the call published, with one answer of
the paymaster at most; while it runs no other publication is accepted, and when it is over
the latch is open. -/
theorem publication_stands {chain next : Chain} {call : Call} {frame : Option (Frame Chain Rest)}
    {base : List (Frame Chain Rest)} {m : World} (hpublishes : call.publishes = true)
    (hcall : chain.callInstance dep block keccak256 msg call = some (next, frame))
    (hinside : (system keccak256 dep).Inside base ⟨block, next, frame.toList ++ base⟩ m) :
    ∃ out, dispatch keccak256 dep block msg chain.store call = .ok out ∧
      Chain.Stands block chain out m.state ∧
      (m.stack = base → m.state.store.entered = false) ∧
      (m.stack ≠ base → ∀ msg' call', call'.publishes = true →
        m.state.callInstance dep m.env keccak256 msg' call' = none) := by
  obtain ⟨out, haccepted, _, hstart⟩ := callInstance_accepted hcall
  obtain ⟨hevents, habsorbed, carrier, amount, isDeclaration, htail⟩ :=
    haccepted.change.published hpublishes
  have hclosed : (chain.applyOutcome block msg.value out).store.entered = true :=
    dispatch_latched hpublishes haccepted.dispatched
  rw [htail] at hstart
  obtain ⟨hnext, hdone, hwaits⟩ := startReimbursement_view hclosed (Option.some.inj hstart)
  refine ⟨out, haccepted.dispatched, ?_⟩
  cases frame with
  | none =>
      have hm : m = ⟨block, next, base⟩ := by
        rcases hinside.cases_head with rfl | ⟨_, ⟨_, above, top, hopen⟩, _⟩
        · rfl
        · have hlength : base.length = (above ++ top :: base).length := congrArg List.length hopen
          rw [List.length_append, List.length_cons] at hlength
          omega
      subst hm
      exact ⟨stands_of_askedOnce hevents habsorbed hnext, fun _ => hdone rfl, absurd rfl⟩
  | some waiting =>
      obtain ⟨hlatched, hrest, hfallback⟩ := hwaits waiting rfl
      have hends : (system keccak256 dep).Ends (fun chain => chain.publicView = next.publicView)
          (fun result => (chain.applyOutcome block msg.value out).publicView.AskedOnce
            result.publicView ∧ result.store.entered = false) block waiting := by
        refine ⟨hfallback _ (Or.inl rfl), hfallback _ (Or.inr rfl), ?_⟩
        intro state later hview hresume
        rw [hrest] at hresume
        cases hresume
        have hstate := congrArg PublicView.state hview
        have hintents := congrArg PublicView.intents hview
        have hanswers := congrArg PublicView.answers hview
        refine ⟨⟨hstate.trans hnext.state, hintents.trans hnext.intents, ?_⟩, rfl⟩
        change answers state.paymasterLog = _ ∨ ∃ answer, answers state.paymasterLog = _
        rw [show answers state.paymasterLog = next.publicView.answers from hanswers]
        exact hnext.answers
      rcases hinside.waits (latched_kept hlatched) hends rfl with hwaiting | hended
      · obtain ⟨rfl, hview, above, hstack, _⟩ := hwaiting
        refine ⟨stands_of_askedOnce hevents habsorbed (hview ▸ hnext), ?_, ?_⟩
        · intro hbase
          have hlength := congrArg List.length (hstack.symm.trans hbase)
          rw [List.length_append, List.length_cons] at hlength
          omega
        · intro _ msg' call' hpublishes'
          exact callInstance_latched ((congrArg PublicView.latch hview).trans hlatched) hpublishes'
      · obtain ⟨rfl, ⟨hasked, hopen⟩, hstack⟩ := hended
        exact ⟨stands_of_askedOnce hevents habsorbed hasked, fun _ => hopen, absurd hstack⟩

/-- A deployment whose paymaster can pay for one declaration. -/
def payingChain : Chain :=
  { Chain.deployed fundedDeployment stakeBlock with paymasterBalance := 200000 }

/-- The declaration of one chunk, with the push to its carrier under way. -/
def pushingChain : Chain × Option (Frame Chain Rest) :=
  (payingChain.callInstance fundedDeployment stakeBlock Keccak.keccak256 carrierMsg
    (.declareFor zeroDeclaration [] [⟨zeroHash, [], []⟩] [])).getD (payingChain, none)

set_option maxRecDepth 10000 in
/-- The carrier refuses its money, and the declaration stands. -/
theorem publication_stands_refused : ∃ waiting, pushingChain.2 = some waiting ∧
    ∃ out, dispatch Keccak.keccak256 fundedDeployment stakeBlock carrierMsg payingChain.store
        (.declareFor zeroDeclaration [] [⟨zeroHash, [], []⟩] []) = .ok out ∧
      Chain.Stands stakeBlock payingChain out waiting.onFailure := by
  have hwaits : pushingChain.2.isSome = true := rfl
  have hruns : (payingChain.callInstance fundedDeployment stakeBlock Keccak.keccak256 carrierMsg
      (.declareFor zeroDeclaration [] [⟨zeroHash, [], []⟩] [])).isSome = true := rfl
  obtain ⟨waiting, hwaiting⟩ := Option.isSome_iff_exists.mp hwaits
  obtain ⟨⟨next, frame⟩, hcall⟩ := Option.isSome_iff_exists.mp hruns
  have hpushing : pushingChain = (next, frame) := by
    unfold pushingChain
    rw [hcall]
    rfl
  rw [hpushing] at hwaiting
  obtain rfl : frame = some waiting := hwaiting
  have hinside : (system Keccak.keccak256 fundedDeployment).Inside []
      ⟨stakeBlock, next, (some waiting).toList ++ []⟩
      ⟨stakeBlock, waiting.onFailure, []⟩ := .single ⟨.fails, [], waiting, rfl⟩
  obtain ⟨out, hdispatched, hstands, _⟩ := publication_stands rfl hcall hinside
  exact ⟨waiting, congrArg Prod.snd hpushing, out, hdispatched, hstands⟩

end

end Blobsitter.Contract
