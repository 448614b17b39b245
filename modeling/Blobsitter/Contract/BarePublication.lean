import Blobsitter.Contract.Isolation
import Blobsitter.Contract.PaymasterRuns

/-!
# Publication needs nothing else

Publication reads and writes its own fields only.  Every run of the contracts, with all its
providers, challenges, donations and pushes, publishes what a run of publication calls alone
publishes on a deployment without a wei; and the next publication is accepted in the one
exactly when it is accepted in the other.
-/

namespace Blobsitter.Contract

open Library
open Reference (Hash Address)

/-- The publication part of `s` over the rest of `base`. -/
def Storage.onto (s base : Storage) : Storage :=
  { base with
    leafCount := s.leafCount
    peaks := s.peaks
    declarationNonce := s.declarationNonce
    appPointerNonce := s.appPointerNonce
    successorNonce := s.successorNonce
    appPointer := s.appPointer
    successor := s.successor
    activityCheckpointTime := s.activityCheckpointTime
    activityCheckpointLeafCount := s.activityCheckpointLeafCount
    entered := s.entered }

def Outcome.onto (out : Outcome) (base : Storage) : Outcome :=
  { out with storage := out.storage.onto base }

theorem Storage.eq_onto {s base : Storage} (hstate : base.publicationState = s.publicationState)
    (hlatch : base.entered = s.entered) : base = s.onto base := by
  have hfields := PublicationState.mk.inj hstate
  obtain ⟨hleaves, hpeaks, hnonce, hpointerNonce, hsuccessorNonce, hpointer, hsuccessor, htime,
    hcount⟩ := hfields
  unfold Storage.onto
  rw [← hleaves, ← hpeaks, ← hnonce, ← hpointerNonce, ← hsuccessorNonce, ← hpointer, ← hsuccessor,
    ← htime, ← hcount, ← hlatch]

section

variable {keccak256 : ByteString → Hash} {dep : Deployment} {block : Block} {msg : Msg}

theorem map_bind {α β γ : Type} {f : β → γ} {x : Except Revert α} {g : α → Except Revert β} :
    (x >>= g).map f = x >>= fun a => (g a).map f := by
  cases x <;> rfl

theorem declareFor_onto (s base : Storage) (d : Declaration) (publisherSig : ByteString)
    (openings : List BlobOpening) (equivalenceProof : ByteString) :
    declareFor keccak256 dep block msg (s.onto base) d publisherSig openings equivalenceProof =
      (declareFor keccak256 dep block msg s d publisherSig openings equivalenceProof).map
        fun out => out.onto base := by
  unfold declareFor
  repeat (rw [map_bind]; refine bind_congr fun _ => ?_)
  rfl

theorem setAppPointer_onto (s base : Storage) (nonce deadline : Nat) (pointer : Hash)
    (sig : ByteString) :
    setAppPointer keccak256 dep block msg (s.onto base) nonce deadline pointer sig =
      (setAppPointer keccak256 dep block msg s nonce deadline pointer sig).map
        fun out => out.onto base := by
  unfold setAppPointer
  repeat (rw [map_bind]; refine bind_congr fun _ => ?_)
  rfl

theorem setSuccessor_onto (s base : Storage) (nonce deadline : Nat) (target : Address)
    (sig : ByteString) :
    setSuccessor keccak256 dep block msg (s.onto base) nonce deadline target sig =
      (setSuccessor keccak256 dep block msg s nonce deadline target sig).map
        fun out => out.onto base := by
  unfold setSuccessor
  repeat (rw [map_bind]; refine bind_congr fun _ => ?_)
  rfl

/-- A publication call does the same to the publication part over any providers. -/
theorem dispatch_onto (s base : Storage) {call : Call} (hpublishes : call.publishes = true) :
    dispatch keccak256 dep block msg (s.onto base) call =
      (dispatch keccak256 dep block msg s call).map fun out => out.onto base := by
  unfold dispatch
  rw [map_bind]
  refine bind_congr fun _ => ?_
  cases call with
  | declareFor => exact declareFor_onto s base _ _ _ _
  | setAppPointer => exact setAppPointer_onto s base _ _ _ _
  | setSuccessor => exact setSuccessor_onto s base _ _ _ _
  | _ => cases hpublishes

/-- Storages that publish the same accept the same publications, with the same effects. -/
theorem dispatch_same {s base : Storage} {call : Call} {out : Outcome}
    (hpublishes : call.publishes = true) (hstate : base.publicationState = s.publicationState)
    (hlatch : base.entered = s.entered) (hok : dispatch keccak256 dep block msg s call = .ok out) :
    ∃ out', dispatch keccak256 dep block msg base call = .ok out' ∧
      out'.storage.publicationState = out.storage.publicationState ∧ out'.events = out.events ∧
      out'.tail = out.tail := by
  refine ⟨out.onto base, ?_, rfl, rfl, rfl⟩
  rw [Storage.eq_onto hstate hlatch, dispatch_onto s _ hpublishes, hok,
    ← Storage.eq_onto hstate hlatch]
  rfl

/-! ## Runs of publication calls alone -/

def Action.publishes : Action → Bool
  | .call _ made => made.publishes
  | _ => false

/-- The instance with its publication calls only. -/
def publicationSystem (keccak256 : ByteString → Hash) (dep : Deployment) :
    CallSystem Block Chain Action Rest :=
  (system keccak256 dep).restrict fun _ _ action => action.publishes

/-- The paymaster call of the transaction runs out of gas, and nothing else changes. -/
def Msg.starve (msg : Msg) : Msg := { msg with starved := true }

theorem checkBlobHashes_starve (hashes : List Hash) (left j : Nat) :
    checkBlobHashes msg.starve hashes left j = checkBlobHashes msg hashes left j := by
  induction left generalizing j with
  | zero => rfl
  | succ left ih =>
      unfold checkBlobHashes
      simp only [ih]
      rfl

theorem checkOpenings_starve (hashes : List Hash) (z : Hash) (openings : List BlobOpening)
    (left j : Nat) :
    checkOpenings msg.starve hashes z openings left j = checkOpenings msg hashes z openings left j := by
  induction left generalizing j with
  | zero => rfl
  | succ left ih =>
      unfold checkOpenings
      simp only [ih]
      rfl

/-- No publication looks at the gas that is left for the paymaster. -/
theorem dispatch_starve (s : Storage) {call : Call} (hpublishes : call.publishes = true) :
    dispatch keccak256 dep block msg.starve s call = dispatch keccak256 dep block msg s call := by
  cases call with
  | declareFor =>
      unfold dispatch declareFor
      simp only [checkBlobHashes_starve, checkOpenings_starve]
      rfl
  | setAppPointer => rfl
  | setSuccessor => rfl
  | _ => cases hpublishes

/-- A chain that never held a wei and waits for its next publication. -/
structure Chain.Bare (chain : Chain) : Prop where
  latch : chain.store.entered = false
  balance : chain.balance = 0
  paymasterBalance : chain.paymasterBalance = 0

/-- A bare chain that publishes exactly what another chain does. -/
structure Chain.Replays (bare chain : Chain) : Prop where
  poor : bare.Bare
  state : bare.store.publicationState = chain.store.publicationState
  log : bare.log = intentEntries chain.log

theorem Call.publishes_value {call : Call} {s : Storage} {out : Outcome}
    (hpublishes : call.publishes = true) (hok : dispatch keccak256 dep block msg s call = .ok out) :
    msg.value = 0 := by
  cases (dispatch_change hok).2 with
  | declared hvalue => exact hvalue
  | pointed hvalue => exact hvalue
  | noted hvalue => exact hvalue
  | proven hvalue => exact hvalue
  | _ => cases hpublishes

/-- What was accepted on a chain is accepted on its bare copy, and the copies stay together. -/
theorem Chain.Replays.publish {bare chain : Chain} {call : Call} {out : Outcome}
    (hreplays : bare.Replays chain) (hpublishes : call.publishes = true)
    (haccepted : Accepted keccak256 dep block chain msg call out) :
    ∃ next, bare.callInstance dep block keccak256 msg.starve call = some (next, none) ∧
      next.Replays (chain.applyOutcome block msg.value out) := by
  obtain ⟨⟨hlatch, hbalance, hpaymaster⟩, hstate, hlog⟩ := hreplays
  have hopen := haccepted.change.latch_open hpublishes
  obtain ⟨out', hdispatch, hstate', hevents', htail'⟩ :=
    dispatch_same hpublishes hstate (hlatch.trans hopen.symm) haccepted.dispatched
  have hvalue := Call.publishes_value hpublishes hdispatch
  have hdispatch' : dispatch keccak256 dep block msg.starve bare.store call = .ok out' := by
    rw [dispatch_starve bare.store hpublishes]
    exact hdispatch
  have hguard : ¬(¬Outside dep msg.starve.sender ∨ etherBound ≤ bare.ether + msg.starve.value) := by
    rw [not_or, not_not, not_le, show msg.starve.value = 0 from hvalue, Chain.ether, hbalance,
      hpaymaster]
    exact ⟨haccepted.outside, by decide⟩
  obtain ⟨hintents, habsorbed, carrier, amount, isDeclaration, htail⟩ :=
    (dispatch_change hdispatch).2.published hpublishes
  have hcall : bare.callInstance dep block keccak256 msg.starve call =
      some ((bare.applyOutcome block msg.starve.value out').release, none) := by
    unfold Chain.callInstance
    rw [if_neg hguard, hdispatch']
    simp only [habsorbed, htail, Option.getD_none, Nat.not_lt_zero, if_false]
    rfl
  refine ⟨_, hcall, ⟨rfl, ?_, ?_⟩, hstate', ?_⟩
  · change bare.balance + msg.value - out'.absorbed.getD 0 = 0
    rw [hbalance, hvalue, habsorbed]
    rfl
  · change bare.paymasterBalance + out'.absorbed.getD 0 = 0
    rw [hpaymaster, habsorbed]
    rfl
  · have hkept : intentEntries (out.events.map fun event => (block.timestamp, event)) =
        out.events.map fun event => (block.timestamp, event) := by
      refine List.filter_eq_self.mpr fun entry hmem => ?_
      obtain ⟨event, hevent, rfl⟩ := List.mem_map.mp hmem
      exact hintents event (hevents' ▸ hevent)
    change bare.log ++ _ = intentEntries (chain.log ++ _)
    rw [intentEntries_append, hlog, hevents', hkept]

/-- Steps that publish nothing leave the bare copy where it is. -/
theorem Chain.Replays.of_view {bare chain next : Chain} (hreplays : bare.Replays chain)
    (hstate : next.store.publicationState = chain.store.publicationState)
    (hlog : intentEntries next.log = intentEntries chain.log) : bare.Replays next :=
  ⟨hreplays.poor, hreplays.state.trans hstate.symm, hreplays.log.trans hlog.symm⟩

theorem Chain.Quiet.replays {bare chain next : Chain} (hquiet : chain.Quiet next)
    (hreplays : bare.Replays chain) : bare.Replays next := by
  obtain ⟨⟨sink, entered, hstore⟩, ⟨extra, hlog, htransfer⟩, _⟩ := hquiet
  refine hreplays.of_view ?_ ?_
  · rw [hstore]
    rfl
  · rw [hlog]
    exact intentEntries_append_none chain.log fun entry hmem =>
      Event.isIntent_of_isTransfer (htransfer entry hmem)

/-- Every step of the contracts is matched by steps of the bare copy. -/
theorem replays_preserved (start : Block) : (system keccak256 dep).Preserves fun block chain =>
    ∃ bare, (publicationSystem keccak256 dep).Steps ⟨start, Chain.deployed dep start, []⟩
      ⟨block, bare, []⟩ ∧ bare.Replays chain := by
  have hunguarded : ∀ (block : Block) (chain : Chain) (action : Action),
      (fun _ _ _ => true : Block → Chain → Action → Bool) block chain action = true :=
    fun _ _ _ => rfl
  refine CallSystem.Preserves.of_restrict hunguarded (guarded_preserves ?_ ?_ ?_)
  · rintro block chain next hquiet ⟨bare, hsteps, hreplays⟩
    exact ⟨bare, hsteps, hquiet.replays hreplays⟩
  · rintro block chain msg call out _ haccepted ⟨bare, hsteps, hreplays⟩
    cases hpublishes : call.publishes with
    | true =>
        obtain ⟨next, hcall, hnext⟩ := hreplays.publish hpublishes haccepted
        have hstep : (publicationSystem keccak256 dep).Step ⟨block, bare, []⟩ ⟨block, next, []⟩ :=
          .returns (CallSystem.restrict_call.mpr
            ⟨show Action.publishes (.call msg.starve call) = true from hpublishes, hcall⟩)
        exact ⟨next, hsteps.tail hstep, hnext⟩
    | false =>
        have hsame := haccepted.change.unpublished hpublishes
        have hview := @applyOutcome_publicView block chain msg.value out hsame
        have hstate := congrArg PublicView.state hview
        have hintents := congrArg PublicView.intents hview
        exact ⟨bare, hsteps, hreplays.of_view hstate hintents⟩
  · rintro block next chain ⟨bare, hsteps, hreplays⟩ hle
    exact ⟨bare, hsteps.tail (.advances hle), hreplays⟩

/-- What a publication call leaves is what its entry point computed, whatever the paymaster says. -/
theorem callInstance_publishes {chain next : Chain} {call : Call} {frame : Option (Frame Chain Rest)}
    (hpublishes : call.publishes = true)
    (hcall : chain.callInstance dep block keccak256 msg call = some (next, frame)) :
    ∃ out, Accepted keccak256 dep block chain msg call out ∧
      next.store.publicationState = out.storage.publicationState := by
  obtain ⟨out, haccepted, _, hstart⟩ := callInstance_accepted hcall
  obtain ⟨_, _, carrier, amount, isDeclaration, htail⟩ := haccepted.change.published hpublishes
  rw [htail] at hstart
  have hclosed : (chain.applyOutcome block msg.value out).store.entered = true :=
    dispatch_latched hpublishes haccepted.dispatched
  obtain ⟨hasked, _⟩ := startReimbursement_view hclosed (Option.some.inj hstart)
  exact ⟨out, haccepted, hasked.state⟩

/-- A publication that is accepted on one chain is accepted on any other that publishes the
same, holds less than all ETH and is not publishing already. -/
theorem callInstance_same {chain other next : Chain} {call : Call} {frame : Option (Frame Chain Rest)}
    (hpublishes : call.publishes = true)
    (hstate : other.store.publicationState = chain.store.publicationState)
    (hopen : other.store.entered = false) (hether : other.ether < etherBound)
    (hcall : chain.callInstance dep block keccak256 msg call = some (next, frame)) :
    ∃ next' frame', other.callInstance dep block keccak256 msg call = some (next', frame') ∧
      next'.store.publicationState = next.store.publicationState := by
  obtain ⟨out, haccepted, hnext⟩ := callInstance_publishes hpublishes hcall
  have hlatch := haccepted.change.latch_open hpublishes
  obtain ⟨out', hdispatch, hstate', _, _⟩ :=
    dispatch_same hpublishes hstate (hopen.trans hlatch.symm) haccepted.dispatched
  have hvalue := Call.publishes_value hpublishes hdispatch
  have haccepted' : Accepted keccak256 dep block other msg call out' := by
    refine ⟨haccepted.outside, ?_, hdispatch⟩
    rw [hvalue]
    exact hether
  obtain ⟨_, habsorbed, carrier, amount, isDeclaration, htail⟩ :=
    haccepted'.change.published hpublishes
  have hfunded : out'.absorbed.getD 0 + out'.tail.amount ≤ other.balance + msg.value := by
    rw [habsorbed, htail]
    exact Nat.zero_le _
  obtain ⟨⟨next', frame'⟩, hcall'⟩ := haccepted'.runs hfunded
  obtain ⟨out'', haccepted'', hnext'⟩ := callInstance_publishes hpublishes hcall'
  have hsame := Except.ok.inj (haccepted''.dispatched.symm.trans hdispatch)
  exact ⟨next', frame', hcall', by rw [hnext', hnext, hsame, hstate']⟩

/-- Whatever else happened in a run, what it published is what a run of publication calls
alone publishes from the same deployment without any ETH.  Unless a publication is under way,
the next one is accepted here exactly when it is accepted there, and leaves the same. -/
theorem publication_replays {world : World} (hreach : Reachable keccak256 dep world) :
    ∃ start bare, (publicationSystem keccak256 dep).Steps ⟨start, Chain.deployed dep start, []⟩
        ⟨world.env, bare, []⟩ ∧
      bare.Replays world.state ∧
      (world.state.store.entered = false → ∀ msg call, call.publishes = true →
        (∀ next frame, world.state.callInstance dep world.env keccak256 msg call = some (next, frame) →
          ∃ next' frame', bare.callInstance dep world.env keccak256 msg call = some (next', frame') ∧
            next'.store.publicationState = next.store.publicationState) ∧
        (∀ next frame, bare.callInstance dep world.env keccak256 msg call = some (next, frame) →
          ∃ next' frame', world.state.callInstance dep world.env keccak256 msg call =
              some (next', frame') ∧
            next'.store.publicationState = next.store.publicationState)) := by
  have hether := hreach.running.ether
  obtain ⟨start, hsteps⟩ := hreach
  have hstart : (⟨start, Chain.deployed dep start, []⟩ : World).Holds fun block chain =>
      ∃ bare, (publicationSystem keccak256 dep).Steps ⟨start, Chain.deployed dep start, []⟩
        ⟨block, bare, []⟩ ∧ bare.Replays chain :=
    Machine.holds_of_idle ⟨Chain.deployed dep start, .refl, ⟨rfl, rfl, rfl⟩, rfl, rfl⟩
  obtain ⟨bare, hbare, hreplays⟩ := (hsteps.holds (replays_preserved start) hstart).state
  refine ⟨start, bare, hbare, hreplays, fun hopen msg call hpublishes => ⟨?_, ?_⟩⟩
  · intro next frame hcall
    refine callInstance_same hpublishes hreplays.state hreplays.poor.latch ?_ hcall
    rw [Chain.ether, hreplays.poor.balance, hreplays.poor.paymasterBalance]
    decide
  · intro next frame hcall
    exact callInstance_same hpublishes hreplays.state.symm hopen hether hcall

/-- The declaration of the sample run needs no provider. -/
theorem publication_replays_declared : ∃ start bare,
    (publicationSystem Keccak.keccak256 sampleDeployment).Steps
        ⟨start, Chain.deployed sampleDeployment start, []⟩ ⟨stakeBlock, bare, []⟩ ∧
      bare.Replays declaredWorld.state := by
  obtain ⟨start, bare, hsteps, hreplays, _⟩ := publication_replays declaredWorld_reachable
  exact ⟨start, bare, hsteps, hreplays⟩

end

end Blobsitter.Contract
