import Blobsitter.Contract.Answers

/-!
# Resolutions last

A challenge that is resolved stays resolved as the chain grows, and an answer in the log is
the answer to a resolved challenge.
-/

namespace Blobsitter.Contract

open Library
open Reference (Hash)

section

variable {keccak256 : ByteString → Hash} {dep : Deployment} {block : Block} {msg : Msg}
variable {id : Nat}

/-- The contract reports the challenge as resolved. -/
def World.Resolved (world : World) (id : Nat) : Prop :=
  (world.state.store.challengeRecords id).resolved = true

/-- An answer to the challenge was accepted. -/
def World.Answered (world : World) (id : Nat) : Prop :=
  ∃ time, (time, Event.challengeAnswered id) ∈ world.state.log

theorem BondStep.resolved {operator : Reference.Address} {c next : Challenge}
    {payments : List Payment} (hstep : BondStep id operator c next payments)
    (hresolved : c.resolved = true) : next.resolved = true := by
  cases hstep with
  | kept hsame => rw [hsame, hresolved]
  | opened hempty =>
      rw [hempty] at hresolved
      cases hresolved
  | answered _ hbefore =>
      rw [hbefore] at hresolved
      cases hresolved
  | timedOut _ hbefore =>
      rw [hbefore] at hresolved
      cases hresolved

/-- The call that emits the answer resolves the challenge. -/
theorem Change.resolved_of_answer {s : Storage} {call : Call} {out : Outcome}
    (hchange : Change keccak256 dep block msg s call out)
    (hevent : Event.challengeAnswered id ∈ out.events) :
    (out.storage.challengeRecords id).resolved = true := by
  cases hchange with
  | declared _ haccepted =>
      obtain ⟨_, _, _, _, _, _, _, _, hevents⟩ := haccepted.subtreeCount
      simp [hevents] at hevent
  | pointed _ haccepted =>
      rcases haccepted.events with ⟨_, _, hevents⟩ | ⟨_, hevents⟩ <;> simp [hevents] at hevent
  | noted _ hnoted =>
      rcases hnoted with ⟨_, _, rfl⟩ | ⟨_, rfl⟩ <;> simp [Outcome.plain] at hevent
  | answered =>
      cases List.mem_singleton.mp hevent
      simp only [Storage.resolve, Storage.setProvider, Storage.setChallenge, Function.update_self]
  | _ => simp [Outcome.plain] at hevent

/-- Every answered challenge is resolved. -/
structure AnswersResolved (s : Storage) (log : List (Nat × Event)) : Prop where
  wellFormed : s.WellFormed
  resolved : ∀ id time, (time, Event.challengeAnswered id) ∈ log →
    (s.challengeRecords id).resolved = true

theorem answersResolved_invariant :
    StoreInvariant keccak256 dep fun _ s log _ => AnswersResolved s log where
  change := by
    intro block s log _ msg call out hanswers houtside _ hchange
    refine ⟨hchange.wellFormed houtside hanswers.wellFormed, ?_⟩
    intro id time hmem
    rcases List.mem_append.mp hmem with hold | hnew
    · exact (hchange.bondStep hanswers.wellFormed id).resolved (hanswers.resolved id time hold)
    · obtain ⟨event, hevent, heq⟩ := List.mem_map.mp hnew
      obtain ⟨_, rfl⟩ := Prod.mk.inj heq
      exact hchange.resolved_of_answer hevent
  quiet := by
    intro _ _ _ extra _ _ _ hanswers htransfers
    refine ⟨hanswers.wellFormed.of_same rfl rfl rfl rfl, ?_⟩
    intro id time hmem
    rcases List.mem_append.mp hmem with hold | hextra
    · exact hanswers.resolved id time hold
    · cases htransfers _ hextra
  advance hanswers _ := hanswers

theorem Reachable.resolved_of_answered {world : World} (hreach : Reachable keccak256 dep world)
    (hanswered : world.Answered id) : world.Resolved id := by
  have hholds : AnswersResolved world.state.store world.state.log := by
    refine (hreach.holds answersResolved_invariant.preserves ?_).state
    intro block
    refine ⟨(deployed_distributed block).wellFormed, ?_⟩
    intro id time hmem
    cases hmem
  obtain ⟨time, hmem⟩ := hanswered
  exact hholds.resolved id time hmem

/-- What is resolved between two calls is resolved ever after. -/
theorem World.Resolved.steps {world later : World} (hresolved : world.Resolved id)
    (hreach : Reachable keccak256 dep world) (hidle : world.stack = [])
    (hsteps : (system keccak256 dep).Steps world later) : later.Resolved id := by
  have hinv : StoreInvariant keccak256 dep fun _ s _ _ =>
      s.WellFormed ∧ (s.challengeRecords id).resolved = true :=
    { change := fun hholds houtside _ hchange =>
        ⟨hchange.wellFormed houtside hholds.1, (hchange.bondStep hholds.1 id).resolved hholds.2⟩
      quiet := fun _ _ hholds _ => ⟨hholds.1.of_same rfl rfl rfl rfl, hholds.2⟩
      advance := fun hholds _ => hholds }
  have hwf := hreach.recorded.wellFormed
  obtain ⟨env, chain, stack⟩ := world
  cases hidle
  exact (hsteps.holds hinv.preserves (Machine.holds_of_idle ⟨hwf, hresolved⟩)).state.2

end

set_option maxRecDepth 10000 in
theorem answeredWorld_answered : answeredWorld.Answered 0 := by
  have hlog : answeredWorld.state.log =
      rechallengedWorld.state.log ++ [(50, .challengeAnswered 0)] := rfl
  refine ⟨50, ?_⟩
  rw [hlog]
  exact List.mem_append_right _ (List.mem_singleton_self _)

set_option maxRecDepth 10000 in
theorem rechallengedWorld_unresolved : ¬rechallengedWorld.Resolved 0 := by
  unfold World.Resolved
  decide

end Blobsitter.Contract
