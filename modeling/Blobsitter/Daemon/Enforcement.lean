import Blobsitter.Contract.Exit

/-!
# Retention

How long a leaving provider keeps its store.  From the retention deadline on, the
contract accepts no answer for it and opens no challenge against it, and if every
challenge was answered it pays the stake back.
-/

namespace Blobsitter.Daemon

open Library
open Reference (Chunk Hash Address)
open Contract

/-- The earliest instant the store may be deleted after unbonding: challenges may open
until the delay expires, and the last one gets a full response window. -/
def retentionDeadline (unbondingAt unbondingDelay responseWindow : Nat) : Nat :=
  (unbondingAt + unbondingDelay + responseWindow) % 2 ^ 64

section

variable {keccak256 : ByteString → Hash} {dep : Deployment} {block : Block} {msg : Msg}
variable {s : Storage} {id u : Nat}

/-- The provider began to leave at `u` or is gone since, and none of its challenges was
opened after its delay. -/
structure Departed (dep : Deployment) (id u : Nat) (s : Storage) : Prop where
  wellFormed : s.WellFormed
  left : (s.providers id).status = .unbonding ∧ (s.providers id).unbondingAt = u ∨
    (s.providers id).status = .slashed ∨ (s.providers id).status = .exited
  bound : ∀ challengeId < s.nextChallengeId, (s.challengeRecords challengeId).providerId = id →
    (s.challengeRecords challengeId).openedAt ≤ u + dep.params.unbondingDelay

theorem Departed.not_active (hdeparted : Departed dep id u s) :
    (s.providers id).status ≠ .active := by
  rcases hdeparted.left with ⟨hstatus, _⟩ | hstatus | hstatus
  · rw [hstatus]
    decide
  · rw [hstatus]
    decide
  · rw [hstatus]
    decide

/-- A provider that left does not come back. -/
theorem Departed.left_change (hdeparted : Departed dep id u s) {call : Call} {out : Outcome}
    (hchange : Change keccak256 dep block msg s call out) :
    (out.storage.providers id).status = .unbonding ∧ (out.storage.providers id).unbondingAt = u ∨
      (out.storage.providers id).status = .slashed ∨ (out.storage.providers id).status = .exited := by
  have hleave := hchange.leaveStep id
  rcases (hchange.stakeStep hdeparted.wellFormed id).moves with hsame | hmove
  · rw [hsame]
    rcases hdeparted.left with ⟨hstatus, htime⟩ | hgone
    · refine Or.inl ⟨hstatus, ?_⟩
      cases hleave with
      | stays hstays =>
          rw [hsame] at hstays
          exact absurd hstatus hstays
      | kept _ hkept => rw [hkept, htime]
      | leaves hactive => exact absurd hactive hdeparted.not_active
    · exact Or.inr hgone
  · generalize hbefore : (s.providers id).status = before at hmove
    generalize (out.storage.providers id).status = after at hmove ⊢
    have hleft := hdeparted.left
    rw [hbefore] at hleft
    cases hmove with
    | stake => simp at hleft
    | unbond => exact absurd hbefore hdeparted.not_active
    | slashActive => exact absurd hbefore hdeparted.not_active
    | exit => exact Or.inr (Or.inr rfl)
    | slashUnbonding => exact Or.inr (Or.inl rfl)

theorem Departed.change (hdeparted : Departed dep id u s) (houtside : Outside dep msg.sender)
    {call : Call} {out : Outcome} (hchange : Change keccak256 dep block msg s call out) :
    Departed dep id u out.storage := by
  have hwf := hdeparted.wellFormed
  have hleft := hdeparted.left_change hchange
  refine ⟨hchange.wellFormed houtside hwf, hleft, ?_⟩
  have hold : ∀ challengeId < s.nextChallengeId,
      (out.storage.challengeRecords challengeId).providerId = id →
      (out.storage.challengeRecords challengeId).openedAt ≤ u + dep.params.unbondingDelay := by
    intro challengeId hbelow hid
    obtain ⟨resolved, hrecord⟩ :=
      (hchange.bondStep hwf challengeId).kept_record (hwf.record_ne_empty hbelow)
    rw [hrecord] at hid ⊢
    exact hdeparted.bound challengeId hbelow hid
  rcases hchange.opens_now with hsame | ⟨owner, hnext, howner, hopened, hinside⟩
  · rw [hsame]
    exact hold
  · intro challengeId hbelow hid
    rw [hnext] at hbelow
    rcases Nat.lt_succ_iff_lt_or_eq.mp hbelow with hlt | rfl
    · exact hold challengeId hlt hid
    · obtain rfl : owner = id := howner.symm.trans hid
      rw [hopened]
      rcases hinside with hactive | ⟨hunbonding, htime⟩
      · rw [hactive] at hleft
        simp at hleft
      · rcases hleft with ⟨_, hsince⟩ | hslashed | hexited
        · rw [hsince] at htime
          exact htime.le
        · rw [hunbonding] at hslashed
          cases hslashed
        · rw [hunbonding] at hexited
          cases hexited

theorem departed_invariant (id u : Nat) :
    StoreInvariant keccak256 dep fun _ s _ _ => Departed dep id u s where
  change hdeparted houtside _ hchange := hdeparted.change houtside hchange
  quiet _ _ hdeparted _ :=
    ⟨hdeparted.wellFormed.of_same rfl rfl rfl rfl, hdeparted.left, hdeparted.bound⟩
  advance hdeparted _ := hdeparted

theorem departed_of_unbonding {world : World} (hreach : Reachable keccak256 dep world)
    (hstatus : (world.state.store.providers id).status = .unbonding) :
    Departed dep id (world.state.store.providers id).unbondingAt world.state.store := by
  have hexit := hreach.exitBound
  refine ⟨hexit.wellFormed, Or.inl ⟨hstatus, rfl⟩, ?_⟩
  rintro challengeId hbelow rfl
  exact hexit.bound challengeId hbelow hstatus

/-- Once the last response window is over no answer for the provider is accepted. -/
theorem Departed.no_answer (hdeparted : Departed dep id u s)
    (hlate : u + dep.params.unbondingDelay + dep.params.responseWindow ≤ block.timestamp)
    {challengeId : Nat} {indices : List Nat} {n : Nat} {peaks : List Hash}
    {proofs : List ChunkProof} {out : Outcome}
    (hid : (s.challengeRecords challengeId).providerId = id)
    (hok : respond keccak256 dep block msg s challengeId indices n peaks proofs = .ok out) :
    False := by
  obtain ⟨hopened, htime⟩ := respond_before hok
  have hbound := hdeparted.bound challengeId (hdeparted.wellFormed.openedBelow hopened) hid
  omega

/-- Nor is a challenge against it. -/
theorem Departed.no_challenge (hdeparted : Departed dep id u s)
    (hlate : u + dep.params.unbondingDelay ≤ block.timestamp)
    {indices : List Nat} {out : Outcome}
    (hok : challenge keccak256 dep block msg s id indices = .ok out) : False := by
  rcases challenge_inside hok with hactive | ⟨hunbonding, htime⟩
  · exact hdeparted.not_active hactive
  · rcases hdeparted.left with ⟨_, hsince⟩ | hslashed | hexited
    · rw [hsince] at htime
      omega
    · rw [hunbonding] at hslashed
      cases hslashed
    · rw [hunbonding] at hexited
      cases hexited

/-- A leaving provider has a bounded time to serve: its challenges end by the retention
deadline, each is either answerable or timed out at any time, and from the deadline on
nothing more can happen to it but that it withdraws. -/
theorem bounded_exit {world : World} (hreach : Reachable keccak256 dep world)
    (hstatus : (world.state.store.providers id).status = .unbonding)
    (hfits : (world.state.store.providers id).unbondingAt + dep.params.unbondingDelay +
      dep.params.responseWindow < 2 ^ 64) :
    let deadline := retentionDeadline (world.state.store.providers id).unbondingAt
      dep.params.unbondingDelay dep.params.responseWindow
    (∀ challengeId < world.state.store.nextChallengeId,
      (world.state.store.challengeRecords challengeId).providerId = id →
      (world.state.store.challengeRecords challengeId).resolved = false →
      (world.state.store.challengeRecords challengeId).openedAt + dep.params.responseWindow ≤
          deadline ∧
        ∀ block msg,
          (msg.sender = (world.state.store.providers id).operator → ∀ indices n peaks proofs,
            ((∃ closedAt, respond keccak256 dep block msg world.state.store challengeId indices n
                peaks proofs = .error (.responseWindowClosed closedAt)) ↔
              (world.state.store.challengeRecords challengeId).openedAt +
                dep.params.responseWindow ≤ block.timestamp)) ∧
          ((∃ opensAt, resolveTimeout dep block msg world.state.store challengeId =
              .error (.responseWindowStillOpen opensAt)) ↔
            block.timestamp < (world.state.store.challengeRecords challengeId).openedAt +
              dep.params.responseWindow)) ∧
    (∀ later, later = world ∨
        world.stack = [] ∧ (system keccak256 dep).Steps world later →
      deadline ≤ later.env.timestamp →
      (∀ msg challengeId indices n peaks proofs out,
        (later.state.store.challengeRecords challengeId).providerId = id →
        ¬Accepted keccak256 dep later.env later.state msg
          (.respond challengeId indices n peaks proofs) out) ∧
      ∀ msg indices out,
        ¬Accepted keccak256 dep later.env later.state msg (.challenge id indices) out) ∧
    (deadline ≤ world.env.timestamp →
      (∀ challengeId < world.state.store.nextChallengeId,
        (world.state.store.challengeRecords challengeId).providerId = id →
        (world.state.store.challengeRecords challengeId).resolved = true) →
      ∀ msg, Outside dep msg.sender → msg.value = 0 →
        ∃ result, world.state.callInstance dep world.env keccak256 msg (.withdraw id) =
          some result) := by
  intro deadline
  have hdeadline : deadline = (world.state.store.providers id).unbondingAt +
      dep.params.unbondingDelay + dep.params.responseWindow := Nat.mod_eq_of_lt hfits
  have hdeparted := departed_of_unbonding hreach hstatus
  have hall := hreach.recorded
  refine ⟨?_, ?_, ?_⟩
  · intro challengeId hbelow hid hunresolved
    obtain ⟨_, hrecorded⟩ := hall.recorded challengeId hbelow
    have hopened := (hall.wellFormed.opened challengeId hbelow).1
    refine ⟨?_, ?_⟩
    · have hbound := hdeparted.bound challengeId hbelow hid
      omega
    · intro block msg
      refine ⟨?_, resolveTimeout_open_iff hopened hunresolved hrecorded.deadlineFits⟩
      intro hsender indices n peaks proofs
      exact respond_closed_iff hopened hrecorded.deadlineFits (by rw [hid]; exact hsender)
  · intro later hlater hlate
    have hlaterDeparted : Departed dep id (world.state.store.providers id).unbondingAt
        later.state.store := by
      rcases hlater with rfl | ⟨hidle, hsteps⟩
      · exact hdeparted
      · obtain ⟨env, chain, stack⟩ := world
        cases hidle
        exact (hsteps.holds (departed_invariant id _).preserves
          (Machine.holds_of_idle hdeparted)).state
    refine ⟨?_, ?_⟩
    · intro msg challengeId indices n peaks proofs out hid haccepted
      have hdispatched := haccepted.dispatched
      simp only [dispatch, bind_eq_ok] at hdispatched
      obtain ⟨_, _, hok⟩ := hdispatched
      exact hlaterDeparted.no_answer (by omega) hid hok
    · intro msg indices out haccepted
      have hdispatched := haccepted.dispatched
      simp only [dispatch, bind_eq_ok] at hdispatched
      obtain ⟨_, _, hok⟩ := hdispatched
      exact hlaterDeparted.no_challenge (by omega) hok
  · intro hlate hanswered msg houtside hvalue
    exact withdraw_runs hreach.solvent hreach.running.ether hreach.custody.idsFit houtside hvalue hstatus
      (by omega) (by omega) (hall.wellFormed.openChallenges_eq_zero hanswered)

end

/-! ## Two providers that leave

One leaves with a challenge open; the other, without any, withdraws at the retention
deadline. -/

def leaveAction : Action := .call (sampleMsg sampleOperator 0) (.initiateUnbonding 1)

def leavingWorld : World := ⟨stakeBlock, (challengedWorld.state.after stakeBlock leaveAction).1, []⟩

def retentionBlock : Block := sampleBlock 307 (by decide)

def unchallengedWorld : World :=
  ⟨retentionBlock, (stakedWorld.state.after stakeBlock leaveAction).1, []⟩

set_option maxRecDepth 10000 in
theorem leavingWorld_reachable : Reachable Keccak.keccak256 sampleDeployment leavingWorld := by
  have hcall : (system Keccak.keccak256 sampleDeployment).call stakeBlock leaveAction
      challengedWorld.state = some (leavingWorld.state, none) := rfl
  exact challengedWorld_reachable.steps (.single (.returns hcall))

set_option maxRecDepth 10000 in
theorem unchallengedWorld_reachable :
    Reachable Keccak.keccak256 sampleDeployment unchallengedWorld := by
  have hcall : (system Keccak.keccak256 sampleDeployment).call stakeBlock leaveAction
      stakedWorld.state = some (unchallengedWorld.state, none) := rfl
  have hadvance : stakeBlock.timestamp ≤ retentionBlock.timestamp := by decide
  have hleft := stakedWorld_reachable.steps (.single (.returns hcall))
  exact hleft.steps (.single (.advances hadvance))

set_option maxRecDepth 10000 in
theorem bounded_exit_leaving :
    (leavingWorld.state.store.challengeRecords 0).openedAt +
        sampleDeployment.params.responseWindow ≤ retentionDeadline 7 200 100 ∧
      ∃ result, unchallengedWorld.state.callInstance sampleDeployment unchallengedWorld.env
        Keccak.keccak256 (sampleMsg sampleOperator 0) (.withdraw 1) = some result := by
  have hleaving := @bounded_exit _ _ 1 _ leavingWorld_reachable rfl
    (show 7 + 200 + 100 < 2 ^ 64 by decide)
  have hunchallenged := @bounded_exit _ _ 1 _ unchallengedWorld_reachable rfl
    (show 7 + 200 + 100 < 2 ^ 64 by decide)
  refine ⟨(hleaving.1 0 (show 0 < 1 by decide) rfl rfl).1, ?_⟩
  refine hunchallenged.2.2 (show 307 ≤ 307 from le_rfl) ?_ _ (by decide) rfl
  intro challengeId hbelow
  exact absurd hbelow (Nat.not_lt_zero challengeId)

end Blobsitter.Daemon
