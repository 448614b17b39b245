import Blobsitter.Contract.Solvency
import Blobsitter.Contract.PaymasterRuns

/-!
# Lapse safety

The proofs of a provider are read off the log.  Each lies inside the period it proves,
and `lapse` succeeds exactly when two whole periods and the grace window have passed
after the last one.
-/

namespace Blobsitter.Contract

open Library
open Reference (Chunk Hash Address)

/-- The period an event proves for the provider. -/
def Event.provenPeriod (id : Nat) : Event → Option Nat
  | .custodyProven providerId period _ => if providerId = id then some period else none
  | _ => none

/-- Times and periods of the accepted proofs of a provider, oldest first. -/
def proofs (id : Nat) (log : List (Nat × Event)) : List (Nat × Nat) :=
  log.filterMap fun entry => (entry.2.provenPeriod id).map fun period => (entry.1, period)

/-- The period of the last proof, `-1` if there is none. -/
def lastPeriod (proofs : List (Nat × Nat)) : Int :=
  match proofs.getLast? with
  | some (_, period) => period
  | none => -1

theorem lastPeriod_concat (proofs : List (Nat × Nat)) (time period : Nat) :
    lastPeriod (proofs ++ [(time, period)]) = period := by
  rw [lastPeriod, List.getLast?_concat]

/-- When periods never decrease, the last proof has the highest one. -/
theorem le_lastPeriod {proofs : List (Nat × Nat)}
    (hordered : proofs.Pairwise fun earlier later => earlier.2 ≤ later.2) {proof : Nat × Nat}
    (hmem : proof ∈ proofs) : (proof.2 : Int) ≤ lastPeriod proofs := by
  rcases List.eq_nil_or_concat proofs with rfl | ⟨init, last, rfl⟩
  · cases hmem
  · rw [List.concat_eq_append] at hmem hordered ⊢
    rw [lastPeriod_concat]
    rcases List.mem_append.mp hmem with hinit | hlast
    · exact Int.ofNat_le.mpr
        ((List.pairwise_append.mp hordered).2.2 proof hinit last (List.mem_singleton.mpr rfl))
    · rw [List.mem_singleton.mp hlast]

/-- More proofs of periods that never decrease do not lower the last one. -/
theorem lastPeriod_le_of_extends {earlier later : List (Nat × Nat)} (hextends : earlier <+: later)
    (hordered : later.Pairwise fun first second => first.2 ≤ second.2) :
    lastPeriod earlier ≤ lastPeriod later := by
  rcases List.eq_nil_or_concat earlier with rfl | ⟨init, last, rfl⟩
  · rcases List.eq_nil_or_concat later with rfl | ⟨before, newest, rfl⟩
    · exact le_rfl
    · rw [List.concat_eq_append, lastPeriod_concat]
      exact (show (-1 : Int) ≤ 0 by decide).trans (Int.natCast_nonneg _)
  · rw [List.concat_eq_append] at hextends ⊢
    rw [lastPeriod_concat]
    exact le_lastPeriod hordered (hextends.subset (List.mem_append_right _ (List.mem_singleton.mpr rfl)))

theorem proofs_append (id : Nat) (log extra : List (Nat × Event)) :
    proofs id (log ++ extra) = proofs id log ++ proofs id extra :=
  List.filterMap_append

theorem proofs_append_events (id : Nat) (log : List (Nat × Event)) (time : Nat)
    (events : List Event) :
    proofs id (log ++ events.map fun event => (time, event)) =
      proofs id log ++ (events.filterMap (Event.provenPeriod id)).map fun period => (time, period) :=
  recorded_append_events (Event.provenPeriod id) log time events

theorem Event.provenPeriod_of_isTransfer (id : Nat) {event : Event}
    (hevent : event.isTransfer = true) : event.provenPeriod id = none := by
  cases event <;> first | rfl | cases hevent

theorem proofs_append_transfers (id : Nat) (log : List (Nat × Event))
    {extra : List (Nat × Event)} (htransfer : ∀ entry ∈ extra, entry.2.isTransfer = true) :
    proofs id (log ++ extra) = proofs id log :=
  recorded_append_transfers (Event.provenPeriod id)
    (fun _ => Event.provenPeriod_of_isTransfer id) log htransfer

section

variable {keccak256 : ByteString → Hash} {dep : Deployment} {block : Block} {msg : Msg}
variable {s : Storage}

theorem StatusMove.ne_none {before after : ProviderStatus} (hmove : StatusMove before after) :
    after ≠ .none := by
  cases hmove <;> decide

/-- Clock fields of one provider before and after an accepted call, with the periods
the call proves. -/
inductive CustodyStep (dep : Deployment) (block : Block) (p next : Provider) : List Nat → Prop where
  | kept (hanchor : next.anchor = p.anchor) (hproven : next.lastProvenPlusOne = p.lastProvenPlusOne) :
      CustodyStep dep block p next []
  | staked (hbefore : p = .empty) (hanchor : next.anchor = block.timestamp)
      (hproven : next.lastProvenPlusOne = 0) : CustodyStep dep block p next []
  | proven {period : Nat} (hactive : p.status = .active) (hanchor : next.anchor = p.anchor)
      (hpositive : 0 < dep.params.custodyPeriod)
      (hperiod : period = (block.timestamp - p.anchor) / dep.params.custodyPeriod)
      (hproven : next.lastProvenPlusOne = period + 1) : CustodyStep dep block p next [period]

theorem CustodyStep.same {p : Provider} : CustodyStep dep block p p [] := .kept rfl rfl

theorem CustodyStep.update {providers : Nat → Provider} {id : Nat} {next : Provider}
    {events : List Event}
    (hstep : CustodyStep dep block (providers id) next (events.filterMap (Event.provenPeriod id)))
    (hothers : ∀ other, other ≠ id → events.filterMap (Event.provenPeriod other) = [])
    (other : Nat) :
    CustodyStep dep block (providers other) (Function.update providers id next other)
      (events.filterMap (Event.provenPeriod other)) := by
  by_cases heq : other = id
  · subst heq
    rw [Function.update_self]
    exact hstep
  · rw [Function.update_of_ne heq, hothers other heq]
    exact .same

theorem custodyPeriodIndex_eq_ok {id period : Nat}
    (hok : custodyPeriodIndex dep block s id = .ok period) :
    (s.providers id).anchor ≤ block.timestamp ∧ 0 < dep.params.custodyPeriod ∧
      period = (block.timestamp - (s.providers id).anchor) / dep.params.custodyPeriod := by
  simp only [custodyPeriodIndex, bind_eq_ok, orPanic_eq_ok, checkedSub_eq_ok, checkedDiv_eq_ok,
    provider_eq_ok, pure_eq_ok] at hok
  obtain ⟨_, ⟨_, rfl⟩, _, ⟨hanchor, rfl⟩, _, ⟨hpositive, rfl⟩, rfl⟩ := hok
  refine ⟨hanchor, Nat.pos_of_ne_zero hpositive, Nat.mod_eq_of_lt ?_⟩
  calc (block.timestamp - (s.providers id).anchor) / dep.params.custodyPeriod
      ≤ block.timestamp - (s.providers id).anchor := Nat.div_le_self _ _
    _ ≤ block.timestamp := Nat.sub_le _ _
    _ < 2 ^ 64 := block.timestamp_lt

theorem Change.custodyStep {call : Call} {out : Outcome}
    (hchange : Change keccak256 dep block msg s call out) (hwf : s.WellFormed) (id : Nat) :
    CustodyStep dep block (s.providers id) (out.storage.providers id)
      (out.events.filterMap (Event.provenPeriod id)) := by
  cases hchange with
  | declared _ haccepted hsame =>
      obtain ⟨_, _, _, _, _, _, _, _, hevents⟩ := haccepted.subtreeCount
      rw [hsame.providers, hevents]
      exact .same
  | pointed _ haccepted =>
      rw [haccepted.same.providers]
      rcases haccepted.events with ⟨_, _, hevents⟩ | ⟨_, hevents⟩
      · rw [hevents]
        exact .same
      · rw [hevents]
        exact .same
  | noted _ hevent =>
      rcases hevent with ⟨url, _, rfl⟩ | ⟨_, rfl⟩
      · exact .same
      · exact .same
  | claimed => exact .same
  | staked =>
      refine CustodyStep.update ?_ (fun _ _ => rfl) id
      have hempty := hwf.unassigned _ le_rfl
      refine .staked hempty (Nat.mod_eq_of_lt block.timestamp_lt) ?_
      rw [hempty]
      rfl
  | unbonded => 
      refine CustodyStep.update ?_ (fun _ _ => rfl) id
      exact .kept rfl rfl
  | withdrawn =>
      refine CustodyStep.update ?_ (fun _ _ => rfl) id
      exact .kept rfl rfl
  | committed =>
      refine CustodyStep.update ?_ (fun _ _ => rfl) id
      exact .kept rfl rfl
  | @proven _ owner period degraded _ _ _ hstatus _ hperiod =>
      obtain ⟨_, hpositive, heq⟩ := custodyPeriodIndex_eq_ok hperiod
      have hevents : [Event.custodyProven owner period degraded].filterMap
          (Event.provenPeriod owner) = [period] := by
        simp [Event.provenPeriod]
      refine CustodyStep.update ?_ ?_ id
      · change CustodyStep dep block _ _ ([Event.custodyProven owner period degraded].filterMap _)
        rw [hevents]
        refine .proven hstatus rfl hpositive heq ?_
        rfl
      · intro other hne
        simp [Outcome.plain, Event.provenPeriod, hne.symm]
  | lapsed =>
      refine CustodyStep.update ?_ (fun _ _ => rfl) id
      exact .kept rfl rfl
  | challenged =>
      refine CustodyStep.update ?_ (fun _ _ => rfl) id
      exact .kept rfl rfl
  | answered =>
      refine CustodyStep.update ?_ (fun _ _ => rfl) id
      exact .kept rfl rfl
  | timedOut =>
      refine CustodyStep.update ?_ (fun _ _ => rfl) id
      exact .kept rfl rfl
  | refunded =>
      refine CustodyStep.update ?_ (fun _ _ => rfl) id
      exact .kept rfl rfl

/-- The clock fields of a provider agree with its proofs, and each proof lies in its own
period. -/
structure Clock (dep : Deployment) (now : Nat) (p : Provider) (proofs : List (Nat × Nat)) :
    Prop where
  anchored : p.anchor ≤ now
  recorded : (p.lastProvenPlusOne : Int) = lastPeriod proofs + 1
  unproven : p.status = .none → proofs = []
  within : ∀ proof ∈ proofs, p.anchor + proof.2 * dep.params.custodyPeriod ≤ proof.1 ∧
    proof.1 < p.anchor + (proof.2 + 1) * dep.params.custodyPeriod ∧ proof.1 ≤ now
  ordered : proofs.Pairwise fun earlier later => earlier.2 ≤ later.2

namespace Clock

variable {p next : Provider} {proofs : List (Nat × Nat)}

theorem advance {now later : Nat} (hclock : Clock dep now p proofs) (hle : now ≤ later) :
    Clock dep later p proofs := by
  refine ⟨hclock.anchored.trans hle, hclock.recorded, hclock.unproven, ?_, hclock.ordered⟩
  intro proof hmem
  obtain ⟨hstart, hend, htime⟩ := hclock.within proof hmem
  exact ⟨hstart, hend, htime.trans hle⟩

/-- The current period is not before any proven one. -/
theorem period_le (hclock : Clock dep block.timestamp p proofs)
    (hpositive : 0 < dep.params.custodyPeriod) {proof : Nat × Nat} (hmem : proof ∈ proofs) :
    proof.2 ≤ (block.timestamp - p.anchor) / dep.params.custodyPeriod := by
  obtain ⟨hstart, _, htime⟩ := hclock.within proof hmem
  rw [Nat.le_div_iff_mul_le hpositive]
  omega

theorem step {periods : List Nat} (hclock : Clock dep block.timestamp p proofs)
    (hstep : CustodyStep dep block p next periods)
    (hassigned : next.status = .none → p.status = .none) :
    Clock dep block.timestamp next (proofs ++ periods.map fun period => (block.timestamp, period)) := by
  cases hstep with
  | kept hanchor hproven =>
      rw [List.map_nil, List.append_nil]
      refine ⟨by rw [hanchor]; exact hclock.anchored, by rw [hproven]; exact hclock.recorded,
        fun hnone => hclock.unproven (hassigned hnone), ?_, hclock.ordered⟩
      rw [hanchor]
      exact hclock.within
  | staked hbefore hanchor hproven =>
      have hnone : proofs = [] := hclock.unproven (by rw [hbefore]; rfl)
      subst hnone
      refine ⟨hanchor.le, by rw [hproven]; rfl, fun _ => rfl, ?_, List.Pairwise.nil⟩
      intro proof hmem
      cases hmem
  | @proven period hactive hanchor hpositive hperiod hproven =>
      have hle := hclock.anchored
      have hdivision := Nat.div_add_mod (block.timestamp - p.anchor) dep.params.custodyPeriod
      have hremainder := Nat.mod_lt (block.timestamp - p.anchor) hpositive
      rw [← hperiod, Nat.mul_comm] at hdivision
      rw [List.map_singleton]
      refine ⟨by rw [hanchor]; exact hle, ?_, ?_, ?_, ?_⟩
      · rw [hproven, lastPeriod_concat]
        rfl
      · intro hnone
        rw [hassigned hnone] at hactive
        cases hactive
      · rw [hanchor]
        intro proof hmem
        rcases List.mem_append.mp hmem with hold | hnew
        · exact hclock.within proof hold
        · rw [List.mem_singleton.mp hnew, Nat.add_mul, Nat.one_mul]
          refine ⟨?_, ?_, le_rfl⟩
          · simp only
            omega
          · simp only
            omega
      · rw [List.pairwise_append]
        refine ⟨hclock.ordered, List.pairwise_singleton _ _, ?_⟩
        intro proof hmem later hlater
        rw [List.mem_singleton.mp hlater, hperiod]
        exact hclock.period_le hpositive hmem

end Clock

structure Custody (dep : Deployment) (block : Block) (s : Storage) (log : List (Nat × Event)) :
    Prop where
  wellFormed : s.WellFormed
  idsFit : s.nextProviderId < 2 ^ 64
  clock : ∀ id, Clock dep block.timestamp (s.providers id) (proofs id log)

theorem Change.nextProviderId_lt {call : Call} {out : Outcome}
    (hchange : Change keccak256 dep block msg s call out) (hfits : s.nextProviderId < 2 ^ 64) :
    out.storage.nextProviderId < 2 ^ 64 := by
  cases hchange with
  | declared _ _ hsame =>
      rw [hsame.nextProviderId]
      exact hfits
  | pointed _ haccepted =>
      rw [haccepted.same.nextProviderId]
      exact hfits
  | staked _ _ _ hnext => exact hnext
  | _ => exact hfits

theorem Custody.change {log : List (Nat × Event)} {call : Call} {out : Outcome}
    (hcustody : Custody dep block s log) (houtside : Outside dep msg.sender)
    (hchange : Change keccak256 dep block msg s call out) :
    Custody dep block out.storage
      (log ++ out.events.map fun event => (block.timestamp, event)) := by
  have hwf := hcustody.wellFormed
  refine ⟨hchange.wellFormed houtside hwf, hchange.nextProviderId_lt hcustody.idsFit, ?_⟩
  intro id
  rw [proofs_append_events]
  refine (hcustody.clock id).step (hchange.custodyStep hwf id) ?_
  intro hnone
  rcases (hchange.stakeStep hwf id).moves with hsame | hmove
  · rw [← hsame, hnone]
  · exact absurd hnone hmove.ne_none

theorem Custody.quiet {log extra : List (Nat × Event)} (hcustody : Custody dep block s log)
    (sink : PayoutSink) (entered : Bool) (htransfer : ∀ entry ∈ extra, entry.2.isTransfer = true) :
    Custody dep block { s with sink := sink, entered := entered } (log ++ extra) := by
  refine ⟨hcustody.wellFormed.of_same rfl rfl rfl rfl, hcustody.idsFit, ?_⟩
  intro id
  rw [proofs_append_transfers id _ htransfer]
  exact hcustody.clock id

theorem Custody.advance {next : Block} {log : List (Nat × Event)}
    (hcustody : Custody dep block s log) (hle : block.timestamp ≤ next.timestamp) :
    Custody dep next s log :=
  ⟨hcustody.wellFormed, hcustody.idsFit, fun id => (hcustody.clock id).advance hle⟩

theorem custody_invariant :
    StoreInvariant keccak256 dep fun block s log _ => Custody dep block s log where
  change hcustody houtside _ hchange := hcustody.change houtside hchange
  quiet sink entered hcustody htransfer := hcustody.quiet sink entered htransfer
  advance hcustody hle := hcustody.advance hle

theorem deployed_custody (block : Block) : Custody dep block (Chain.deployed dep block).store [] := by
  refine ⟨(deployed_distributed block).wellFormed, show 1 < 2 ^ 64 by decide, ?_⟩
  intro id
  refine ⟨Nat.zero_le _, rfl, fun _ => rfl, ?_, List.Pairwise.nil⟩
  intro proof hmem
  cases hmem

theorem Reachable.custody {world : World} (hreach : Reachable keccak256 dep world) :
    Custody dep world.env world.state.store world.state.log :=
  (hreach.holds custody_invariant.preserves deployed_custody).state

/-! ## Lapse -/

/-- The call submits a custody proof of the provider, by either path. -/
def Call.submits (id : Nat) : Call → Bool
  | .submitProof providerId _ => providerId = id
  | .submitProofEscape providerId _ _ _ => providerId = id
  | _ => false

/-- Accepted submissions, and nothing else, prove a period: the one they are made in. -/
theorem Change.provenPeriods {call : Call} {out : Outcome}
    (hchange : Change keccak256 dep block msg s call out) (id : Nat) :
    out.events.filterMap (Event.provenPeriod id) =
      if call.submits id then
        [(block.timestamp - (s.providers id).anchor) / dep.params.custodyPeriod]
      else [] := by
  cases hchange with
  | declared _ haccepted =>
      obtain ⟨_, _, _, _, _, _, _, _, hevents⟩ := haccepted.subtreeCount
      rw [hevents]
      rfl
  | pointed _ haccepted hcall =>
      have hnone : call.submits id = false := by
        rcases hcall with ⟨_, _, _, _, rfl⟩ | ⟨_, _, _, _, rfl⟩
        · rfl
        · rfl
      rw [hnone]
      rcases haccepted.events with ⟨_, _, hevents⟩ | ⟨_, hevents⟩
      · rw [hevents]
        rfl
      · rw [hevents]
        rfl
  | noted _ hevent =>
      rcases hevent with ⟨url, rfl, rfl⟩ | ⟨rfl, rfl⟩
      · rfl
      · rfl
  | @proven _ owner period degraded _ hcall _ _ _ hperiod =>
      have hsubmits : call.submits id = decide (owner = id) := by
        rcases hcall with ⟨_, rfl⟩ | ⟨_, _, _, rfl⟩
        · rfl
        · rfl
      rw [hsubmits]
      by_cases howner : owner = id
      · subst howner
        obtain ⟨_, _, rfl⟩ := custodyPeriodIndex_eq_ok hperiod
        simp [Outcome.plain, Event.provenPeriod]
      · simp [Outcome.plain, Event.provenPeriod, howner]
  | claimed => rfl
  | staked => rfl
  | unbonded => rfl
  | withdrawn => rfl
  | committed => rfl
  | lapsed => rfl
  | challenged => rfl
  | answered => rfl
  | timedOut => rfl
  | refunded => rfl

theorem lapse_ok {id : Nat} {bounty remainder : Nat}
    (hactive : (s.providers id).status = .active)
    (htime : (lapseTimes dep (s.providers id)).2 ≤ block.timestamp)
    (hsplit : slashSplit dep = .ok (bounty, remainder)) :
    lapse dep block msg s id =
      .ok ⟨s.setProvider id { s.providers id with status := .slashed },
        [.slashed id .lapse msg.sender], some remainder,
        [.stakeSlashed id msg.sender bounty remainder], .payout msg.sender bounty⟩ := by
  have hassigned : (s.providers id).status ≠ .none := by
    rw [hactive]
    decide
  have heligible : (lapseTimes dep (s.providers id)).1 ≤ block.timestamp :=
    (Nat.le_add_right _ _).trans htime
  unfold lapse
  rw [provider_eq_ok.mpr ⟨hassigned, rfl⟩]
  simp only [bind, Except.bind, hactive, ne_eq, not_true_eq_false, revertIf_ok not_false,
    revertIf_ok (not_lt.mpr heligible), revertIf_ok (not_lt.mpr htime), hsplit, Checked.orPanic]
  rfl

/-- With a live provider the stake is on the balance, so the split does not overflow. -/
theorem Solvent.slashSplit {chain : Chain} {id : Nat} (hsolvent : Solvent dep chain)
    (hbounty : dep.params.bountyBps ≤ 10000)
    (hactive : (chain.store.providers id).status = .active) :
    ∃ bounty remainder, slashSplit dep = .ok (bounty, remainder) := by
  have hassigned : (chain.store.providers id).status ≠ .none := by
    rw [hactive]
    decide
  have hlive : id ∈ chain.store.live := Finset.mem_filter.mpr
    ⟨Finset.mem_range.mpr (hsolvent.wellFormed.assigned hassigned), Or.inl hactive⟩
  have hstake : dep.params.stakeWei ≤ chain.balance := by
    have hcovered := hsolvent.covered
    have hone := Nat.mul_le_mul_left dep.params.stakeWei (Finset.card_pos.mpr ⟨id, hlive⟩)
    unfold Storage.owed at hcovered
    omega
  have hproduct : dep.params.stakeWei * dep.params.bountyBps ≤ dep.params.stakeWei * 10000 :=
    Nat.mul_le_mul_left _ hbounty
  have hbound : chain.balance < 2 ^ 128 := hsolvent.bounded
  have hle : dep.params.stakeWei * dep.params.bountyBps / 10000 ≤ dep.params.stakeWei :=
    Nat.div_le_of_le_mul (by omega)
  exact ⟨_, _, slashSplit_ok (by omega) hle⟩

theorem lapse_passed {chain : Chain} {id : Nat} {result : Chain × Option (Frame Chain Rest)}
    (hcall : chain.callInstance dep block keccak256 msg (.lapse id) = some result) :
    (chain.store.providers id).status = .active ∧
      (lapseTimes dep (chain.store.providers id)).2 ≤ block.timestamp := by
  obtain ⟨next, frame⟩ := result
  obtain ⟨out, haccepted, _⟩ := callInstance_accepted hcall
  have hdispatched := haccepted.dispatched
  simp only [dispatch, lapse, bind_eq_ok, revertIf_eq_ok, provider_eq_ok, not_not,
    not_lt] at hdispatched
  obtain ⟨_, _, _, ⟨_, rfl⟩, _, hactive, _, _, _, htime, _⟩ := hdispatched
  exact ⟨hactive, htime⟩

/-- For an active provider past its window nothing stops `lapse`. -/
theorem lapse_runs {chain : Chain} {id : Nat} (hsolvent : Solvent dep chain)
    (hether : chain.ether < etherBound) (hid : chain.store.nextProviderId < 2 ^ 64)
    (hbounty : dep.params.bountyBps ≤ 10000) (houtside : Outside dep msg.sender) (hvalue : msg.value = 0)
    (hactive : (chain.store.providers id).status = .active)
    (htime : (lapseTimes dep (chain.store.providers id)).2 ≤ block.timestamp) :
    ∃ result, chain.callInstance dep block keccak256 msg (.lapse id) = some result := by
  obtain ⟨bounty, remainder, hsplit⟩ := hsolvent.slashSplit hbounty hactive
  have hassigned : (chain.store.providers id).status ≠ .none := by
    rw [hactive]
    decide
  have hrange : (Call.lapse id).inRange = true :=
    decide_eq_true ((hsolvent.wellFormed.assigned hassigned).trans hid)
  have hguard : ¬((Call.lapse id).inRange = false ∨
      (Call.lapse id).payable = false ∧ msg.value ≠ 0) := by
    simp [hrange, hvalue]
  have hlapse : lapse dep block msg chain.store id = .ok _ := lapse_ok hactive htime hsplit
  have hdispatch : dispatch keccak256 dep block msg chain.store (.lapse id) =
      lapse dep block msg chain.store id := by
    unfold dispatch
    rw [revertIf_ok hguard]
    rfl
  have haccepted : Accepted keccak256 dep block chain msg (.lapse id) _ :=
    ⟨houtside, by rw [hvalue]; exact hether, hdispatch.trans hlapse⟩
  exact haccepted.runs (hsolvent.applyOutcome haccepted).2

/-- `lapse` succeeds exactly when two whole periods and the grace window have passed
after the last proven period. -/
theorem lapse_safety {world : World} (hreach : Reachable keccak256 dep world)
    (hbounty : dep.params.bountyBps ≤ 10000) (id : Nat) :
    (∀ msg, Outside dep msg.sender → msg.value = 0 →
      ((∃ result, world.state.callInstance dep world.env keccak256 msg (.lapse id) = some result) ↔
        (world.state.store.providers id).status = .active ∧
          ((world.state.store.providers id).anchor : Int) +
            (lastPeriod (proofs id world.state.log) + 3) * dep.params.custodyPeriod +
            dep.params.lapseGrace ≤ world.env.timestamp)) ∧
    (∀ msg result,
      world.state.callInstance dep world.env keccak256 msg (.lapse id) = some result →
      (∃ k : Nat, (world.state.store.providers id).anchor + (k + 2) * dep.params.custodyPeriod +
          dep.params.lapseGrace ≤ world.env.timestamp ∧
        ∀ proof ∈ proofs id world.state.log,
          proof.1 < (world.state.store.providers id).anchor + k * dep.params.custodyPeriod) ∧
      ∀ proof ∈ proofs id world.state.log,
        proof.1 + 2 * dep.params.custodyPeriod + dep.params.lapseGrace < world.env.timestamp) ∧
    (∀ msg call out, Accepted keccak256 dep world.env world.state msg call out →
      proofs id (world.state.log ++ out.events.map fun event => (world.env.timestamp, event)) =
        proofs id world.state.log ++
          if call.submits id then
            [(world.env.timestamp, (world.env.timestamp -
              (world.state.store.providers id).anchor) / dep.params.custodyPeriod)]
          else []) ∧
    (world.stack = [] → ∀ later, (system keccak256 dep).Steps world later →
      lastPeriod (proofs id world.state.log) ≤ lastPeriod (proofs id later.state.log)) := by
  have hcustody := hreach.custody
  have hclock := hcustody.clock id
  refine ⟨?_, ?_, ?_, ?_⟩
  · intro msg houtside hvalue
    have hlast : lastPeriod (proofs id world.state.log) + 3 =
        ((world.state.store.providers id).lastProvenPlusOne + 2 : Nat) := by
      have hrecorded := hclock.recorded
      omega
    have hlapsable : ((world.state.store.providers id).anchor : Int) +
        (lastPeriod (proofs id world.state.log) + 3) * dep.params.custodyPeriod +
        dep.params.lapseGrace = (lapseTimes dep (world.state.store.providers id)).2 := by
      rw [hlast]
      unfold lapseTimes
      norm_cast
    rw [hlapsable, Int.ofNat_le]
    constructor
    · rintro ⟨result, hcall⟩
      exact lapse_passed hcall
    · rintro ⟨hactive, htime⟩
      exact lapse_runs hreach.solvent hreach.running.ether hcustody.idsFit hbounty houtside hvalue
        hactive htime
  · intro msg result hcall
    obtain ⟨_, htime⟩ := lapse_passed hcall
    have hbefore : ∀ proof ∈ proofs id world.state.log,
        proof.1 < (world.state.store.providers id).anchor +
          (world.state.store.providers id).lastProvenPlusOne * dep.params.custodyPeriod := by
      intro proof hmem
      have hle := le_lastPeriod hclock.ordered hmem
      have hrecorded := hclock.recorded
      have hperiods : (proof.2 + 1) * dep.params.custodyPeriod ≤
          (world.state.store.providers id).lastProvenPlusOne * dep.params.custodyPeriod :=
        Nat.mul_le_mul_right _ (by omega)
      have hend := (hclock.within proof hmem).2.1
      omega
    refine ⟨⟨_, htime, hbefore⟩, ?_⟩
    intro proof hmem
    have hproof := hbefore proof hmem
    unfold lapseTimes at htime
    simp only [Nat.add_mul] at htime
    omega
  · intro msg call out haccepted
    rw [proofs_append_events, haccepted.change.provenPeriods id]
    cases call.submits id with
    | false => rfl
    | true => rfl
  · intro hidle later hsteps
    obtain ⟨added, hadded⟩ := log_extends hreach hidle hsteps
    refine lastPeriod_le_of_extends ?_ ((hreach.steps hsteps).custody.clock id).ordered
    rw [← hadded, proofs_append]
    exact List.prefix_append _ _

theorem lapse_safety_due :
    ∃ result, dueWorld.state.callInstance sampleDeployment dueWorld.env Keccak.keccak256
      (sampleMsg (Vector.replicate 20 5) 0) (.lapse 1) = some result :=
  ((lapse_safety dueWorld_reachable (by decide) 1).1 (sampleMsg (Vector.replicate 20 5) 0)
    (by decide) rfl).mpr ⟨rfl, by decide⟩

end

end Blobsitter.Contract
