import Blobsitter.Contract.PendingCommit
import Blobsitter.Daemon.CustodyDriver
import Blobsitter.Daemon.CustodyWitness

/-!
# Planner and contract in a loop

The driver is consulted at block boundaries of a run of the contract.  What it plans
under `beginProof` and `submitProofEscape` is carried out before the next consultation
and before its deadline.  A prover may be down, fail, hang or deliver, what it delivers is
submitted for as long as it takes, and a task may outlast the transaction it has sent.
-/

namespace Blobsitter.Daemon

open Library
open Contract (World Reachable system proofs commitments proofs_append commitments_append)

/-- When a planned transaction has to be on the chain. -/
def Plan.deadline : Plan → Option Nat
  | .begin deadline => some deadline
  | .escape _ deadline => some deadline
  | _ => none

/-- The planned transaction has been accepted between the two worlds, in time. -/
def Plan.Executed (id : Nat) (before after : World) : Plan → Prop
  | .begin deadline => ∃ extra, after.state.log = before.state.log ++ extra ∧
      ∃ commit ∈ commitments id extra, commit.1 < deadline
  | .escape _ deadline => ∃ extra, after.state.log = before.state.log ++ extra ∧
      ∃ proof ∈ proofs id extra, proof.1 < deadline
  | _ => True

/-- One consultation: the world, the tasks after reaping, and the decision. -/
structure Consultation where
  world : World
  tasks : CustodyDriver
  decided : Plan

section

variable (keccak256 : ByteString → Reference.Hash) (dep : Contract.Deployment)
variable (params : CustodyParams)

/-- The driver consulted along a run of the contract, the newest consultation first. -/
inductive Consulted : List Consultation → CustodyDriver → Prop where
  | new : Consulted [] CustodyDriver.new
  | tick {earlier : List Consultation} {driver reaped next : CustodyDriver} {world : World}
      {available : Bool} {finished : Finished} {decided : Plan}
      (hrun : Consulted earlier driver) (hreach : Reachable keccak256 dep world)
      (hidle : world.stack = [])
      (hactive : (world.state.store.providers params.providerId).status = .active)
      (hlast : ∀ last, earlier.head? = some last →
        (system keccak256 dep).Steps last.world world ∧
          last.decided.Executed params.providerId last.world world)
      (hdrive : driver.drive params world.env.timestamp
        (ProviderView.ofProvider (world.state.store.providers params.providerId)) available
        finished = .ok (reaped, decided, next)) :
      Consulted (⟨world, reaped, decided⟩ :: earlier) next

/-- A world after the last consultation; what was planned there has been executed, or
its deadline is still to come. -/
structure UpTo (visits : List Consultation) (now : World) : Prop where
  reach : Reachable keccak256 dep now
  later : ∀ last, visits.head? = some last → (system keccak256 dep).Steps last.world now ∧
    (last.decided.Executed params.providerId last.world now ∨
      ∀ deadline, last.decided.deadline = some deadline → now.env.timestamp < deadline)

end

/-- The end of a custody period of the provider. -/
def endOf (dep : Contract.Deployment) (record : Contract.Provider) (period : Nat) : Nat :=
  record.anchor + (period + 1) * dep.params.custodyPeriod

/-- Inside the period, with less than the threshold to go. -/
structure FinalWindow (dep : Contract.Deployment) (params : CustodyParams) (world : World)
    (period : Nat) : Prop where
  started : (world.state.store.providers params.providerId).anchor +
    period * dep.params.custodyPeriod ≤ world.env.timestamp
  running : world.env.timestamp <
    endOf dep (world.state.store.providers params.providerId) period
  remaining : endOf dep (world.state.store.providers params.providerId) period -
    world.env.timestamp < params.escapeThreshold

/-- Two consultations fall into the last stretch of the period. -/
def TwiceConsulted (dep : Contract.Deployment) (params : CustodyParams)
    (visits : List Consultation) (period : Nat) : Prop :=
  ∃ earlier later, [later, earlier].Sublist visits ∧ FinalWindow dep params earlier.world period ∧
    FinalWindow dep params later.world period

/-- A consultation there that finds no submission under way, and no begin task but one that
has committed the period. -/
structure Consultation.Quiet (dep : Contract.Deployment) (params : CustodyParams)
    (visit : Consultation) (period : Nat) : Prop where
  window : FinalWindow dep params visit.world period
  free : visit.tasks.submitting = false
  begun : visit.tasks.begin = true → ∃ commit ∈
    commitments params.providerId visit.world.state.log, commit.2.period = period

/-- A consultation there that no task of an earlier period blocks: a begin task that it finds
under way has committed the period, and a submission lands in the period. -/
structure Consultation.Unblocked (dep : Contract.Deployment) (params : CustodyParams)
    (visit : Consultation) (now : World) (period : Nat) : Prop where
  window : FinalWindow dep params visit.world period
  begun : visit.tasks.begin = true → ∃ commit ∈
    commitments params.providerId visit.world.state.log, commit.2.period = period
  lands : visit.tasks.submitting = true → ∃ proof ∈ proofs params.providerId now.state.log,
    (visit.world.state.store.providers params.providerId).anchor +
        period * dep.params.custodyPeriod ≤ proof.1 ∧
      proof.1 < endOf dep (visit.world.state.store.providers params.providerId) period

/-- Two such consultations, one being enough once the period is committed. -/
inductive Attended (dep : Contract.Deployment) (params : CustodyParams)
    (visits : List Consultation) (now : World) (period : Nat) : Prop where
  | committed {visit : Consultation} (hmem : visit ∈ visits)
      (hvisit : visit.Unblocked dep params now period)
      (hcommit : (visit.world.state.store.providers params.providerId).commitPeriodPlusOne =
        period + 1) : Attended dep params visits now period
  | twice {earlier later : Consultation} (hmem : [later, earlier].Sublist visits)
      (hearlier : earlier.Unblocked dep params now period)
      (hlater : later.Unblocked dep params now period) : Attended dep params visits now period

section

variable {keccak256 : ByteString → Reference.Hash} {dep : Contract.Deployment}
variable {params : CustodyParams} {visits : List Consultation} {driver : CustodyDriver}

/-- What has been executed stays executed. -/
theorem Plan.Executed.extend {id : Nat} {decided : Plan} {before middle after : World}
    (hexecuted : decided.Executed id before middle)
    (hlog : middle.state.log <+: after.state.log) : decided.Executed id before after := by
  obtain ⟨more, hmore⟩ := hlog
  cases decided with
  | idle => trivial
  | prove => trivial
  | begin deadline =>
      obtain ⟨extra, hextra, commit, hmem, htime⟩ := hexecuted
      refine ⟨extra ++ more, ?_, commit, ?_, htime⟩
      · rw [← hmore, hextra, List.append_assoc]
      · rw [commitments_append]
        exact List.mem_append_left _ hmem
  | escape commit deadline =>
      obtain ⟨extra, hextra, proof, hmem, htime⟩ := hexecuted
      refine ⟨extra ++ more, ?_, proof, ?_, htime⟩
      · rw [← hmore, hextra, List.append_assoc]
      · rw [proofs_append]
        exact List.mem_append_left _ hmem

/-- What the planner saw at a consultation, and what it made of it. -/
structure Consultation.Planned (keccak256 : ByteString → Reference.Hash)
    (dep : Contract.Deployment) (params : CustodyParams) (visit : Consultation) : Prop where
  reach : Reachable keccak256 dep visit.world
  idle : visit.world.stack = []
  active : (visit.world.state.store.providers params.providerId).status = .active
  planned : ∃ available failed, plan params visit.world.env.timestamp
    (ProviderView.ofProvider (visit.world.state.store.providers params.providerId))
    visit.tasks.inFlight available failed = .ok visit.decided

theorem Consultation.Planned.anchor_kept {visit : Consultation}
    (hplanned : visit.Planned keccak256 dep params) {now : World}
    (hsteps : (system keccak256 dep).Steps visit.world now) :
    (now.state.store.providers params.providerId).anchor =
      (visit.world.state.store.providers params.providerId).anchor := by
  refine Contract.anchor_kept hplanned.reach hplanned.idle hsteps ?_
  rw [hplanned.active]
  decide

theorem drive_eq_ok {reaped next : CustodyDriver} {now : Nat} {view : ProviderView}
    {available : Bool} {finished : Finished} {decided : Plan}
    (hdrive : driver.drive params now view available finished = .ok (reaped, decided, next)) :
    reaped = driver.reap view finished ∧ next = reaped.spawn decided ∧
      plan params now view reaped.inFlight available (reaped.proverFailed view) = .ok decided := by
  obtain ⟨made, hplan, hresult⟩ := bind_eq_ok.mp hdrive
  obtain ⟨rfl, hrest⟩ := Prod.mk.inj (Except.ok.inj hresult)
  obtain ⟨rfl, rfl⟩ := Prod.mk.inj hrest
  exact ⟨rfl, rfl, hplan⟩

theorem Consulted.planned (hrun : Consulted keccak256 dep params visits driver) :
    ∀ visit ∈ visits, visit.Planned keccak256 dep params := by
  induction hrun with
  | new =>
      intro visit hmem
      cases hmem
  | tick _ hreach hidle hactive _ hdrive ih =>
      intro visit hmem
      rcases List.mem_cons.mp hmem with rfl | hold
      · obtain ⟨rfl, rfl, hplan⟩ := drive_eq_ok hdrive
        exact ⟨hreach, hidle, hactive, _, _, hplan⟩
      · exact ih visit hold

/-- The world of the first comes before the second's, and its plan is executed by then. -/
def Consultation.Precedes (keccak256 : ByteString → Reference.Hash) (dep : Contract.Deployment)
    (params : CustodyParams) (later earlier : Consultation) : Prop :=
  (system keccak256 dep).Steps earlier.world later.world ∧
    earlier.decided.Executed params.providerId earlier.world later.world

/-- What holds of the newest consultation holds of the earlier ones. -/
theorem Consulted.carried (hrun : Consulted keccak256 dep params visits driver) {now : World}
    (hlast : ∀ last, visits.head? = some last → (system keccak256 dep).Steps last.world now)
    {visit : Consultation} (hmem : visit ∈ visits) :
    (system keccak256 dep).Steps visit.world now ∧ (visits.head? = some visit ∨
      visit.decided.Executed params.providerId visit.world now) := by
  induction hrun generalizing now with
  | new => cases hmem
  | @tick earlier driver reaped next world available finished decided hrun hreach hidle _ hbefore
      hdrive ih =>
      have hsteps := hlast _ rfl
      rcases List.mem_cons.mp hmem with rfl | hold
      · exact ⟨hsteps, Or.inl rfl⟩
      · have hworld : ∀ last, earlier.head? = some last →
            (system keccak256 dep).Steps last.world world :=
          fun last hhead => (hbefore last hhead).1
        obtain ⟨hvisit, hcase⟩ := ih hworld hold
        have hlog := Contract.log_extends hreach hidle hsteps
        refine ⟨hvisit.trans hsteps, Or.inr ?_⟩
        rcases hcase with hhead | hexecuted
        · exact (hbefore visit hhead).2.extend hlog
        · exact hexecuted.extend hlog

theorem Consulted.pairwise (hrun : Consulted keccak256 dep params visits driver) :
    visits.Pairwise (Consultation.Precedes keccak256 dep params) := by
  induction hrun with
  | new => exact List.Pairwise.nil
  | @tick earlier driver reaped next world available finished decided hrun hreach hidle _ hbefore
      hdrive ih =>
      refine List.pairwise_cons.mpr ⟨?_, ih⟩
      intro visit hold
      have hworld : ∀ last, earlier.head? = some last →
          (system keccak256 dep).Steps last.world world :=
        fun last hhead => (hbefore last hhead).1
      obtain ⟨hvisit, hcase⟩ := hrun.carried hworld hold
      rcases hcase with hhead | hexecuted
      · exact ⟨hvisit, (hbefore visit hhead).2⟩
      · exact ⟨hvisit, hexecuted⟩

/-- Once its deadline has passed, every plan of the run is executed. -/
theorem UpTo.executed {now : World} (hnow : UpTo keccak256 dep params visits now)
    (hrun : Consulted keccak256 dep params visits driver) {visit : Consultation}
    (hmem : visit ∈ visits) : (system keccak256 dep).Steps visit.world now ∧
      ∀ deadline, visit.decided.deadline = some deadline → deadline ≤ now.env.timestamp →
        visit.decided.Executed params.providerId visit.world now := by
  obtain ⟨hsteps, hcase⟩ := hrun.carried (fun last hhead => (hnow.later last hhead).1) hmem
  refine ⟨hsteps, ?_⟩
  intro deadline hdeadline hpassed
  rcases hcase with hhead | hexecuted
  · rcases (hnow.later visit hhead).2 with hexecuted | hpending
    · exact hexecuted
    · exact absurd hpassed (not_le.mpr (hpending deadline hdeadline))
  · exact hexecuted

/-- A time lies in one period only. -/
theorem period_unique {anchor length first second time : Nat}
    (hfirst : anchor + first * length ≤ time) (hfirstEnd : time < anchor + (first + 1) * length)
    (hsecond : anchor + second * length ≤ time) (hsecondEnd : time < anchor + (second + 1) * length) : first = second := by
  have hleft : (time - anchor) / length = first :=
    Nat.div_eq_of_lt_le (by omega) (by omega)
  have hright : (time - anchor) / length = second :=
    Nat.div_eq_of_lt_le (by omega) (by omega)
  exact hleft.symm.trans hright

section

variable {visit : Consultation} {world : World} {period : Nat}

theorem FinalWindow.periodAt (hwindow : FinalWindow dep params world period)
    (hperiod : params.custodyPeriod = dep.params.custodyPeriod) :
    periodAt params world.env.timestamp
      (world.state.store.providers params.providerId).anchor = .ok period := by
  apply periodAt_eq
  · rw [hperiod]
    exact hwindow.started
  · rw [hperiod]
    exact hwindow.running

/-- Where the end of the period is a 64-bit time, nothing wraps. -/
theorem FinalWindow.periodEnd (hwindow : FinalWindow dep params world period)
    (hperiod : params.custodyPeriod = dep.params.custodyPeriod)
    (hfits : endOf dep (world.state.store.providers params.providerId) period < 2 ^ 64) :
    periodEnd params (world.state.store.providers params.providerId).anchor period =
      endOf dep (world.state.store.providers params.providerId) period := by
  have hpositive : 0 < dep.params.custodyPeriod := by
    have hstarted := hwindow.started
    have hrunning := hwindow.running
    rw [endOf] at hrunning
    by_contra hzero
    rw [Nat.eq_zero_of_not_pos hzero] at hstarted hrunning
    omega
  have hle : period + 1 ≤ (period + 1) * dep.params.custodyPeriod :=
    Nat.le_mul_of_pos_right _ hpositive
  unfold endOf at hfits ⊢
  rw [periodEnd_eq, hperiod]
  · rw [hperiod]
    exact hfits
  · omega

/-- A committed period is escaped. -/
theorem Consultation.Quiet.escapes (hquiet : visit.Quiet dep params period)
    (hplanned : visit.Planned keccak256 dep params)
    (hperiod : params.custodyPeriod = dep.params.custodyPeriod)
    (hfits : endOf dep (visit.world.state.store.providers params.providerId) period < 2 ^ 64)
    (hcommit : (visit.world.state.store.providers params.providerId).commitPeriodPlusOne =
      period + 1) :
    ∃ commit, visit.decided =
      .escape commit (endOf dep (visit.world.state.store.providers params.providerId) period) := by
  obtain ⟨available, failed, hplan⟩ := hplanned.planned
  have hend := hquiet.window.periodEnd hperiod hfits
  obtain ⟨commit, hview, hcurrent⟩ : ∃ commit, (ProviderView.ofProvider
      (visit.world.state.store.providers params.providerId)).commit = some commit ∧
        commit.period = period := by
    refine ⟨_, if_pos ?_, ?_⟩
    · rw [hcommit]
      exact Nat.succ_ne_zero period
    · simp only [hcommit]
      exact Nat.add_sub_cancel period 1
  have hescape := @plan_escape params visit.world.env.timestamp period _ visit.tasks.inFlight
    available failed commit (decide_eq_true hplanned.active) (hquiet.window.periodAt hperiod) hview
    hcurrent hquiet.free (by rw [ProviderView.ofProvider, hend]; exact hquiet.window.remaining)
  rw [hplan, ProviderView.ofProvider, hend] at hescape
  exact ⟨commit, Except.ok.inj hescape⟩

/-- A commit of the running period is stored until the period is proven. -/
theorem FinalWindow.committed (hwindow : FinalWindow dep params world period)
    (hreach : Reachable keccak256 dep world)
    (hactive : (world.state.store.providers params.providerId).status = .active)
    {commit : Nat × Contract.Commitment}
    (hmem : commit ∈ commitments params.providerId world.state.log)
    (hsame : commit.2.period = period) :
    (world.state.store.providers params.providerId).commitPeriodPlusOne = period + 1 ∨
      (world.state.store.providers params.providerId).lastProvenPlusOne = period + 1 := by
  have hrunning := hwindow.running
  rw [← hsame, endOf] at hrunning
  have hstored := (hreach.pending params.providerId).running hactive commit hmem hrunning
  rwa [hsame] at hstored

/-- A period that is neither committed nor proven is begun. -/
theorem Consultation.Quiet.begins (hquiet : visit.Quiet dep params period)
    (hplanned : visit.Planned keccak256 dep params)
    (hperiod : params.custodyPeriod = dep.params.custodyPeriod)
    (hfits : endOf dep (visit.world.state.store.providers params.providerId) period < 2 ^ 64)
    (hcommit : (visit.world.state.store.providers params.providerId).commitPeriodPlusOne ≠
      period + 1)
    (hunproven : (visit.world.state.store.providers params.providerId).lastProvenPlusOne ≤ period) :
    visit.decided =
      .begin (endOf dep (visit.world.state.store.providers params.providerId) period) := by
  obtain ⟨available, failed, hplan⟩ := hplanned.planned
  have hend := hquiet.window.periodEnd hperiod hfits
  have hnone : ∀ commit, (ProviderView.ofProvider
      (visit.world.state.store.providers params.providerId)).commit = some commit →
        commit.period ≠ period := by
    rintro commit hview rfl
    simp only [ProviderView.ofProvider] at hview
    split at hview
    · rename_i hpending
      cases hview
      exact hcommit (by simp only; omega)
    · cases hview
  have hfree : visit.tasks.begin = false := by
    by_contra hbusy
    obtain ⟨commit, hmem, hsame⟩ := hquiet.begun (Bool.not_eq_false _ ▸ hbusy)
    rcases hquiet.window.committed hplanned.reach hplanned.active hmem hsame with hstored | hlast
    · exact hcommit hstored
    · omega
  have hbegin := @plan_begin params visit.world.env.timestamp period _ visit.tasks.inFlight
    available failed (decide_eq_true hplanned.active) (hquiet.window.periodAt hperiod) hnone
    hfree hquiet.free hunproven
  rw [hplan, ProviderView.ofProvider, hend] at hbegin
  exact Except.ok.inj hbegin

/-! ## A period is proven by its end -/

/-- A record whose last proof is not before the running period has proven that period. -/
theorem proven_of_last (hreach : Reachable keccak256 dep world) {id : Nat}
    (hruns : world.env.timestamp < endOf dep (world.state.store.providers id) period)
    (hproven : period < (world.state.store.providers id).lastProvenPlusOne) :
    ∃ proof ∈ proofs id world.state.log, proof.2 = period := by
  have hclock := hreach.custody.clock id
  have hrecorded := hclock.recorded
  rcases List.eq_nil_or_concat (proofs id world.state.log) with hnil | ⟨init, last, hproofs⟩
  · rw [hnil] at hrecorded
    change _ = (-1 : Int) + 1 at hrecorded
    omega
  · rw [List.concat_eq_append] at hproofs
    have hmem : last ∈ proofs id world.state.log := by
      rw [hproofs]
      exact List.mem_append_right _ (List.mem_singleton.mpr rfl)
    rw [hproofs, Contract.lastPeriod_concat] at hrecorded
    obtain ⟨hstart, _, htime⟩ := hclock.within last hmem
    refine ⟨last, hmem, ?_⟩
    -- the last period has begun, so it is not beyond the running one
    have hle : last.2 < period + 1 := by
      unfold endOf at hruns
      exact Nat.lt_of_mul_lt_mul_right (show last.2 * dep.params.custodyPeriod <
        (period + 1) * dep.params.custodyPeriod by omega)
    omega

variable {now : World}

/-- What is logged after the consultation and before the end of its period, inside some
period of the provider, lies in that period. -/
theorem period_of_window (hplanned : visit.Planned keccak256 dep params)
    (hwindow : FinalWindow dep params visit.world period)
    (hsteps : (system keccak256 dep).Steps visit.world now)
    {extra : List (Nat × Contract.Event)} (hextra : now.state.log = visit.world.state.log ++ extra)
    {α : Type} {read : Contract.Event → Option α}
    (hread : ∀ event, event.isTransfer = true → read event = none) {found : Nat × α}
    (hmem : found ∈ Contract.recorded read extra)
    (htime : found.1 < endOf dep (visit.world.state.store.providers params.providerId) period)
    {other : Nat}
    (hstart : (now.state.store.providers params.providerId).anchor +
      other * dep.params.custodyPeriod ≤ found.1)
    (hend : found.1 < (now.state.store.providers params.providerId).anchor +
      (other + 1) * dep.params.custodyPeriod) : other = period := by
  have hanchor := hplanned.anchor_kept hsteps
  obtain ⟨added, hadded, hsince⟩ := Contract.log_since hplanned.idle hsteps
  obtain rfl : extra = added := List.append_cancel_left (hextra.symm.trans hadded)
  have hlater : visit.world.env.timestamp ≤ found.1 := Contract.recorded_since hread hsince hmem
  rw [hanchor] at hstart hend
  exact period_unique hstart hend (hwindow.started.trans hlater) htime

theorem proof_of_window (hplanned : visit.Planned keccak256 dep params)
    (hwindow : FinalWindow dep params visit.world period) (hnow : Reachable keccak256 dep now)
    (hsteps : (system keccak256 dep).Steps visit.world now)
    {extra : List (Nat × Contract.Event)} (hextra : now.state.log = visit.world.state.log ++ extra)
    {proof : Nat × Nat} (hmem : proof ∈ proofs params.providerId extra)
    (htime : proof.1 < endOf dep (visit.world.state.store.providers params.providerId) period) :
    proof ∈ proofs params.providerId now.state.log ∧ proof.2 = period := by
  have hin : proof ∈ proofs params.providerId now.state.log := by
    rw [hextra, proofs_append]
    exact List.mem_append_right _ hmem
  obtain ⟨hstart, hend, _⟩ := (hnow.custody.clock params.providerId).within proof hin
  exact ⟨hin, period_of_window hplanned hwindow hsteps hextra
    (fun _ => Contract.Event.provenPeriod_of_isTransfer params.providerId) hmem htime hstart hend⟩

theorem commit_of_window (hplanned : visit.Planned keccak256 dep params)
    (hwindow : FinalWindow dep params visit.world period) (hnow : Reachable keccak256 dep now)
    (hsteps : (system keccak256 dep).Steps visit.world now)
    {extra : List (Nat × Contract.Event)} (hextra : now.state.log = visit.world.state.log ++ extra)
    {commit : Nat × Contract.Commitment} (hmem : commit ∈ commitments params.providerId extra)
    (htime : commit.1 < endOf dep (visit.world.state.store.providers params.providerId) period) :
    commit ∈ commitments params.providerId now.state.log ∧ commit.2.period = period := by
  have hin : commit ∈ commitments params.providerId now.state.log := by
    rw [hextra, commitments_append]
    exact List.mem_append_right _ hmem
  obtain ⟨hstart, hend, _⟩ := (hnow.pending params.providerId).within commit hin
  exact ⟨hin, period_of_window hplanned hwindow hsteps hextra
    (fun _ => Contract.Event.commitment_of_isTransfer params.providerId) hmem htime hstart hend⟩

/-- After a quiet consultation with the commit stored the period is proven in time. -/
theorem proven_of_committed (hperiod : params.custodyPeriod = dep.params.custodyPeriod)
    (hrun : Consulted keccak256 dep params visits driver)
    (hnow : UpTo keccak256 dep params visits now) (hmem : visit ∈ visits)
    (hquiet : visit.Quiet dep params period)
    (hcommit : (visit.world.state.store.providers params.providerId).commitPeriodPlusOne =
      period + 1)
    (hpassed : endOf dep (visit.world.state.store.providers params.providerId) period ≤
      now.env.timestamp) :
    ∃ proof ∈ proofs params.providerId now.state.log, proof.2 = period := by
  have hplanned := hrun.planned visit hmem
  obtain ⟨commit, hescape⟩ := hquiet.escapes hplanned hperiod
    (hpassed.trans_lt now.env.timestamp_lt) hcommit
  obtain ⟨hsteps, hexecuted⟩ := hnow.executed hrun hmem
  rw [hescape] at hexecuted
  obtain ⟨extra, hextra, proof, hproof, htime⟩ := hexecuted _ rfl hpassed
  obtain ⟨hin, hsame⟩ :=
    proof_of_window hplanned hquiet.window hnow.reach hsteps hextra hproof htime
  exact ⟨proof, hin, hsame⟩

/-- Of two quiet consultations the first commits the period and the second escapes it. -/
theorem proven_of_twice (hperiod : params.custodyPeriod = dep.params.custodyPeriod)
    (hrun : Consulted keccak256 dep params visits driver)
    (hnow : UpTo keccak256 dep params visits now) {earlier later : Consultation}
    (hmem : [later, earlier].Sublist visits) (hearlier : earlier.Quiet dep params period)
    (hlater : later.Quiet dep params period)
    (hpassed : endOf dep (earlier.world.state.store.providers params.providerId) period ≤
      now.env.timestamp) :
    ∃ proof ∈ proofs params.providerId now.state.log, proof.2 = period := by
  have hfirst : earlier ∈ visits := hmem.subset (List.mem_cons_of_mem _ List.mem_cons_self)
  have hsecond : later ∈ visits := hmem.subset List.mem_cons_self
  have hplanned := hrun.planned earlier hfirst
  have hreplanned := hrun.planned later hsecond
  obtain ⟨hsteps, hexecuted⟩ := List.rel_of_pairwise_cons (hrun.pairwise.sublist hmem)
    (List.mem_singleton.mpr rfl)
  have hanchor := hplanned.anchor_kept hsteps
  have hends : endOf dep (later.world.state.store.providers params.providerId) period =
      endOf dep (earlier.world.state.store.providers params.providerId) period := by
    rw [endOf, hanchor, endOf]
  have hkept : ∀ {before : World}, Reachable keccak256 dep before → before.stack = [] →
      (system keccak256 dep).Steps before now →
      (∃ proof ∈ proofs params.providerId before.state.log, proof.2 = period) →
      ∃ proof ∈ proofs params.providerId now.state.log, proof.2 = period := by
    rintro before hreach hidle hto ⟨proof, hproof, hsame⟩
    obtain ⟨more, hmore⟩ := Contract.log_extends hreach hidle hto
    refine ⟨proof, ?_, hsame⟩
    rw [← hmore, proofs_append]
    exact List.mem_append_left _ hproof
  by_cases hcommit : (earlier.world.state.store.providers params.providerId).commitPeriodPlusOne =
      period + 1
  · exact proven_of_committed hperiod hrun hnow hfirst hearlier hcommit hpassed
  · by_cases hproven : (earlier.world.state.store.providers params.providerId).lastProvenPlusOne ≤
        period
    · have hbegin := hearlier.begins hplanned hperiod (hpassed.trans_lt now.env.timestamp_lt)
        hcommit hproven
      rw [hbegin] at hexecuted
      obtain ⟨extra, hextra, commit, hcommitted, htime⟩ := hexecuted
      obtain ⟨hin, hsame⟩ := commit_of_window hplanned hearlier.window hreplanned.reach hsteps
        hextra hcommitted htime
      rcases hlater.window.committed hreplanned.reach hreplanned.active hin hsame with
        hstored | hlast
      · exact proven_of_committed hperiod hrun hnow hsecond hlater hstored (hends ▸ hpassed)
      · refine hkept hreplanned.reach hreplanned.idle (hnow.executed hrun hsecond).1 ?_
        refine proven_of_last hreplanned.reach hlater.window.running ?_
        rw [hlast]
        exact Nat.lt_succ_self period
    · exact hkept hplanned.reach hplanned.idle (hnow.executed hrun hfirst).1
        (proven_of_last hplanned.reach hearlier.window.running (not_le.mp hproven))

/-! ## The provider stays current -/

/-- A submission that blocks the consultation proves the period. -/
theorem Consultation.Unblocked.quiet_or_proven (hvisit : visit.Unblocked dep params now period)
    (hplanned : visit.Planned keccak256 dep params) (hnow : Reachable keccak256 dep now)
    (hsteps : (system keccak256 dep).Steps visit.world now) :
    visit.Quiet dep params period ∨
      ∃ proof ∈ proofs params.providerId now.state.log, proof.2 = period := by
  cases hbusy : visit.tasks.submitting with
  | false => exact Or.inl ⟨hvisit.window, hbusy, hvisit.begun⟩
  | true =>
      obtain ⟨proof, hmem, hlower, hupper⟩ := hvisit.lands hbusy
      obtain ⟨hstart, hend, _⟩ := (hnow.custody.clock params.providerId).within proof hmem
      rw [hplanned.anchor_kept hsteps] at hstart hend
      exact Or.inr ⟨proof, hmem, period_unique hstart hend hlower hupper⟩

theorem Attended.proven (hperiod : params.custodyPeriod = dep.params.custodyPeriod)
    (hrun : Consulted keccak256 dep params visits driver)
    (hnow : UpTo keccak256 dep params visits now)
    (hattended : Attended dep params visits now period)
    (hpassed : endOf dep (now.state.store.providers params.providerId) period ≤
      now.env.timestamp) :
    ∃ proof ∈ proofs params.providerId now.state.log, proof.2 = period := by
  have hends : ∀ visit ∈ visits,
      endOf dep (visit.world.state.store.providers params.providerId) period ≤
        now.env.timestamp := by
    intro visit hmem
    rw [endOf, (hrun.planned visit hmem).anchor_kept (hnow.executed hrun hmem).1] at hpassed
    exact hpassed
  have hcases : ∀ visit ∈ visits, visit.Unblocked dep params now period →
      visit.Quiet dep params period ∨
        ∃ proof ∈ proofs params.providerId now.state.log, proof.2 = period :=
    fun visit hmem hvisit => hvisit.quiet_or_proven (hrun.planned visit hmem) hnow.reach
      (hnow.executed hrun hmem).1
  cases hattended with
  | @committed visit hmem hvisit hcommit =>
      rcases hcases visit hmem hvisit with hquiet | hproven
      · exact proven_of_committed hperiod hrun hnow hmem hquiet hcommit (hends visit hmem)
      · exact hproven
  | @twice earlier later hmem hearlier hlater =>
      have hfirst : earlier ∈ visits := hmem.subset (List.mem_cons_of_mem _ List.mem_cons_self)
      have hsecond : later ∈ visits := hmem.subset List.mem_cons_self
      rcases hcases earlier hfirst hearlier with hquiet | hproven
      · rcases hcases later hsecond hlater with hlaterQuiet | hproven
        · exact proven_of_twice hperiod hrun hnow hmem hquiet hlaterQuiet (hends earlier hfirst)
        · exact hproven
      · exact hproven

/-- With every ended period proven, the last proof is at most one period behind. -/
theorem period_le_lastProven {id : Nat} (hreach : Reachable keccak256 dep now)
    (hproven : ∀ period, endOf dep (now.state.store.providers id) period ≤ now.env.timestamp →
      ∃ proof ∈ proofs id now.state.log, proof.2 = period) :
    0 < dep.params.custodyPeriod ∧
      (now.env.timestamp - (now.state.store.providers id).anchor) / dep.params.custodyPeriod ≤
        (now.state.store.providers id).lastProvenPlusOne := by
  have hclock := hreach.custody.clock id
  have hanchored := hclock.anchored
  have hpositive : 0 < dep.params.custodyPeriod := by
    by_contra hzero
    have hnone := Nat.eq_zero_of_not_pos hzero
    obtain ⟨proof, hmem, _⟩ := hproven 0 (by rw [endOf, hnone]; omega)
    obtain ⟨hstart, hend, _⟩ := hclock.within proof hmem
    rw [hnone] at hstart hend
    omega
  refine ⟨hpositive, ?_⟩
  cases hcurrent : (now.env.timestamp - (now.state.store.providers id).anchor) /
      dep.params.custodyPeriod with
  | zero => exact Nat.zero_le _
  | succ period =>
      have hended : endOf dep (now.state.store.providers id) period ≤ now.env.timestamp := by
        have hle := Nat.div_mul_le_self
          (now.env.timestamp - (now.state.store.providers id).anchor) dep.params.custodyPeriod
        rw [hcurrent] at hle
        unfold endOf
        omega
      obtain ⟨proof, hmem, rfl⟩ := hproven period hended
      have hlast := Contract.le_lastPeriod hclock.ordered hmem
      have hrecorded := hclock.recorded
      omega

/-- Whatever the prover does: when every period that has ended was attended, each has been
proven by its end, the derived status is `CURRENT`, and nobody can lapse the provider. -/
theorem planner_keeps_current (hperiod : params.custodyPeriod = dep.params.custodyPeriod)
    (hrun : Consulted keccak256 dep params visits driver)
    (hnow : UpTo keccak256 dep params visits now)
    (hattended : ∀ period, endOf dep (now.state.store.providers params.providerId) period ≤
      now.env.timestamp → Attended dep params visits now period) :
    (∀ period, endOf dep (now.state.store.providers params.providerId) period ≤
        now.env.timestamp →
      ∃ proof ∈ proofs params.providerId now.state.log, proof.2 = period ∧
        proof.1 < endOf dep (now.state.store.providers params.providerId) period) ∧
    deriveStatus params now.env.timestamp (now.state.store.providers params.providerId).anchor
      (now.state.store.providers params.providerId).lastProvenPlusOne = .ok .current ∧
    ∀ msg, now.state.callInstance dep now.env keccak256 msg (.lapse params.providerId) = none := by
  have hproven : ∀ period, endOf dep (now.state.store.providers params.providerId) period ≤
      now.env.timestamp → ∃ proof ∈ proofs params.providerId now.state.log, proof.2 = period :=
    fun period hpassed => (hattended period hpassed).proven hperiod hrun hnow hpassed
  obtain ⟨hpositive, hcurrent⟩ := period_le_lastProven hnow.reach hproven
  refine ⟨?_, ?_, ?_⟩
  · intro period hpassed
    obtain ⟨proof, hmem, rfl⟩ := hproven period hpassed
    exact ⟨proof, hmem, rfl,
      ((hnow.reach.custody.clock params.providerId).within proof hmem).2.1⟩
  · rw [deriveStatus, periodAt, hperiod, if_neg hpositive.ne', ok_bind, if_pos hcurrent]
    rfl
  · intro msg
    cases hcall : now.state.callInstance dep now.env keccak256 msg (.lapse params.providerId) with
    | none => rfl
    | some result =>
        obtain ⟨_, htime⟩ := Contract.lapse_passed hcall
        have hbefore := Nat.lt_mul_of_div_lt (Nat.lt_succ_of_le hcurrent) hpositive
        simp only [Contract.lapseTimes, Nat.succ_mul] at htime hbefore
        omega

end

end

/-- A period that ends unproven, although what was planned was carried out and every ended
period was consulted twice in its last stretch. -/
structure Starved (keccak256 : ByteString → Reference.Hash) (dep : Contract.Deployment)
    (params : CustodyParams) (visits : List Consultation) (driver : CustodyDriver) (now : World)
    (period : Nat) : Prop where
  consulted : Consulted keccak256 dep params visits driver
  upTo : UpTo keccak256 dep params visits now
  twice : ∀ ended, endOf dep (now.state.store.providers params.providerId) ended ≤
    now.env.timestamp → TwiceConsulted dep params visits ended
  ended : endOf dep (now.state.store.providers params.providerId) period ≤ now.env.timestamp
  unproven : ∀ proof ∈ proofs params.providerId now.state.log, proof.2 ≠ period
  stale : deriveStatus params now.env.timestamp
    (now.state.store.providers params.providerId).anchor
    (now.state.store.providers params.providerId).lastProvenPlusOne = .ok .stale

/-! ## Two runs

In the first the period of an empty dataset is begun and escaped in its last stretch; its
begin task never ends, and the next period is not begun.  In the second a proof is delivered
early, and its submission outlasts the period. -/

open Contract (stakedWorld declaredWorld sampleDeployment sampleBlock sampleMsg sampleOperator
  beginAction)

def lateBlock : Contract.Block := sampleBlock 15 (by decide)
def lastBlock : Contract.Block := sampleBlock 16 (by decide)
def nextBlock : Contract.Block := sampleBlock 17 (by decide)

/-- Empty custody: nothing to reveal. -/
def escapeCall : Contract.Call := .submitProofEscape 1 0 [] []

def lateWorld : World := ⟨lateBlock, stakedWorld.state, []⟩
def lastWorld : World := ⟨lastBlock, (stakedWorld.state.after lateBlock beginAction).1, []⟩

def escapeOutcome : Contract.Outcome :=
  .plain (lastWorld.state.store.setProvider 1
    { (lastWorld.state.store.providers 1).voidCommit with
      lastProvenPlusOne := 1
      lastDegraded := true }) [.custodyProven 1 0 true]

def escapedWorld : World := ⟨nextBlock, lastWorld.state.applyOutcome lastBlock 0 escapeOutcome, []⟩

set_option maxRecDepth 10000 in
theorem lastWorld_steps :
    (system Keccak.keccak256 sampleDeployment).Steps lateWorld lastWorld := by
  have hbegin : (system Keccak.keccak256 sampleDeployment).call lateBlock beginAction
      stakedWorld.state = some (lastWorld.state, none) := rfl
  have hadvance : lateBlock.timestamp ≤ lastBlock.timestamp := by decide
  exact .tail (.single (.returns hbegin)) (.advances hadvance)

/-- The pinned root of the empty dataset opens to no peaks. -/
theorem escape_accepted : Contract.Accepted Keccak.keccak256 sampleDeployment lastBlock
    lastWorld.state (sampleMsg sampleOperator 0) escapeCall escapeOutcome := by
  have hpin : ¬(0 ≠ (lastWorld.state.store.providers 1).commitLeafCount ∨
      Contract.MMR.bagRoot Keccak.keccak256 0 [] ≠
        (lastWorld.state.store.providers 1).commitRoot) := by
    rintro (hcount | hroot)
    · exact hcount rfl
    · exact hroot rfl
  have hescape : Contract.submitProofEscape Keccak.keccak256 sampleDeployment lastBlock
      (sampleMsg sampleOperator 0) lastWorld.state.store 1 0 [] [] = .ok escapeOutcome := by
    refine bind_eq_ok.mpr ⟨lastWorld.state.store.providers 1, rfl, bind_eq_ok.mpr ⟨0, rfl, ?_⟩⟩
    rw [Contract.revertIf_ok hpin]
    rfl
  have hguard : ¬(escapeCall.inRange = false ∨
      escapeCall.payable = false ∧ (sampleMsg sampleOperator 0).value ≠ 0) := by
    decide
  refine ⟨by decide, by decide, Eq.trans ?_ hescape⟩
  rw [Contract.dispatch.eq_def, Contract.revertIf_ok hguard, ok_bind]
  rfl

set_option maxRecDepth 10000 in
theorem escapedWorld_steps :
    (system Keccak.keccak256 sampleDeployment).Steps lastWorld escapedWorld := by
  have hescape : lastWorld.state.callInstance sampleDeployment lastBlock Keccak.keccak256
      (sampleMsg sampleOperator 0) escapeCall = some (escapedWorld.state, none) :=
    escape_accepted.returns rfl rfl
  have hadvance : lastBlock.timestamp ≤ nextBlock.timestamp := by decide
  exact .tail (.single (.returns (Contract.system_call.trans hescape))) (.advances hadvance)

theorem lateWorld_reachable : Reachable Keccak.keccak256 sampleDeployment lateWorld := by
  have hadvance : Contract.stakeBlock.timestamp ≤ lateBlock.timestamp := by decide
  exact Contract.stakedWorld_reachable.steps (.single (.advances hadvance))

/-- No task has finished. -/
def nothingFinished : Finished := ⟨false, false, none⟩

def lateVisit : Consultation := ⟨lateWorld, .new, .begin 17⟩

/-- The empty commit of the first period. -/
def emptyCommit : Commit where
  period := 0
  seed := Contract.zeroHash
  root := Contract.MMR.bagRoot Keccak.keccak256 0 []
  leafCount := 0
  leafCountFits := Contract.zero_fits

/-- The begin task is all that is under way. -/
def beginner : CustodyDriver := { CustodyDriver.new with begin := true }

/-- The begin task has not ended, and the commit it sent is on the chain. -/
def lastVisit : Consultation := ⟨lastWorld, beginner, .escape emptyCommit 17⟩

theorem lastWorld_committed : (15, (⟨0, Contract.zeroHash,
    Contract.MMR.bagRoot Keccak.keccak256 0 [], 0⟩ : Contract.Commitment)) ∈
      commitments 1 [(15, Contract.Event.custodyCommitted 1 0 Contract.zeroHash
        (Contract.MMR.bagRoot Keccak.keccak256 0 []) 0)] :=
  List.mem_singleton.mpr rfl

set_option maxRecDepth 10000 in
theorem escaped_consulted : Consulted Keccak.keccak256 sampleDeployment sampleCustodyParams
    [lastVisit, lateVisit] { beginner with submitting := true } := by
  have hfirst : Consulted Keccak.keccak256 sampleDeployment sampleCustodyParams [lateVisit]
      beginner := by
    refine @Consulted.tick _ _ _ [] _ _ _ _ false nothingFinished _ .new lateWorld_reachable rfl
      rfl ?_ rfl
    intro last hhead
    cases hhead
  refine @Consulted.tick _ _ _ [lateVisit] _ _ _ _ false nothingFinished _ hfirst
    (lateWorld_reachable.steps lastWorld_steps) rfl rfl ?_ rfl
  rintro last hhead
  cases hhead
  exact ⟨lastWorld_steps, ⟨_, rfl, _, lastWorld_committed, by decide⟩⟩

set_option maxRecDepth 10000 in
theorem lastVisit_executed :
    lastVisit.decided.Executed 1 lastVisit.world escapedWorld := by
  have hproven : (16, 0) ∈ proofs 1 [(16, Contract.Event.custodyProven 1 0 true)] :=
    List.mem_singleton.mpr rfl
  exact ⟨_, rfl, _, hproven, by decide⟩

theorem escapedWorld_reachable : Reachable Keccak.keccak256 sampleDeployment escapedWorld :=
  lateWorld_reachable.steps (lastWorld_steps.trans escapedWorld_steps)

theorem escaped_upTo : UpTo Keccak.keccak256 sampleDeployment sampleCustodyParams
    [lastVisit, lateVisit] escapedWorld := by
  refine ⟨escapedWorld_reachable, ?_⟩
  rintro last hhead
  cases hhead
  exact ⟨escapedWorld_steps, Or.inl lastVisit_executed⟩

theorem lateWorld_window : FinalWindow sampleDeployment sampleCustodyParams lateWorld 0 :=
  ⟨show 7 ≤ 15 by decide, show 15 < 17 by decide, show 17 - 15 < 3 by decide⟩

theorem lastWorld_window : FinalWindow sampleDeployment sampleCustodyParams lastWorld 0 :=
  ⟨show 7 ≤ 16 by decide, show 16 < 17 by decide, show 17 - 16 < 3 by decide⟩

/-- Only the first period has ended. -/
theorem ended_first {world : World} (htime : world.env.timestamp = 17)
    (hanchor : (world.state.store.providers 1).anchor = 7) {period : Nat}
    (hended : endOf sampleDeployment (world.state.store.providers 1) period ≤
      world.env.timestamp) : period = 0 := by
  have hlength : sampleDeployment.params.custodyPeriod = 10 := rfl
  rw [endOf, hanchor, htime, hlength] at hended
  omega

set_option maxRecDepth 10000 in
theorem planner_keeps_current_escaped :
    (∃ proof ∈ proofs 1 escapedWorld.state.log, proof.2 = 0 ∧ proof.1 < 17) ∧
      deriveStatus sampleCustodyParams 17 7
        (escapedWorld.state.store.providers 1).lastProvenPlusOne = .ok .current ∧
      ∀ msg, escapedWorld.state.callInstance sampleDeployment nextBlock Keccak.keccak256 msg
        (.lapse 1) = none := by
  have hearlier : lateVisit.Unblocked sampleDeployment sampleCustodyParams escapedWorld 0 :=
    ⟨lateWorld_window, fun hbusy => (nomatch hbusy), fun hbusy => (nomatch hbusy)⟩
  have hlater : lastVisit.Unblocked sampleDeployment sampleCustodyParams escapedWorld 0 :=
    ⟨lastWorld_window, fun _ => ⟨_, lastWorld_committed, rfl⟩, fun hbusy => (nomatch hbusy)⟩
  obtain ⟨hproven, hstatus, hlapse⟩ := planner_keeps_current rfl escaped_consulted escaped_upTo
    fun period hended => by
      rw [ended_first rfl rfl hended]
      exact .twice (List.Sublist.refl _) hearlier hlater
  exact ⟨hproven 0 (show 17 ≤ 17 by decide), hstatus, hlapse⟩

/-- The chain stands still after the escape. -/
def idleWorld (block : Contract.Block) : World := ⟨block, escapedWorld.state, []⟩

def soonBlock : Contract.Block := sampleBlock 25 (by decide)
def finalBlock : Contract.Block := sampleBlock 26 (by decide)
def overBlock : Contract.Block := sampleBlock 27 (by decide)

theorem idleWorld_steps {block next : Contract.Block} (hle : block.timestamp ≤ next.timestamp) :
    (system Keccak.keccak256 sampleDeployment).Steps (idleWorld block) (idleWorld next) :=
  .single (.advances hle)

/-- The last two consultations find the begin task of the first period. -/
def outlastedVisits : List Consultation :=
  [⟨idleWorld finalBlock, beginner, .idle⟩, ⟨idleWorld soonBlock, beginner, .idle⟩, lastVisit,
    lateVisit]

set_option maxRecDepth 10000 in
theorem outlasted_consulted : Consulted Keccak.keccak256 sampleDeployment sampleCustodyParams
    outlastedVisits beginner := by
  have hsoon : (system Keccak.keccak256 sampleDeployment).Steps escapedWorld
      (idleWorld soonBlock) := idleWorld_steps (show 17 ≤ 25 by decide)
  have hfinal : (system Keccak.keccak256 sampleDeployment).Steps (idleWorld soonBlock)
      (idleWorld finalBlock) := idleWorld_steps (show 25 ≤ 26 by decide)
  have hreach := escapedWorld_reachable.steps hsoon
  have hthird : Consulted Keccak.keccak256 sampleDeployment sampleCustodyParams
      (outlastedVisits.drop 1) beginner := by
    refine @Consulted.tick _ _ _ _ _ _ _ _ false { nothingFinished with submitting := true } _
      escaped_consulted hreach rfl rfl ?_ rfl
    rintro last hhead
    cases hhead
    exact ⟨escapedWorld_steps.trans hsoon, lastVisit_executed⟩
  refine @Consulted.tick _ _ _ _ _ _ _ _ false nothingFinished _ hthird (hreach.steps hfinal) rfl
    rfl ?_ rfl
  rintro last hhead
  cases hhead
  exact ⟨hfinal, trivial⟩

/-- Two periods have ended. -/
theorem ended_second {period : Nat}
    (hended : endOf sampleDeployment ((idleWorld overBlock).state.store.providers 1) period ≤
      (idleWorld overBlock).env.timestamp) : period = 0 ∨ period = 1 := by
  have hends : 7 + (period + 1) * 10 ≤ 27 := hended
  omega

set_option maxRecDepth 10000 in
/-- The begin task keeps the second period from being begun. -/
theorem outlasted_starved : Starved Keccak.keccak256 sampleDeployment sampleCustodyParams
    outlastedVisits beginner (idleWorld overBlock) 1 where
  consulted := outlasted_consulted
  upTo := by
    have hlater : (system Keccak.keccak256 sampleDeployment).Steps escapedWorld
        (idleWorld overBlock) := idleWorld_steps (show 17 ≤ 27 by decide)
    refine ⟨escapedWorld_reachable.steps hlater, ?_⟩
    rintro last hhead
    cases hhead
    exact ⟨idleWorld_steps (show 26 ≤ 27 by decide), Or.inl trivial⟩
  twice := by
    intro period hended
    rcases ended_second hended with rfl | rfl
    · exact ⟨lateVisit, lastVisit, List.sublist_append_right [_, _] _, lateWorld_window,
        lastWorld_window⟩
    · refine ⟨_, _, List.sublist_append_left [_, _] _, ?_, ?_⟩
      · exact ⟨show 17 ≤ 25 by decide, show 25 < 27 by decide, show 27 - 25 < 3 by decide⟩
      · exact ⟨show 17 ≤ 26 by decide, show 26 < 27 by decide, show 27 - 26 < 3 by decide⟩
  ended := show 27 ≤ 27 by decide
  unproven := by
    intro proof hmem
    obtain rfl : proof = (16, 0) := List.mem_singleton.mp hmem
    exact Nat.zero_ne_one
  stale := rfl

/-! The second run: the period is committed with one chunk, the prover delivers, and the
submission of its proof is still under way when the period ends. -/

def begunWorld : World :=
  ⟨Contract.stakeBlock, (declaredWorld.state.after Contract.stakeBlock beginAction).1, []⟩

def laterWorld (block : Contract.Block) : World := ⟨block, begunWorld.state, []⟩

set_option maxRecDepth 10000 in
theorem begunWorld_steps :
    (system Keccak.keccak256 sampleDeployment).Steps declaredWorld begunWorld := by
  have hbegin : (system Keccak.keccak256 sampleDeployment).call Contract.stakeBlock beginAction
      declaredWorld.state = some (begunWorld.state, none) := rfl
  exact .single (.returns hbegin)

theorem begunWorld_reachable : Reachable Keccak.keccak256 sampleDeployment begunWorld :=
  Contract.declaredWorld_reachable.steps begunWorld_steps

theorem laterWorld_steps {block next : Contract.Block} (hle : block.timestamp ≤ next.timestamp) :
    (system Keccak.keccak256 sampleDeployment).Steps (laterWorld block) (laterWorld next) :=
  .single (.advances hle)

def begunCommit : Commit where
  period := 0
  seed := Contract.zeroHash
  root := Contract.MMR.bagRoot Keccak.keccak256 1 Contract.zeroDeclaration.newSubtreePeaks
  leafCount := 1
  leafCountFits := Contract.one_fits

def proverBlock : Contract.Block := sampleBlock 8 Contract.eight_fits

/-- The submission is all that is under way. -/
def submitter : CustodyDriver := { CustodyDriver.new with submitting := true }

/-- The newest consultation first: the last three find the submission under way. -/
def lingeringVisits : List Consultation :=
  [⟨laterWorld lastBlock, submitter, .idle⟩, ⟨laterWorld lateBlock, submitter, .idle⟩,
    ⟨laterWorld proverBlock, submitter, .idle⟩, ⟨begunWorld, .new, .prove begunCommit 17⟩,
    ⟨declaredWorld, .new, .begin 17⟩]

set_option maxRecDepth 10000 in
theorem lingering_consulted : Consulted Keccak.keccak256 sampleDeployment sampleCustodyParams
    lingeringVisits submitter := by
  have hfirst : Consulted Keccak.keccak256 sampleDeployment sampleCustodyParams
      [⟨declaredWorld, .new, .begin 17⟩] { CustodyDriver.new with begin := true } := by
    refine @Consulted.tick _ _ _ [] _ _ _ _ true nothingFinished _ .new
      Contract.declaredWorld_reachable rfl rfl ?_ rfl
    intro last hhead
    cases hhead
  have hsecond : Consulted Keccak.keccak256 sampleDeployment sampleCustodyParams
      [⟨begunWorld, .new, .prove begunCommit 17⟩, ⟨declaredWorld, .new, .begin 17⟩]
      { CustodyDriver.new with proving := some 0 } := by
    refine @Consulted.tick _ _ _ _ _ _ _ _ true { nothingFinished with begin := true } _ hfirst
      begunWorld_reachable rfl rfl ?_ rfl
    rintro last hhead
    cases hhead
    refine ⟨begunWorld_steps, ⟨_, rfl, (7, ⟨0, Contract.zeroHash, begunCommit.root, 1⟩), ?_,
      by decide⟩⟩
    exact List.mem_singleton.mpr rfl
  have hstep : (system Keccak.keccak256 sampleDeployment).Steps begunWorld
      (laterWorld proverBlock) :=
    .single (.advances (show 7 ≤ 8 by decide))
  have hreach := begunWorld_reachable.steps hstep
  have hthird : Consulted Keccak.keccak256 sampleDeployment sampleCustodyParams
      (lingeringVisits.drop 2) submitter := by
    refine @Consulted.tick _ _ _ _ _ _ _ _ true { nothingFinished with proving := some .proof } _
      hsecond hreach rfl rfl ?_ rfl
    rintro last hhead
    cases hhead
    exact ⟨hstep, trivial⟩
  have hlate : (system Keccak.keccak256 sampleDeployment).Steps (laterWorld proverBlock)
      (laterWorld lateBlock) := laterWorld_steps (show 8 ≤ 15 by decide)
  have hlast : (system Keccak.keccak256 sampleDeployment).Steps (laterWorld lateBlock)
      (laterWorld lastBlock) := laterWorld_steps (show 15 ≤ 16 by decide)
  have hfourth : Consulted Keccak.keccak256 sampleDeployment sampleCustodyParams
      (lingeringVisits.drop 1) submitter := by
    refine @Consulted.tick _ _ _ _ _ _ _ _ true nothingFinished _ hthird (hreach.steps hlate) rfl
      rfl ?_ rfl
    rintro last hhead
    cases hhead
    exact ⟨hlate, trivial⟩
  refine @Consulted.tick _ _ _ _ _ _ _ _ true nothingFinished _ hfourth
    (hreach.steps (hlate.trans hlast)) rfl rfl ?_ rfl
  rintro last hhead
  cases hhead
  exact ⟨hlast, trivial⟩

set_option maxRecDepth 10000 in
/-- The submission keeps the escape back. -/
theorem lingering_starved : Starved Keccak.keccak256 sampleDeployment sampleCustodyParams
    lingeringVisits submitter (laterWorld nextBlock) 0 where
  consulted := lingering_consulted
  upTo := by
    refine ⟨begunWorld_reachable.steps (.single (.advances (show 7 ≤ 17 by decide))), ?_⟩
    rintro last hhead
    cases hhead
    exact ⟨laterWorld_steps (show 16 ≤ 17 by decide), Or.inl trivial⟩
  twice := by
    intro period hended
    rw [ended_first rfl rfl hended]
    refine ⟨_, _, (List.sublist_append_left [_, _] _), ?_, ?_⟩
    · exact ⟨show 7 ≤ 15 by decide, show 15 < 17 by decide, show 17 - 15 < 3 by decide⟩
    · exact ⟨show 7 ≤ 16 by decide, show 16 < 17 by decide, show 17 - 16 < 3 by decide⟩
  ended := show 17 ≤ 17 by decide
  unproven := by
    intro proof hmem
    cases hmem
  stale := rfl

/-- Either kind of task that is still under way starves a period: both late consultations
are idle, the period ends unproven, and the provider is stale. -/
theorem leftover_tasks_starve :
    Starved Keccak.keccak256 sampleDeployment sampleCustodyParams lingeringVisits submitter
        (laterWorld nextBlock) 0 ∧
      Starved Keccak.keccak256 sampleDeployment sampleCustodyParams outlastedVisits beginner
        (idleWorld overBlock) 1 :=
  ⟨lingering_starved, outlasted_starved⟩

end Blobsitter.Daemon
