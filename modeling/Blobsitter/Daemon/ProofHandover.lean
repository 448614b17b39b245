import Blobsitter.Daemon.ClosedLoop
import Blobsitter.Daemon.PlanGuards

/-!
# Handing over a proof

A proving task keeps the commit that it was spawned for, and the driver keeps no more of
it than the period.  When the proof is there, the driver compares its period with that of
the stored commit.  This is enough: a period has one commit.
-/

namespace Blobsitter.Daemon

open Library
open Reference (Hash)
open Circuit (custody)
open Contract (World Reachable Commitment system unprovenSystem commitments commitments_append)

inductive ProverError where
  | unavailable
  | failed (detail : String)

/-- Why a proving task ends without a proof. -/
inductive ProvingError where
  | witness (fault : ProofFault)
  | prover (e : ProverError)
  | exceededBudget

section

variable (keccak256 : ByteString → Hash) (params : CustodyParams)
variable (prove : CustodyWitness → Option (Except ProverError ByteString))

/-- What `spawn_prove` runs: the witness of the commit is cut from the store as the task
finds it, and proved.  A prover that hangs past its budget counts as failing. -/
def provingTask (commit : Commit) (reader : Reader) : Except ProvingError ByteString := do
  let witness ← (buildWitness keccak256 params commit reader).mapError .witness
  match prove witness with
  | some result => result.mapError .prover
  | none => .error .exceededBudget

end

/-- What the last task that was spawned has been spawned for. -/
def Plan.captured (before : Option Commit) : Plan → Option Commit
  | .prove commit _ => some commit
  | _ => before

/-- The driver along a run of the contract in which no proven period is committed again:
where the last tick has left the chain, the tasks, and the last commit to be proved. -/
inductive Driven (keccak256 : ByteString → Hash) (dep : Contract.Deployment)
    (params : CustodyParams) : World → CustodyDriver → Option Commit → Prop where
  | new {start : Contract.Block} {world : World} (hidle : world.stack = [])
      (hsteps : (unprovenSystem keccak256 dep).Steps ⟨start, .deployed dep start, []⟩ world) :
      Driven keccak256 dep params world .new none
  | tick {before world : World} {driver reaped next : CustodyDriver} {captured : Option Commit}
      {available : Bool} {finished : Finished} {decided : Plan}
      (hrun : Driven keccak256 dep params before driver captured)
      (hsteps : (unprovenSystem keccak256 dep).Steps before world) (hidle : world.stack = [])
      (hdrive : driver.drive params world.env.timestamp
        (.ofProvider (world.state.store.providers params.providerId)) available finished =
          .ok (reaped, decided, next)) :
      Driven keccak256 dep params world next (decided.captured captured)

section

variable {driver : CustodyDriver} {view : ProviderView} {finished : Finished} {period : Nat}

/-- Reaping starts a submission only of a finished proof, and of the stored commit's period. -/
theorem reap_starts (hfree : (driver.submitting && !finished.submitting) = false)
    (hstarted : (driver.reap view finished).submitting = true) :
    ∃ period, driver.proving = some period ∧ finished.proving = some .proof ∧
      ∃ commit, view.commit = some commit ∧ commit.period = period := by
  unfold CustodyDriver.reap at hstarted
  simp only at hstarted
  cases hproving : driver.proving with
  | none =>
      rw [hproving] at hstarted
      exact absurd (hfree.symm.trans hstarted) Bool.false_ne_true
  | some period =>
      rw [hproving] at hstarted
      cases hfinished : finished.proving with
      | none =>
          rw [hfinished] at hstarted
          exact absurd (hfree.symm.trans hstarted) Bool.false_ne_true
      | some result =>
          rw [hfinished] at hstarted
          cases result with
          | failed => exact absurd (hfree.symm.trans hstarted) Bool.false_ne_true
          | proof =>
              simp only [CustodyDriver.reapProof] at hstarted
              split_ifs at hstarted with hready
              · exact ⟨period, rfl, rfl, Option.map_eq_some_iff.mp hready.1⟩
              · exact absurd (hfree.symm.trans hstarted) Bool.false_ne_true

/-- Reaping starts no proving task. -/
theorem reap_proving (hproving : (driver.reap view finished).proving = some period) :
    driver.proving = some period := by
  unfold CustodyDriver.reap at hproving
  simp only at hproving
  cases hheld : driver.proving with
  | none =>
      rw [hheld] at hproving
      cases hproving
  | some held =>
      cases hfinished : finished.proving with
      | none => rwa [hheld, hfinished] at hproving
      | some result =>
          rw [hheld, hfinished] at hproving
          cases result with
          | failed => cases hproving
          | proof =>
              simp only [CustodyDriver.reapProof] at hproving
              split_ifs at hproving

/-- Nothing is planned next to a submission. -/
theorem plan_idle_of_submitting {params : CustodyParams} {now : Nat} {inFlight : InFlight}
    {available failed : Bool} {decided : Plan} (hbusy : inFlight.submitting = true)
    (hplan : plan params now view inFlight available failed = .ok decided) : decided = .idle := by
  unfold plan at hplan
  split at hplan
  · exact (Except.ok.inj hplan).symm
  · obtain ⟨current, _, hplan⟩ := bind_eq_ok.mp hplan
    have hbegins : (inFlight.begin = true ∨ inFlight.submitting = true ∨
        view.lastProvenPlusOne > current) := Or.inr (Or.inl hbusy)
    simp only [if_pos hbegins] at hplan
    split at hplan
    · split at hplan
      · exact (pure_eq_ok.mp hplan).symm
      · exact (pure_eq_ok.mp hplan).symm
    · exact (pure_eq_ok.mp hplan).symm

end

def Commit.commitment (commit : Commit) : Commitment :=
  ⟨commit.period, commit.seed, commit.root, commit.leafCount⟩

theorem Commit.commitment_inj {first second : Commit}
    (hsame : first.commitment = second.commitment) : first = second := by
  obtain ⟨hperiod, hseed, hroot, hleafCount⟩ := Commitment.mk.inj hsame
  cases first
  cases second
  cases hperiod
  cases hseed
  cases hroot
  cases hleafCount
  rfl

section

variable {keccak256 : ByteString → Hash} {dep : Contract.Deployment} {start : Contract.Block}
variable {world : World} {id : Nat}

/-- What the planner sees as the commit is the commit of the record. -/
theorem ofProvider_commitment {record : Contract.Provider} {commit : Commit}
    (hview : (ProviderView.ofProvider record).commit = some commit)
    (hfits : record.commitLeafCount < 2 ^ 64) : record.commitment = commit.commitment := by
  obtain ⟨hperiod, hseed, hroot, hleafCount⟩ := ofProvider_commit hview
  rw [Nat.mod_eq_of_lt hfits] at hleafCount
  unfold Contract.Provider.commitment Commit.commitment
  rw [hperiod, hseed, hroot, hleafCount]
  rfl

/-- The stored commit is in the log. -/
theorem stored_recorded
    (hsteps : (unprovenSystem keccak256 dep).Steps ⟨start, .deployed dep start, []⟩ world)
    {commit : Commit}
    (hview : (ProviderView.ofProvider (world.state.store.providers id)).commit = some commit) :
    ∃ time, (time, commit.commitment) ∈ commitments id world.state.log := by
  have hstored : (world.state.store.providers id).commitPeriodPlusOne ≠ 0 := by
    rw [(ofProvider_commit hview).1]
    exact Nat.succ_ne_zero _
  have hreach : Reachable keccak256 dep world := ⟨start, hsteps.of_restrict⟩
  rw [← ofProvider_commitment hview (hreach.commitLeafCount_lt id hstored)]
  exact ((Contract.commitBooks_of_steps hsteps).commits id).stored hstored

/-- What the log has it keeps. -/
theorem commitment_kept {later : World} (hreach : Reachable keccak256 dep world)
    (hidle : world.stack = []) (hsteps : (system keccak256 dep).Steps world later)
    {commit : Nat × Commitment} (hmem : commit ∈ commitments id world.state.log) :
    commit ∈ commitments id later.state.log := by
  obtain ⟨more, hmore⟩ := Contract.log_extends hreach hidle hsteps
  rw [← hmore, commitments_append]
  exact List.mem_append_left _ hmem

/-- The log has one commit for each period. -/
theorem commitment_unique
    (hsteps : (unprovenSystem keccak256 dep).Steps ⟨start, .deployed dep start, []⟩ world)
    {first second : Nat × Commitment} (hfirst : first ∈ commitments id world.state.log)
    (hsecond : second ∈ commitments id world.state.log)
    (hperiod : first.2.period = second.2.period) : first = second := by
  have hincreasing := ((Contract.commitBooks_of_steps hsteps).commits id).increasing
  have hdistinct : ((commitments id world.state.log).map fun commit => commit.2.period).Nodup :=
    List.pairwise_map.mpr (hincreasing.imp Nat.ne_of_lt)
  exact List.inj_on_of_nodup_map hdistinct hfirst hsecond hperiod

end

section

variable {keccak256 : ByteString → Hash} {dep : Contract.Deployment} {params : CustodyParams}
variable {world : World} {driver : CustodyDriver} {captured : Option Commit}

theorem captured_of_spawn {reaped : CustodyDriver} {decided : Plan} {before : Option Commit}
    {period : Nat} (hproving : (reaped.spawn decided).proving = some period) :
    (∃ commit deadline, decided = .prove commit deadline ∧ commit.period = period) ∨
      reaped.proving = some period ∧ decided.captured before = before := by
  cases decided with
  | prove commit deadline => exact Or.inl ⟨commit, deadline, rfl, Option.some.inj hproving⟩
  | idle => exact Or.inr ⟨hproving, rfl⟩
  | begin deadline => exact Or.inr ⟨hproving, rfl⟩
  | escape commit deadline => exact Or.inr ⟨hproving, rfl⟩

/-- Along a run, the task proves a commit of its period that the log has. -/
theorem Driven.captured_recorded (hrun : Driven keccak256 dep params world driver captured) :
    ∃ start, (unprovenSystem keccak256 dep).Steps ⟨start, .deployed dep start, []⟩ world ∧
      world.stack = [] ∧
      ∀ period, driver.proving = some period → ∃ commit, captured = some commit ∧
        commit.period = period ∧
        ∃ time, (time, commit.commitment) ∈ commitments params.providerId world.state.log := by
  induction hrun with
  | @new start world hidle hsteps =>
      refine ⟨start, hsteps, hidle, ?_⟩
      intro period hproving
      cases hproving
  | @tick before world driver reaped next captured available finished decided hrun hsteps hidle
      hdrive ih =>
      obtain ⟨start, hbefore, hidleBefore, htask⟩ := ih
      obtain ⟨rfl, rfl, hplan⟩ := drive_eq_ok hdrive
      refine ⟨start, hbefore.trans hsteps, hidle, ?_⟩
      intro period hproving
      rcases @captured_of_spawn _ _ captured _ hproving with
        ⟨commit, deadline, rfl, hperiod⟩ | ⟨hkept, hcaptured⟩
      · obtain ⟨_, _, hstored, _⟩ := plan_submits (Or.inl hplan)
        exact ⟨commit, rfl, hperiod, stored_recorded (hbefore.trans hsteps) hstored⟩
      · obtain ⟨commit, hcommit, hperiod, time, hmem⟩ := htask period (reap_proving hkept)
        rw [hcaptured]
        exact ⟨commit, hcommit, hperiod, time,
          commitment_kept ⟨start, hbefore.of_restrict⟩ hidleBefore hsteps.of_restrict hmem⟩

end

/-- The prover of the custody program: what it returns verifies for the values that the
guest has committed. -/
def Proves (keccak256 : ByteString → Hash) (verifyProof : Hash → ByteString → ByteString → Bool)
    (prove : CustodyWitness → Option (Except ProverError ByteString)) : Prop :=
  ∀ witness proof, prove witness = some (.ok proof) →
    ∃ values, custody keccak256 witness.toCircuitInput = .ok values ∧
      verifyProof Contract.custodyVkey values proof = true

section

variable {keccak256 : ByteString → Hash} {dep : Contract.Deployment} {params : CustodyParams}
variable {verifyProof : Hash → ByteString → ByteString → Bool}
variable {prove : CustodyWitness → Option (Except ProverError ByteString)}

/-- The proof of a task verifies for the commit of the task, whatever the store held. -/
theorem provingTask_verifies (hproves : Proves keccak256 verifyProof prove)
    (hparams : params.Matches dep params.providerId) {commit : Commit} {reader : Reader}
    {proof : ByteString} (htask : provingTask keccak256 params prove commit reader = .ok proof) :
    verifyProof Contract.custodyVkey (Contract.encodeCustodyPublicValues dep params.providerId
      commit.seed commit.root commit.leafCount dep.params.custodyK) proof = true := by
  obtain ⟨witness, hwitness, hproved⟩ := bind_eq_ok.mp htask
  have hreturned : prove witness = some (.ok proof) := by
    cases hresult : prove witness with
    | none =>
        rw [hresult] at hproved
        cases hproved
    | some result =>
        rw [hresult] at hproved
        rw [mapError_eq_ok.mp hproved]
  obtain ⟨values, hcustody, hverifies⟩ := hproves witness proof hreturned
  obtain ⟨_, _, hbuild⟩ := bind_eq_ok.mp (mapError_eq_ok.mp hwitness)
  obtain ⟨_, _, hpure⟩ := bind_eq_ok.mp hbuild
  obtain rfl := pure_eq_ok.mp hpure
  obtain ⟨_, _, _, _, rfl⟩ := Circuit.custody_eq_ok.mp hcustody
  rw [← hparams.custodyK]
  unfold Contract.encodeCustodyPublicValues
  rw [← hparams.instanceAddress]
  exact hverifies

/-- The contract takes a proof that verifies for its stored commit, in the period of it. -/
theorem submitProof_passes {block : Contract.Block} {msg : Contract.Msg} {s : Contract.Storage}
    {id period : Nat} {proof : ByteString} (hactive : (s.providers id).status = .active)
    (hsender : msg.sender = (s.providers id).operator)
    (hin : InPeriod dep block (s.providers id) period) (hfits : period + 1 < 2 ^ 64)
    (hcommitted : (s.providers id).commitPeriodPlusOne = period + 1)
    (hverifies : msg.verifyProof Contract.custodyVkey
      (expectedPublicValues dep id (s.providers id)) proof = true) :
    ∃ out, Contract.submitProof dep block msg s id proof = .ok out ∧
      (out.storage.providers id).lastProvenPlusOne = period + 1 := by
  have hassigned : (s.providers id).status ≠ .none := by
    rw [hactive]
    decide
  have hvalid : ¬msg.verifyProof Contract.custodyVkey
      (expectedPublicValues dep id (s.providers id)) proof = false := by
    rw [hverifies]
    exact Bool.noConfusion
  have hruns : Contract.submitProof dep block msg s id proof =
      Contract.acceptProof s (s.providers id) id period false := by
    unfold Contract.submitProof
    rw [Contract.provider_eq_ok.mpr ⟨hassigned, rfl⟩, ok_bind,
      submitGuards_passes hactive hsender hin hcommitted, ok_bind]
    unfold expectedPublicValues at hvalid
    simp only [Contract.revertIf_ok hvalid, ok_bind]
  rw [Contract.acceptProof, Contract.checkedAdd_ok hfits] at hruns
  refine ⟨_, hruns, ?_⟩
  simp [Contract.Outcome.plain]

/-- A period with a time in it has a length. -/
theorem length_positive {anchor period length time : Nat} (hbegun : anchor + period * length ≤ time)
    (hended : time < anchor + (period + 1) * length) : 0 < length := by
  by_contra hzero
  rw [Nat.eq_zero_of_not_pos hzero] at hbegun hended
  omega

/-- A commit that the log has, seen at a later world: until the end of its period the
provider has left, the period is proven, or the commit is the stored one. -/
theorem committed_until_end {later : World} {id : Nat} {start : Contract.Block}
    (hsteps : (unprovenSystem keccak256 dep).Steps ⟨start, .deployed dep start, []⟩ later)
    {time : Nat} {commit : Commit}
    (hmem : (time, commit.commitment) ∈ commitments id later.state.log)
    (hruns : later.env.timestamp < endOf dep (later.state.store.providers id) commit.period) :
    (later.state.store.providers id).status ≠ .active ∨
      (later.state.store.providers id).lastProvenPlusOne = commit.period + 1 ∨
      (later.state.store.providers id).status = .active ∧
        InPeriod dep later.env (later.state.store.providers id) commit.period ∧
        (later.state.store.providers id).commitPeriodPlusOne = commit.period + 1 ∧
        (later.state.store.providers id).commitment = commit.commitment := by
  have hreach : Reachable keccak256 dep later := ⟨start, hsteps.of_restrict⟩
  by_cases hactive : (later.state.store.providers id).status = .active
  · have hpending := hreach.pending id
    rcases hpending.running hactive _ hmem hruns with hstored | hproven
    · obtain ⟨hbegun, hended, hmade⟩ := hpending.within _ hmem
      have hsome : (later.state.store.providers id).commitPeriodPlusOne ≠ 0 := by
        rw [hstored]
        exact Nat.succ_ne_zero _
      obtain ⟨storedTime, hrecorded⟩ := ((Contract.commitBooks_of_steps hsteps).commits id).stored hsome
      have hsame := commitment_unique hsteps hrecorded hmem
        (Contract.Provider.commitment_period hstored)
      exact Or.inr (Or.inr ⟨hactive,
        ⟨length_positive hbegun hended, hbegun.trans hmade, hruns⟩, hstored,
        (Prod.mk.inj hsame).2⟩)
    · exact Or.inr (Or.inl hproven)
  · exact Or.inl hactive

/-- No proof goes to waste.  Whenever reaping starts a submission, its proof was made for the
very commit that the contract stores, and nothing else is planned in that tick.  From then on
and up to the deadline of the submission, the provider has left, its period is proven, or the
contract takes the proof from the operator. -/
theorem handed_proof_lands (hproves : Proves keccak256 verifyProof prove)
    (hparams : params.Matches dep params.providerId)
    (hlength : params.custodyPeriod = dep.params.custodyPeriod) {before world : World}
    {driver reaped next : CustodyDriver} {captured : Option Commit}
    (hrun : Driven keccak256 dep params before driver captured)
    (hsteps : (unprovenSystem keccak256 dep).Steps before world) (hidle : world.stack = [])
    {view : ProviderView}
    (hview : view = .ofProvider (world.state.store.providers params.providerId))
    {available : Bool} {finished : Finished} {decided : Plan}
    (hdrive : driver.drive params world.env.timestamp view available finished =
      .ok (reaped, decided, next))
    (hfree : (driver.submitting && !finished.submitting) = false)
    (hstarted : reaped.submitting = true)
    (hfits : ∀ period, driver.proving = some period →
      endOf dep (world.state.store.providers params.providerId) period < 2 ^ 64)
    {proof : ByteString} (hproof : finished.proving = some .proof →
      ∀ commit, captured = some commit →
        ∃ reader, provingTask keccak256 params prove commit reader = .ok proof) :
    decided = .idle ∧ finished.proving = some .proof ∧
    ∃ commit, captured = some commit ∧ view.commit = some commit ∧
      driver.proving = some commit.period ∧
      ∀ later, (unprovenSystem keccak256 dep).Steps world later →
        later.env.timestamp < periodEnd params view.anchor commit.period →
        (later.state.store.providers params.providerId).status ≠ .active ∨
          (later.state.store.providers params.providerId).lastProvenPlusOne = commit.period + 1 ∨
          ∀ msg, msg.sender = (later.state.store.providers params.providerId).operator →
            msg.verifyProof = verifyProof →
            ∃ out, Contract.submitProof dep later.env msg later.state.store params.providerId
                proof = .ok out ∧
              (out.storage.providers params.providerId).lastProvenPlusOne = commit.period + 1 := by
  obtain ⟨rfl, rfl, hplan⟩ := drive_eq_ok hdrive
  obtain ⟨period, hproving, hfinished, stored, hstored, rfl⟩ := reap_starts hfree hstarted
  obtain ⟨start, hbefore, hidleBefore, htask⟩ := hrun.captured_recorded
  obtain ⟨commit, hcaptured, hperiod, time, hmem⟩ := htask stored.period hproving
  have hworld : (unprovenSystem keccak256 dep).Steps ⟨start, .deployed dep start, []⟩ world :=
    hbefore.trans hsteps
  -- the commit of the task and the stored one are both the period's entry in the log
  have hcurrent := commitment_kept ⟨start, hbefore.of_restrict⟩ hidleBefore hsteps.of_restrict hmem
  obtain rfl : stored = commit := by
    rw [hview] at hstored
    obtain ⟨storedTime, hrecorded⟩ := stored_recorded hworld hstored
    have hsame := commitment_unique hworld hrecorded hcurrent hperiod.symm
    exact Commit.commitment_inj (Prod.mk.inj hsame).2
  refine ⟨plan_idle_of_submitting hstarted hplan, hfinished, stored, hcaptured, hstored, hproving, ?_⟩
  intro later hlater hruns
  have hreach : Reachable keccak256 dep world := ⟨start, hworld.of_restrict⟩
  have hassigned : (world.state.store.providers params.providerId).status ≠ .none := by
    intro hnone
    have hempty := (hreach.pending params.providerId).unstaked hnone
    rw [hempty] at hcurrent
    cases hcurrent
  have hanchor := Contract.anchor_kept hreach hidle hlater.of_restrict hassigned
  have hperiods : stored.period + 1 < 2 ^ 64 := by
    obtain ⟨hbegun, hended, _⟩ := (hreach.pending params.providerId).within _ hcurrent
    have hlong := Nat.le_mul_of_pos_right (stored.period + 1) (length_positive hbegun hended)
    exact (hlong.trans (Nat.le_add_left _ _)).trans_lt (hfits _ hproving)
  rw [hview, periodEnd_eq (by rw [hlength]; exact hfits _ hproving) hperiods, hlength] at hruns
  have hsince := commitment_kept hreach hidle hlater.of_restrict hcurrent
  have hends : later.env.timestamp <
      endOf dep (later.state.store.providers params.providerId) stored.period := by
    rw [endOf, hanchor]
    exact hruns
  rcases committed_until_end (hworld.trans hlater) hsince hends with
    hgone | hproven | ⟨hactive, hin, hcommitted, hsame⟩
  · exact Or.inl hgone
  · exact Or.inr (Or.inl hproven)
  · refine Or.inr (Or.inr fun msg hsender hverifier => ?_)
    obtain ⟨reader, hreader⟩ := hproof hfinished stored hcaptured
    refine submitProof_passes hactive hsender hin hperiods hcommitted ?_
    obtain ⟨_, hseed, hroot, hleafCount⟩ := Commitment.mk.inj hsame
    have hbytes : expectedPublicValues dep params.providerId
        (later.state.store.providers params.providerId) =
        Contract.encodeCustodyPublicValues dep params.providerId stored.seed stored.root
          stored.leafCount dep.params.custodyK := by
      unfold expectedPublicValues
      rw [hseed, hroot, hleafCount]
    rw [hverifier, hbytes]
    exact provingTask_verifies hproves hparams hreader

end

/-! ## One proof

The first period is committed with one chunk, the prover delivers, and the proof is handed
over with the better part of the period to go. -/

open Contract (stakedWorld declaredWorld sampleDeployment sampleMsg sampleOperator beginAction)

/-- A prover that runs the guest; its proofs are empty. -/
def guestProver (witness : CustodyWitness) : Option (Except ProverError ByteString) :=
  match custody Keccak.keccak256 witness.toCircuitInput with
  | .ok _ => some (.ok [])
  | .error fault => some (.error (.failed fault.message))

/-- Its verifier. -/
def guestVerifier (vkey : Hash) (_values proof : ByteString) : Bool :=
  vkey = Contract.custodyVkey ∧ proof = []

theorem guestProver_proves : Proves Keccak.keccak256 guestVerifier guestProver := by
  intro witness proof hproved
  unfold guestProver at hproved
  split at hproved
  · rename_i values hcustody
    cases hproved
    exact ⟨values, hcustody, decide_eq_true ⟨rfl, rfl⟩⟩
  · cases hproved

/-- The chunk of the declared dataset. -/
def oneChunk : List Reference.Chunk := [Contract.zeroStream 0]

theorem begunCommit_proved : provingTask Keccak.keccak256 sampleCustodyParams guestProver begunCommit
    ((sampleStore oneChunk).reader (sampleDisk oneChunk)) = .ok [] := by
  have hroot : begunCommit.root = Contract.MMR.bagRoot Keccak.keccak256 begunCommit.leafCount
      (Contract.firstPeaks Keccak.keccak256 (streamOf oneChunk) begunCommit.leafCount) := rfl
  obtain ⟨witness, hbuild, hhonest⟩ := buildWitness_honest (sampleStore_holds oneChunk)
    sampleCustodyParams_matches Nat.one_pos (Nat.le_refl 1) hroot
  have hcustody := hhonest.custody_eq Nat.one_pos hroot
  refine bind_eq_ok.mpr ⟨witness, mapError_eq_ok.mpr hbuild, ?_⟩
  unfold guestProver
  rw [hcustody]
  rfl

set_option maxRecDepth 10000 in
theorem begunWorld_driven : Driven Keccak.keccak256 sampleDeployment sampleCustodyParams begunWorld
    { CustodyDriver.new with proving := some 0 } (some begunCommit) := by
  have hstake : (unprovenSystem Keccak.keccak256 sampleDeployment).call Contract.stakeBlock
      Contract.stakeAction (.deployed sampleDeployment Contract.stakeBlock) =
        some (stakedWorld.state, none) := rfl
  have hdeclare : (unprovenSystem Keccak.keccak256 sampleDeployment).call Contract.stakeBlock
      Contract.declareAction stakedWorld.state = some (declaredWorld.state, none) := rfl
  have hbegin : (unprovenSystem Keccak.keccak256 sampleDeployment).call Contract.stakeBlock
      beginAction declaredWorld.state = some (begunWorld.state, none) := rfl
  have hnew : Driven Keccak.keccak256 sampleDeployment sampleCustodyParams declaredWorld .new none :=
    .new rfl (.tail (.single (.returns hstake)) (.returns hdeclare))
  have hopened : Driven Keccak.keccak256 sampleDeployment sampleCustodyParams declaredWorld
      { CustodyDriver.new with begin := true } none :=
    @Driven.tick _ _ _ _ _ _ _ _ _ true nothingFinished (.begin 17) hnew .refl rfl rfl
  exact @Driven.tick _ _ _ _ _ _ _ _ _ true { nothingFinished with begin := true }
    (.prove begunCommit 17) hopened (.single (.returns hbegin)) rfl rfl

def operatorMsg : Contract.Msg := { sampleMsg sampleOperator 0 with verifyProof := guestVerifier }

set_option maxRecDepth 10000 in
theorem handed_proof_lands_late : ∃ out, Contract.submitProof sampleDeployment lateBlock operatorMsg
    begunWorld.state.store 1 [] = .ok out ∧ (out.storage.providers 1).lastProvenPlusOne = 1 := by
  have hdrive : ({ CustodyDriver.new with proving := some 0 } : CustodyDriver).drive
      sampleCustodyParams 8 (.ofProvider (begunWorld.state.store.providers 1)) true
      { nothingFinished with proving := some .proof } = .ok (submitter, .idle, submitter) := rfl
  have hfits : ∀ period, some 0 = some period →
      endOf sampleDeployment (begunWorld.state.store.providers 1) period < 2 ^ 64 := by
    intro period hzero
    cases hzero
    decide
  obtain ⟨_, _, commit, hcaptured, _, _, hlands⟩ := @handed_proof_lands _ _ _ _ _ guestProver_proves
    sampleCustodyParams_matches rfl _ (laterWorld proverBlock) _ _ _ _ begunWorld_driven
    (.single (.advances (show 7 ≤ 8 by decide))) rfl _ rfl _ _ _ hdrive rfl rfl hfits []
    fun _ commit hcaptured => by
      cases hcaptured
      exact ⟨_, begunCommit_proved⟩
  cases hcaptured
  rcases hlands (laterWorld lateBlock) (.single (.advances (show 8 ≤ 15 by decide)))
      (show 15 < 17 by decide) with hgone | hproven | haccepted
  · exact absurd rfl hgone
  · cases hproven
  · exact haccepted operatorMsg rfl rfl

end Blobsitter.Daemon
