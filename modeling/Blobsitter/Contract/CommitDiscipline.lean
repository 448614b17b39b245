import Blobsitter.Contract.Lapse

/-!
# Commit discipline

The commits of a provider are read off the log.  `beginProof` refuses a second commit
while the first is stored, and an accepted proof clears it: as long as no period is
committed that is already proven, each has at most one commit, and that one is stored.
-/

namespace Blobsitter.Contract

open Library
open Reference (Chunk Hash Address)

/-- What a custody period is proven against. -/
structure Commitment where
  period : Nat
  seed : Hash
  root : Hash
  leafCount : Nat

/-- The commit an event makes for the provider. -/
def Event.commitment (id : Nat) : Event → Option Commitment
  | .custodyCommitted providerId period seed root leafCount =>
      if providerId = id then some ⟨period, seed, root, leafCount⟩ else none
  | _ => none

/-- Times and contents of the accepted commits of a provider, oldest first. -/
def commitments (id : Nat) (log : List (Nat × Event)) : List (Nat × Commitment) :=
  recorded (Event.commitment id) log

/-- The stored commit, where there is one. -/
def Provider.commitment (p : Provider) : Commitment :=
  ⟨p.commitPeriodPlusOne - 1, p.commitSeed, p.commitRoot, p.commitLeafCount⟩

theorem Provider.commitment_period {p : Provider} {period : Nat}
    (hstored : p.commitPeriodPlusOne = period + 1) : p.commitment.period = period := by
  unfold Provider.commitment
  rw [hstored]
  exact Nat.add_sub_cancel period 1

/-- The commits of one period. -/
def commitsOf (id period : Nat) (log : List (Nat × Event)) : List (Nat × Commitment) :=
  (commitments id log).filter fun commit => commit.2.period = period

theorem commitments_append (id : Nat) (log extra : List (Nat × Event)) :
    commitments id (log ++ extra) = commitments id log ++ commitments id extra :=
  List.filterMap_append

theorem Event.commitment_of_isTransfer (id : Nat) {event : Event}
    (hevent : event.isTransfer = true) : event.commitment id = none := by
  cases event <;> first | rfl | cases hevent

theorem commitments_append_transfers (id : Nat) (log : List (Nat × Event))
    {extra : List (Nat × Event)} (htransfer : ∀ entry ∈ extra, entry.2.isTransfer = true) :
    commitments id (log ++ extra) = commitments id log :=
  recorded_append_transfers (Event.commitment id) (fun _ => Event.commitment_of_isTransfer id)
    log htransfer

/-- The call commits the provider to its current period. -/
def Call.begins (id : Nat) : Call → Bool
  | .beginProof providerId => providerId = id
  | _ => false

/-- A commit is made for a period that is not proven yet. -/
def Call.unprovenPeriod (dep : Deployment) (block : Block) (s : Storage) : Call → Bool
  | .beginProof id => (s.providers id).lastProvenPlusOne ≠
      (block.timestamp - (s.providers id).anchor) / dep.params.custodyPeriod + 1
  | _ => true

section

variable {keccak256 : ByteString → Hash} {dep : Deployment} {block : Block} {msg : Msg}
variable {s : Storage}

/-- Commit fields of one provider before and after an accepted call, with the commits
the call makes. -/
inductive CommitStep (dep : Deployment) (block : Block) (id : Nat) (call : Call)
    (p next : Provider) : List Commitment → Prop where
  | kept (hstatus : next.status = .active → p.status = .active)
      (hassigned : next.status = .none → p.status = .none) (hanchor : next.anchor = p.anchor)
      (hproven : next.lastProvenPlusOne = p.lastProvenPlusOne)
      (hstored : next.commitPeriodPlusOne = p.commitPeriodPlusOne)
      (hcommit : next.commitment = p.commitment) : CommitStep dep block id call p next []
  | voided (hstatus : next.status = .unbonding) (hanchor : next.anchor = p.anchor)
      (hproven : next.lastProvenPlusOne = p.lastProvenPlusOne)
      (hvoid : next.commitPeriodPlusOne = 0) : CommitStep dep block id call p next []
  | staked (hbefore : p = .empty) (hproven : next.lastProvenPlusOne = 0)
      (hvoid : next.commitPeriodPlusOne = 0) : CommitStep dep block id call p next []
  | committed {period : Nat} (hcall : call = .beginProof id) (hstatus : next.status = .active)
      (hactive : p.status = .active) (hanchor : next.anchor = p.anchor)
      (hproven : next.lastProvenPlusOne = p.lastProvenPlusOne)
      (hpositive : 0 < dep.params.custodyPeriod)
      (hperiod : period = (block.timestamp - p.anchor) / dep.params.custodyPeriod)
      (hfresh : p.commitPeriodPlusOne ≠ period + 1)
      (hstored : next.commitPeriodPlusOne = period + 1) :
      CommitStep dep block id call p next [next.commitment]
  | proven {period : Nat} (hstatus : next.status = .active) (hactive : p.status = .active)
      (hanchor : next.anchor = p.anchor) (hpositive : 0 < dep.params.custodyPeriod)
      (hperiod : period = (block.timestamp - p.anchor) / dep.params.custodyPeriod)
      (hstored : p.commitPeriodPlusOne = period + 1) (hvoid : next.commitPeriodPlusOne = 0)
      (hproven : next.lastProvenPlusOne = period + 1) : CommitStep dep block id call p next []

theorem CommitStep.same {id : Nat} {call : Call} {p : Provider} :
    CommitStep dep block id call p p [] := .kept (fun h => h) (fun h => h) rfl rfl rfl rfl

theorem CommitStep.update {providers : Nat → Provider} {id : Nat} {call : Call} {next : Provider}
    {events : List Event}
    (hstep : CommitStep dep block id call (providers id) next
      (events.filterMap (Event.commitment id)))
    (hothers : ∀ other, other ≠ id → events.filterMap (Event.commitment other) = [])
    (other : Nat) :
    CommitStep dep block other call (providers other) (Function.update providers id next other)
      (events.filterMap (Event.commitment other)) := by
  by_cases heq : other = id
  · subst heq
    rw [Function.update_self]
    exact hstep
  · rw [Function.update_of_ne heq, hothers other heq]
    exact .same

/-- A slashed or exited provider keeps its record. -/
theorem CommitStep.of_status {id : Nat} {call : Call} {p : Provider} {status : ProviderStatus}
    (hgone : status ≠ .active) (hassigned : status ≠ .none) :
    CommitStep dep block id call p { p with status := status } [] :=
  .kept (fun hactive => absurd hactive hgone) (fun hnone => absurd hnone hassigned) rfl rfl rfl rfl

theorem Change.commitStep {call : Call} {out : Outcome}
    (hchange : Change keccak256 dep block msg s call out) (hwf : s.WellFormed) (id : Nat) :
    CommitStep dep block id call (s.providers id) (out.storage.providers id)
      (out.events.filterMap (Event.commitment id)) := by
  cases hchange with
  | declared _ haccepted hsame =>
      obtain ⟨_, _, _, _, _, _, _, _, hevents⟩ := haccepted.subtreeCount
      rw [hsame.providers, hevents]
      exact .same
  | pointed _ haccepted =>
      rw [haccepted.same.providers]
      rcases haccepted.events with ⟨_, _, hevents⟩ | ⟨_, hevents⟩
      · rw [hevents]
        exact .same
      · rw [hevents]
        exact .same
  | noted _ hevent =>
      rcases hevent with ⟨url, _, rfl⟩ | ⟨_, rfl⟩
      · exact .same
      · exact .same
  | claimed => exact .same
  | staked =>
      refine CommitStep.update ?_ (fun _ _ => rfl) id
      have hempty := hwf.unassigned _ le_rfl
      refine .staked hempty ?_ ?_
      · rw [hempty]
        rfl
      · rw [hempty]
        rfl
  | unbonded =>
      refine CommitStep.update ?_ (fun _ _ => rfl) id
      exact .voided rfl rfl rfl rfl
  | withdrawn =>
      refine CommitStep.update ?_ (fun _ _ => rfl) id
      exact .of_status (by decide) (by decide)
  | @committed owner period _ _ hstatus hperiod hfresh =>
      obtain ⟨_, hpositive, heq⟩ := custodyPeriodIndex_eq_ok hperiod
      refine CommitStep.update ?_ ?_ id
      · simp only [Outcome.plain, Event.commitment, List.filterMap_cons, if_pos,
          List.filterMap_nil]
        refine .committed rfl hstatus hstatus rfl rfl hpositive heq ?_ rfl
        intro hcommitted
        refine hfresh ?_ ?_
        · rw [hcommitted]
          exact Nat.succ_ne_zero period
        · rw [hcommitted]
          exact Nat.add_sub_cancel period 1
      · intro other hne
        simp [Outcome.plain, Event.commitment, hne.symm]
  | proven _ _ _ hstatus hcommit hperiod =>
      obtain ⟨_, hpositive, heq⟩ := custodyPeriodIndex_eq_ok hperiod
      refine CommitStep.update ?_ (fun _ _ => rfl) id
      exact .proven hstatus hstatus rfl hpositive heq hcommit rfl rfl
  | lapsed =>
      refine CommitStep.update ?_ (fun _ _ => rfl) id
      exact .of_status (by decide) (by decide)
  | challenged =>
      refine CommitStep.update ?_ (fun _ _ => rfl) id
      exact .kept (fun h => h) (fun h => h) rfl rfl rfl rfl
  | answered =>
      refine CommitStep.update ?_ (fun _ _ => rfl) id
      exact .kept (fun h => h) (fun h => h) rfl rfl rfl rfl
  | timedOut =>
      refine CommitStep.update ?_ (fun _ _ => rfl) id
      have hgone : ProviderStatus.slashed ≠ .active := by decide
      have hassigned : ProviderStatus.slashed ≠ .none := by decide
      exact .kept (fun hactive => absurd hactive hgone) (fun hnone => absurd hnone hassigned)
        rfl rfl rfl rfl
  | refunded =>
      refine CommitStep.update ?_ (fun _ _ => rfl) id
      have hgone : ProviderStatus.slashed ≠ .active := by decide
      have hassigned : ProviderStatus.slashed ≠ .none := by decide
      exact .kept (fun hactive => absurd hactive hgone) (fun hnone => absurd hnone hassigned)
        rfl rfl rfl rfl

/-- Accepted `beginProof` calls, and nothing else, make a commit: to the period they are
made in, the randomness of their block and the dataset as it is. -/
theorem Change.commitments {call : Call} {out : Outcome}
    (hchange : Change keccak256 dep block msg s call out) (id : Nat) :
    out.events.filterMap (Event.commitment id) =
      if call.begins id then
        [⟨(block.timestamp - (s.providers id).anchor) / dep.params.custodyPeriod,
          block.prevrandao, MMR.bagRoot keccak256 s.leafCount s.peaks, s.leafCount⟩]
      else [] := by
  cases hchange with
  | declared _ haccepted =>
      obtain ⟨_, _, _, _, _, _, _, _, hevents⟩ := haccepted.subtreeCount
      rw [hevents]
      rfl
  | pointed _ haccepted hcall =>
      have hnone : call.begins id = false := by
        rcases hcall with ⟨_, _, _, _, rfl⟩ | ⟨_, _, _, _, rfl⟩
        · rfl
        · rfl
      rw [hnone]
      rcases haccepted.events with ⟨_, _, hevents⟩ | ⟨_, hevents⟩
      · rw [hevents]
        rfl
      · rw [hevents]
        rfl
  | noted _ hevent =>
      rcases hevent with ⟨url, rfl, rfl⟩ | ⟨rfl, rfl⟩
      · rfl
      · rfl
  | @committed owner period _ _ _ hperiod =>
      obtain ⟨_, _, rfl⟩ := custodyPeriodIndex_eq_ok hperiod
      by_cases howner : owner = id
      · subst howner
        simp [Outcome.plain, Event.commitment, Call.begins]
      · simp [Outcome.plain, Event.commitment, Call.begins, howner]
  | proven _ hcall =>
      have hnone : call.begins id = false := by
        rcases hcall with ⟨_, rfl⟩ | ⟨_, _, _, rfl⟩
        · rfl
        · rfl
      rw [hnone]
      rfl
  | claimed => rfl
  | staked => rfl
  | unbonded => rfl
  | withdrawn => rfl
  | lapsed => rfl
  | challenged => rfl
  | answered => rfl
  | timedOut => rfl
  | refunded => rfl

/-- The commits of a staked provider, each made in its own period. -/
structure Dated (dep : Deployment) (now : Nat) (p : Provider)
    (commits : List (Nat × Commitment)) : Prop where
  unstaked : p.status = .none → commits = []
  within : ∀ commit ∈ commits, p.anchor + commit.2.period * dep.params.custodyPeriod ≤ commit.1 ∧
    commit.1 < p.anchor + (commit.2.period + 1) * dep.params.custodyPeriod ∧ commit.1 ≤ now

namespace Dated

variable {p next : Provider} {commits : List (Nat × Commitment)} {id : Nat} {call : Call}

theorem advance {now later : Nat} (hdated : Dated dep now p commits) (hle : now ≤ later) :
    Dated dep later p commits := by
  refine ⟨hdated.unstaked, ?_⟩
  intro commit hmem
  obtain ⟨hstart, hend, htime⟩ := hdated.within commit hmem
  exact ⟨hstart, hend, htime.trans hle⟩

/-- No commit is for a period still to come. -/
theorem period_le (hdated : Dated dep block.timestamp p commits)
    (hpositive : 0 < dep.params.custodyPeriod) {commit : Nat × Commitment}
    (hmem : commit ∈ commits) :
    commit.2.period ≤ (block.timestamp - p.anchor) / dep.params.custodyPeriod := by
  obtain ⟨hstart, _, htime⟩ := hdated.within commit hmem
  rw [Nat.le_div_iff_mul_le hpositive]
  omega

/-- A commit whose period still runs is one of the current period. -/
theorem period_eq (hdated : Dated dep block.timestamp p commits) {commit : Nat × Commitment}
    (hmem : commit ∈ commits)
    (hruns : block.timestamp < p.anchor + (commit.2.period + 1) * dep.params.custodyPeriod) :
    commit.2.period = (block.timestamp - p.anchor) / dep.params.custodyPeriod := by
  obtain ⟨hstart, _, htime⟩ := hdated.within commit hmem
  refine (Nat.div_eq_of_lt_le ?_ ?_).symm
  · omega
  · omega

theorem of_kept (hdated : Dated dep block.timestamp p commits)
    (hassigned : next.status = .none → p.status = .none) (hanchor : next.anchor = p.anchor) :
    Dated dep block.timestamp next commits := by
  refine ⟨fun hnone => hdated.unstaked (hassigned hnone), ?_⟩
  rw [hanchor]
  exact hdated.within

theorem step {made : List Commitment} (hdated : Dated dep block.timestamp p commits)
    (hanchored : p.anchor ≤ block.timestamp) (hstep : CommitStep dep block id call p next made) :
    Dated dep block.timestamp next
      (commits ++ made.map fun commit => (block.timestamp, commit)) := by
  cases hstep with
  | kept _ hassigned hanchor =>
      rw [List.map_nil, List.append_nil]
      exact hdated.of_kept hassigned hanchor
  | voided hstatus hanchor =>
      rw [List.map_nil, List.append_nil]
      refine hdated.of_kept ?_ hanchor
      rw [hstatus]
      exact fun hnone => nomatch hnone
  | staked hbefore =>
      have hnone : commits = [] := hdated.unstaked (by rw [hbefore]; rfl)
      subst hnone
      refine ⟨fun _ => rfl, ?_⟩
      intro commit hmem
      cases hmem
  | @committed period _ hstatus _ hanchor _ hpositive hperiod _ hstored =>
      have hdivision := Nat.div_add_mod (block.timestamp - p.anchor) dep.params.custodyPeriod
      have hremainder := Nat.mod_lt (block.timestamp - p.anchor) hpositive
      rw [← hperiod, Nat.mul_comm] at hdivision
      rw [List.map_singleton]
      refine ⟨?_, ?_⟩
      · rw [hstatus]
        exact fun hnone => nomatch hnone
      · rw [hanchor]
        intro commit hmem
        rcases List.mem_append.mp hmem with hold | hnew
        · exact hdated.within commit hold
        · rw [List.mem_singleton.mp hnew]
          simp only [Provider.commitment_period hstored, Nat.add_mul, Nat.one_mul]
          omega
  | proven hstatus _ hanchor =>
      rw [List.map_nil, List.append_nil]
      refine hdated.of_kept ?_ hanchor
      rw [hstatus]
      exact fun hnone => nomatch hnone

end Dated

/-! ## At most one commit a period -/

/-- The commits of a provider: each in its own period, no two for one period, and the
last one stored until its period is proven. -/
structure Disciplined (dep : Deployment) (now : Nat) (p : Provider)
    (commits : List (Nat × Commitment)) : Prop where
  unstaked : p.status = .none → commits = []
  within : ∀ commit ∈ commits, p.anchor + commit.2.period * dep.params.custodyPeriod ≤ commit.1 ∧
    commit.1 < p.anchor + (commit.2.period + 1) * dep.params.custodyPeriod ∧ commit.1 ≤ now
  increasing : commits.Pairwise fun earlier later => earlier.2.period < later.2.period
  stored : p.commitPeriodPlusOne ≠ 0 → ∃ time, (time, p.commitment) ∈ commits
  binding : p.status = .active → ∀ commit, commits.getLast? = some commit →
    p.commitPeriodPlusOne = commit.2.period + 1 ∨ p.lastProvenPlusOne = commit.2.period + 1
  proven : p.lastProvenPlusOne ≠ 0 → ∃ commit ∈ commits,
    p.lastProvenPlusOne = commit.2.period + 1

/-- In a strictly increasing list nothing is beyond the last element. -/
theorem period_le_last {commits : List (Nat × Commitment)}
    (hincreasing : commits.Pairwise fun earlier later => earlier.2.period < later.2.period)
    {last commit : Nat × Commitment} (hlast : commits.getLast? = some last)
    (hmem : commit ∈ commits) : commit.2.period ≤ last.2.period := by
  obtain ⟨init, rfl⟩ := List.getLast?_eq_some_iff.mp hlast
  rcases List.mem_append.mp hmem with hinit | hsingle
  · exact ((List.pairwise_append.mp hincreasing).2.2 commit hinit last
      (List.mem_singleton.mpr rfl)).le
  · rw [List.mem_singleton.mp hsingle]

namespace Disciplined

variable {p next : Provider} {commits : List (Nat × Commitment)} {id : Nat} {call : Call}

theorem dated {now : Nat} (hcommits : Disciplined dep now p commits) : Dated dep now p commits :=
  ⟨hcommits.unstaked, hcommits.within⟩

theorem advance {now later : Nat} (hcommits : Disciplined dep now p commits) (hle : now ≤ later) :
    Disciplined dep later p commits :=
  ⟨hcommits.unstaked, (hcommits.dated.advance hle).within, hcommits.increasing, hcommits.stored,
    hcommits.binding, hcommits.proven⟩

/-- A period that is neither committed nor proven is beyond all earlier commits. -/
theorem period_lt (hcommits : Disciplined dep block.timestamp p commits)
    (hactive : p.status = .active) (hpositive : 0 < dep.params.custodyPeriod) {period : Nat}
    (hperiod : period = (block.timestamp - p.anchor) / dep.params.custodyPeriod)
    (hfresh : p.commitPeriodPlusOne ≠ period + 1) (hunproven : p.lastProvenPlusOne ≠ period + 1)
    {commit : Nat × Commitment} (hmem : commit ∈ commits) : commit.2.period < period := by
  obtain ⟨last, hlast⟩ : ∃ last, commits.getLast? = some last :=
    ⟨_, List.getLast?_eq_some_getLast (List.ne_nil_of_mem hmem)⟩
  have hle := period_le_last hcommits.increasing hlast hmem
  have hbound := hcommits.dated.period_le hpositive (List.mem_of_getLast? hlast)
  rw [← hperiod] at hbound
  rcases hcommits.binding hactive last hlast with hcommitted | hproven
  · rw [hcommitted] at hfresh
    omega
  · rw [hproven] at hunproven
    omega

theorem step {made : List Commitment} (hcommits : Disciplined dep block.timestamp p commits)
    (hanchored : p.anchor ≤ block.timestamp)
    (hstep : CommitStep dep block id call p next made)
    (hallowed : call = .beginProof id → p.lastProvenPlusOne ≠
      (block.timestamp - p.anchor) / dep.params.custodyPeriod + 1) :
    Disciplined dep block.timestamp next
      (commits ++ made.map fun commit => (block.timestamp, commit)) := by
  obtain ⟨hunstaked, hwithin⟩ := hcommits.dated.step hanchored hstep
  cases hstep with
  | kept hstatus _ _ hproven hstored hcommit =>
      rw [List.map_nil, List.append_nil] at hunstaked hwithin ⊢
      refine ⟨hunstaked, hwithin, hcommits.increasing, ?_, ?_, ?_⟩
      · rw [hstored, hcommit]
        exact hcommits.stored
      · rw [hstored, hproven]
        exact fun hactive => hcommits.binding (hstatus hactive)
      · rw [hproven]
        exact hcommits.proven
  | voided hstatus _ hproven hvoid =>
      rw [List.map_nil, List.append_nil] at hunstaked hwithin ⊢
      refine ⟨hunstaked, hwithin, hcommits.increasing, fun hsome => absurd hvoid hsome, ?_, ?_⟩
      · rw [hstatus]
        exact fun hactive => nomatch hactive
      · rw [hproven]
        exact hcommits.proven
  | staked hbefore hproven hvoid =>
      have hnone : commits = [] := hcommits.unstaked (by rw [hbefore]; rfl)
      subst hnone
      refine ⟨hunstaked, hwithin, List.Pairwise.nil, fun hsome => absurd hvoid hsome, ?_,
        fun hsome => absurd hproven hsome⟩
      intro _ commit hlast
      cases hlast
  | @committed period hcall _ hactive _ hproven hpositive hperiod hfresh hstored =>
      have hunproven := hallowed hcall
      rw [← hperiod] at hunproven
      rw [List.map_singleton] at hunstaked hwithin ⊢
      refine ⟨hunstaked, hwithin, ?_, ?_, ?_, ?_⟩
      · rw [List.pairwise_append]
        refine ⟨hcommits.increasing, List.pairwise_singleton _ _, ?_⟩
        intro commit hmem later hlater
        rw [List.mem_singleton.mp hlater]
        simp only [Provider.commitment_period hstored]
        exact hcommits.period_lt hactive hpositive hperiod hfresh hunproven hmem
      · intro _
        exact ⟨block.timestamp, List.mem_append_right _ (List.mem_singleton.mpr rfl)⟩
      · intro _ commit hlast
        rw [List.getLast?_concat] at hlast
        cases hlast
        simp only [Provider.commitment_period hstored]
        exact Or.inl hstored
      · rw [hproven]
        intro hsome
        obtain ⟨commit, hmem, heq⟩ := hcommits.proven hsome
        exact ⟨commit, List.mem_append_left _ hmem, heq⟩
  | @proven period _ _ _ hpositive hperiod hstored hvoid hproven =>
      rw [List.map_nil, List.append_nil] at hunstaked hwithin ⊢
      obtain ⟨time, hmem⟩ := hcommits.stored (by rw [hstored]; exact Nat.succ_ne_zero period)
      have hcommitment := Provider.commitment_period hstored
      refine ⟨hunstaked, hwithin, hcommits.increasing, fun hsome => absurd hvoid hsome, ?_, ?_⟩
      · -- the stored commit is the last one, since no later period has begun
        intro _ last hlast
        have hle := period_le_last hcommits.increasing hlast hmem
        have hbound := hcommits.dated.period_le hpositive (List.mem_of_getLast? hlast)
        rw [← hperiod] at hbound
        simp only [hcommitment] at hle
        exact Or.inr (by omega)
      · intro _
        exact ⟨_, hmem, by simp only [hcommitment]; exact hproven⟩

/-- At most one commit for each period. -/
theorem commitsOf_le {log : List (Nat × Event)} {now : Nat}
    (hcommits : Disciplined dep now p (commitments id log)) (period : Nat) :
    (commitsOf id period log).length ≤ 1 := by
  unfold commitsOf
  by_contra hmany
  rw [not_le] at hmany
  have hincreasing := hcommits.increasing.filter fun commit => commit.2.period = period
  generalize hsame : (commitments id log).filter (fun commit => commit.2.period = period) = same
    at hmany hincreasing
  match same, hmany with
  | first :: second :: rest, _ =>
      have hperiods : ∀ commit ∈ first :: second :: rest, commit.2.period = period := by
        intro commit hmem
        rw [← hsame] at hmem
        exact of_decide_eq_true (List.mem_filter.mp hmem).2
      have hlt := List.rel_of_pairwise_cons hincreasing List.mem_cons_self
      rw [hperiods first List.mem_cons_self,
        hperiods second (List.mem_cons_of_mem _ List.mem_cons_self)] at hlt
      exact absurd hlt (lt_irrefl period)

end Disciplined

structure CommitBooks (dep : Deployment) (block : Block) (s : Storage)
    (log : List (Nat × Event)) : Prop where
  custody : Custody dep block s log
  commits : ∀ id, Disciplined dep block.timestamp (s.providers id) (commitments id log)

theorem CommitBooks.change {log : List (Nat × Event)} {call : Call} {out : Outcome}
    (hbooks : CommitBooks dep block s log) (houtside : Outside dep msg.sender)
    (hallowed : Call.unprovenPeriod dep block s call = true)
    (hchange : Change keccak256 dep block msg s call out) :
    CommitBooks dep block out.storage
      (log ++ out.events.map fun event => (block.timestamp, event)) := by
  refine ⟨hbooks.custody.change houtside hchange, ?_⟩
  intro id
  unfold commitments
  rw [recorded_append_events]
  refine (hbooks.commits id).step (hbooks.custody.clock id).anchored
    (hchange.commitStep hbooks.custody.wellFormed id) ?_
  rintro rfl
  exact of_decide_eq_true hallowed

theorem commit_invariant :
    StoreInvariantWhere keccak256 dep (Call.unprovenPeriod dep)
      fun block s log _ => CommitBooks dep block s log where
  change hbooks houtside _ hallowed hchange := hbooks.change houtside hallowed hchange
  quiet sink entered hbooks htransfer := by
    refine ⟨hbooks.custody.quiet sink entered htransfer, ?_⟩
    intro id
    rw [commitments_append_transfers id _ htransfer]
    exact hbooks.commits id
  advance hbooks hle :=
    ⟨hbooks.custody.advance hle, fun id => (hbooks.commits id).advance hle⟩

/-- The system in which no period is committed that is already proven. -/
def unprovenSystem (keccak256 : ByteString → Hash) (dep : Deployment) :
    CallSystem Block Chain Action Rest :=
  (system keccak256 dep).restrict fun block chain action =>
    action.guard (Call.unprovenPeriod dep) block chain

theorem commitBooks_of_steps {start : Block} {world : World}
    (hsteps : (unprovenSystem keccak256 dep).Steps ⟨start, Chain.deployed dep start, []⟩ world) :
    CommitBooks dep world.env world.state.store world.state.log := by
  refine (hsteps.holds commit_invariant.preserves (Machine.holds_of_idle ?_)).state
  refine ⟨deployed_custody start, ?_⟩
  intro id
  refine ⟨fun _ => rfl, ?_, List.Pairwise.nil, fun hsome => absurd rfl hsome, ?_,
    fun hsome => absurd rfl hsome⟩
  · intro commit hmem
    cases hmem
  · intro _ commit hlast
    cases hlast

/-- The log after an accepted call: one commit more for `beginProof`, none otherwise. -/
theorem commitments_after (id : Nat) {log : List (Nat × Event)} {call : Call} {out : Outcome}
    (hchange : Change keccak256 dep block msg s call out) :
    commitments id (log ++ out.events.map fun event => (block.timestamp, event)) =
      commitments id log ++ if call.begins id then
        [(block.timestamp, ⟨(block.timestamp - (s.providers id).anchor) / dep.params.custodyPeriod,
          block.prevrandao, MMR.bagRoot keccak256 s.leafCount s.peaks, s.leafCount⟩)]
      else [] := by
  unfold commitments
  rw [recorded_append_events, hchange.commitments id]
  cases call.begins id with
  | false => rfl
  | true => rfl

/-- A commit for a proven period is a second one. -/
theorem CommitBooks.recommitted {log : List (Nat × Event)} (hbooks : CommitBooks dep block s log)
    {id : Nat} {out : Outcome} (hchange : Change keccak256 dep block msg s (.beginProof id) out)
    (hproven : (s.providers id).lastProvenPlusOne =
      (block.timestamp - (s.providers id).anchor) / dep.params.custodyPeriod + 1) :
    1 < (commitsOf id ((block.timestamp - (s.providers id).anchor) / dep.params.custodyPeriod)
      (log ++ out.events.map fun event => (block.timestamp, event))).length := by
  have hsome : (s.providers id).lastProvenPlusOne ≠ 0 := by
    rw [hproven]
    exact Nat.succ_ne_zero _
  obtain ⟨commit, hmem, heq⟩ := (hbooks.commits id).proven hsome
  have hperiod := Nat.succ_inj.mp (heq.symm.trans hproven)
  have hbegins : (Call.beginProof id).begins id = true := decide_eq_true rfl
  unfold commitsOf
  rw [commitments_after id hchange, if_pos hbegins, List.filter_append, List.length_append]
  have hold : 0 < ((commitments id log).filter fun commit => commit.2.period =
      (block.timestamp - (s.providers id).anchor) / dep.params.custodyPeriod).length := by
    refine List.length_pos_of_mem (List.mem_filter.mpr ⟨hmem, ?_⟩)
    exact decide_eq_true hperiod
  simpa using hold

/-- As long as no period is committed that is already proven, a provider commits at most
once to each period, and what is stored is that commit; the next commit keeps this
exactly when its period is not proven yet. -/
theorem commit_discipline {start : Block} {world : World}
    (hsteps : (unprovenSystem keccak256 dep).Steps ⟨start, Chain.deployed dep start, []⟩ world)
    (id : Nat) :
    (∀ period, (commitsOf id period world.state.log).length ≤ 1) ∧
    (∀ commit ∈ commitments id world.state.log,
      (world.state.store.providers id).anchor +
          commit.2.period * dep.params.custodyPeriod ≤ commit.1 ∧
        commit.1 < (world.state.store.providers id).anchor +
          (commit.2.period + 1) * dep.params.custodyPeriod) ∧
    ((world.state.store.providers id).commitPeriodPlusOne ≠ 0 →
      ∃ time, commitsOf id (world.state.store.providers id).commitment.period world.state.log =
        [(time, (world.state.store.providers id).commitment)]) ∧
    (∀ msg call out, Accepted keccak256 dep world.env world.state msg call out →
      commitments id (world.state.log ++ out.events.map fun event =>
          (world.env.timestamp, event)) =
        commitments id world.state.log ++ if call.begins id then
          [(world.env.timestamp, ⟨(world.env.timestamp -
              (world.state.store.providers id).anchor) / dep.params.custodyPeriod,
            world.env.prevrandao, MMR.bagRoot keccak256 world.state.store.leafCount
              world.state.store.peaks, world.state.store.leafCount⟩)]
        else []) ∧
    ∀ msg out, Accepted keccak256 dep world.env world.state msg (.beginProof id) out →
      ((∀ period, (commitsOf id period (world.state.log ++ out.events.map fun event =>
          (world.env.timestamp, event))).length ≤ 1) ↔
        Call.unprovenPeriod dep world.env world.state.store (.beginProof id) = true) := by
  have hbooks := commitBooks_of_steps hsteps
  have hcommits := hbooks.commits id
  refine ⟨hcommits.commitsOf_le, ?_, ?_, ?_, ?_⟩
  · intro commit hmem
    obtain ⟨hstart, hend, _⟩ := hcommits.within commit hmem
    exact ⟨hstart, hend⟩
  · intro hsome
    obtain ⟨time, hmem⟩ := hcommits.stored hsome
    have hin : (time, (world.state.store.providers id).commitment) ∈
        commitsOf id (world.state.store.providers id).commitment.period world.state.log :=
      List.mem_filter.mpr ⟨hmem, decide_eq_true rfl⟩
    obtain ⟨commit, hsingle⟩ := List.length_eq_one_iff.mp
      (le_antisymm (hcommits.commitsOf_le _) (List.length_pos_of_mem hin))
    rw [hsingle] at hin ⊢
    exact ⟨time, by rw [List.mem_singleton.mp hin]⟩
  · intro msg call out haccepted
    exact commitments_after id haccepted.change
  · intro msg out haccepted
    constructor
    · intro hle
      refine decide_eq_true fun hproven => ?_
      exact absurd (hbooks.recommitted haccepted.change hproven) (not_lt.mpr (hle _))
    · intro hallowed
      have hafter := hbooks.change haccepted.outside hallowed haccepted.change
      exact (hafter.commits id).commitsOf_le

end

/-! ## Two runs

In the first the provider commits once.  In the second it commits, proves the period and
commits to it again, with the randomness of another block. -/

def beginAction : Action := .call (sampleMsg sampleOperator 0) (.beginProof 1)

def proveAction : Action :=
  .call { sampleMsg sampleOperator 0 with verifyProof := fun _ _ _ => true } (.submitProof 1 [])

def luckyBlock : Block := { sampleBlock 8 eight_fits with prevrandao := Vector.replicate 32 9 }

def committedWorld : World := ⟨stakeBlock, (stakedWorld.state.after stakeBlock beginAction).1, []⟩

def provenWorld : World := ⟨stakeBlock, (committedWorld.state.after stakeBlock proveAction).1, []⟩

def recommittedWorld : World := ⟨luckyBlock, (provenWorld.state.after luckyBlock beginAction).1, []⟩

theorem committedWorld_steps : (unprovenSystem Keccak.keccak256 sampleDeployment).Steps
    ⟨stakeBlock, Chain.deployed sampleDeployment stakeBlock, []⟩ committedWorld := by
  have hstake : (unprovenSystem Keccak.keccak256 sampleDeployment).call stakeBlock stakeAction
      (Chain.deployed sampleDeployment stakeBlock) = some (stakedWorld.state, none) := rfl
  have hbegin : (unprovenSystem Keccak.keccak256 sampleDeployment).call stakeBlock beginAction
      stakedWorld.state = some (committedWorld.state, none) := rfl
  exact .tail (.single (.returns hstake)) (.returns hbegin)

theorem commit_discipline_committed : ∃ time, commitsOf 1 0 committedWorld.state.log =
    [(time, (committedWorld.state.store.providers 1).commitment)] :=
  (commit_discipline committedWorld_steps 1).2.2.1 (show 1 ≠ 0 by decide)

theorem recommittedWorld_reachable :
    Reachable Keccak.keccak256 sampleDeployment recommittedWorld := by
  have hbegin : (system Keccak.keccak256 sampleDeployment).call stakeBlock beginAction
      stakedWorld.state = some (committedWorld.state, none) := rfl
  have hprove : (system Keccak.keccak256 sampleDeployment).call stakeBlock proveAction
      committedWorld.state = some (provenWorld.state, none) := rfl
  have hadvance : stakeBlock.timestamp ≤ luckyBlock.timestamp := by decide
  have hagain : (system Keccak.keccak256 sampleDeployment).call luckyBlock beginAction
      provenWorld.state = some (recommittedWorld.state, none) := rfl
  have hproven := stakedWorld_reachable.steps (.tail (.single (.returns hbegin)) (.returns hprove))
  have hlucky := hproven.steps (.single (.advances hadvance))
  exact hlucky.steps (.single (.returns hagain))

/-- One period, two accepted commits, two seeds. -/
theorem period_recommitted :
    Reachable Keccak.keccak256 sampleDeployment recommittedWorld ∧
      ¬(commitsOf 1 0 recommittedWorld.state.log).length ≤ 1 ∧
      (commitsOf 1 0 recommittedWorld.state.log).map (fun commit => commit.2.seed) =
        [zeroHash, Vector.replicate 32 9] :=
  ⟨recommittedWorld_reachable, show ¬2 ≤ 1 by decide, rfl⟩

end Blobsitter.Contract
