import Blobsitter.Contract.CommitDiscipline
import Blobsitter.Contract.Declarations

/-!
# The commit of the running period

In every run, a period that has been committed and still runs has its commit stored, or
is proven.  Nothing but the accepted proof takes the commit away from an active provider,
and later commits of the period store it again.
-/

namespace Blobsitter.Contract

open Library
open Reference (Chunk Hash Address)

section

variable {keccak256 : ByteString → Hash} {dep : Deployment} {block : Block} {msg : Msg}
variable {s : Storage}

/-- Each commit lies in its own period, and while that period runs it is stored, or the
period is proven. -/
structure Pending (dep : Deployment) (now : Nat) (p : Provider)
    (commits : List (Nat × Commitment)) : Prop where
  unstaked : p.status = .none → commits = []
  within : ∀ commit ∈ commits, p.anchor + commit.2.period * dep.params.custodyPeriod ≤ commit.1 ∧
    commit.1 < p.anchor + (commit.2.period + 1) * dep.params.custodyPeriod ∧ commit.1 ≤ now
  running : p.status = .active → ∀ commit ∈ commits,
    now < p.anchor + (commit.2.period + 1) * dep.params.custodyPeriod →
      p.commitPeriodPlusOne = commit.2.period + 1 ∨ p.lastProvenPlusOne = commit.2.period + 1

namespace Pending

variable {p next : Provider} {commits : List (Nat × Commitment)} {id : Nat} {call : Call}

theorem dated {now : Nat} (hpending : Pending dep now p commits) : Dated dep now p commits :=
  ⟨hpending.unstaked, hpending.within⟩

theorem advance {now later : Nat} (hpending : Pending dep now p commits) (hle : now ≤ later) :
    Pending dep later p commits := by
  refine ⟨hpending.unstaked, (hpending.dated.advance hle).within, ?_⟩
  intro hactive commit hmem hruns
  exact hpending.running hactive commit hmem (hle.trans_lt hruns)

theorem step {made : List Commitment} (hpending : Pending dep block.timestamp p commits)
    (hanchored : p.anchor ≤ block.timestamp) (hstep : CommitStep dep block id call p next made) :
    Pending dep block.timestamp next
      (commits ++ made.map fun commit => (block.timestamp, commit)) := by
  have hdated := hpending.dated
  obtain ⟨hunstaked, hwithin⟩ := hdated.step hanchored hstep
  refine ⟨hunstaked, hwithin, ?_⟩
  cases hstep with
  | kept hstatus _ hanchor hproven hstored _ =>
      rw [List.map_nil, List.append_nil, hanchor, hproven, hstored]
      exact fun hactive => hpending.running (hstatus hactive)
  | voided hstatus _ _ _ =>
      rw [hstatus]
      exact fun hactive => nomatch hactive
  | staked hbefore _ _ =>
      rw [hpending.unstaked (by rw [hbefore]; rfl)]
      intro _ commit hmem
      cases hmem
  | @committed period _ _ _ hanchor _ _ hperiod _ hstored =>
      rw [List.map_singleton, hanchor]
      intro _ commit hmem hruns
      rcases List.mem_append.mp hmem with hold | hnew
      · exact Or.inl (by rw [hstored, hdated.period_eq hold hruns, hperiod])
      · rw [List.mem_singleton.mp hnew]
        exact Or.inl (by rw [hstored, Provider.commitment_period hstored])
  | @proven period _ _ hanchor _ hperiod _ _ hproven =>
      rw [List.map_nil, List.append_nil, hanchor]
      intro _ commit hmem hruns
      exact Or.inr (by rw [hproven, hdated.period_eq hmem hruns, hperiod])

end Pending

structure PendingBooks (dep : Deployment) (block : Block) (s : Storage)
    (log : List (Nat × Event)) : Prop where
  custody : Custody dep block s log
  commits : ∀ id, Pending dep block.timestamp (s.providers id) (commitments id log)

theorem pending_invariant :
    StoreInvariant keccak256 dep fun block s log _ => PendingBooks dep block s log where
  change hbooks houtside _ hchange := by
    refine ⟨hbooks.custody.change houtside hchange, ?_⟩
    intro id
    unfold commitments
    rw [recorded_append_events]
    exact (hbooks.commits id).step (hbooks.custody.clock id).anchored
      (hchange.commitStep hbooks.custody.wellFormed id)
  quiet sink entered hbooks htransfer := by
    refine ⟨hbooks.custody.quiet sink entered htransfer, ?_⟩
    intro id
    rw [commitments_append_transfers id _ htransfer]
    exact hbooks.commits id
  advance hbooks hle :=
    ⟨hbooks.custody.advance hle, fun id => (hbooks.commits id).advance hle⟩

theorem Reachable.pending {world : World} (hreach : Reachable keccak256 dep world) (id : Nat) :
    Pending dep world.env.timestamp (world.state.store.providers id)
      (commitments id world.state.log) := by
  have hdeployed : ∀ start, PendingBooks dep start (Chain.deployed dep start).store [] := by
    intro start
    refine ⟨deployed_custody start, ?_⟩
    intro id
    refine ⟨fun _ => rfl, ?_, ?_⟩
    · intro commit hmem
      cases hmem
    · intro _ commit hmem
      cases hmem
  exact (hreach.holds pending_invariant.preserves hdeployed).state.commits id

/-! ## The snapshot of the commit -/

/-- A stored commit counts leaves that the dataset has had. -/
structure CommitsFit (keccak256 : ByteString → Hash) (s : Storage) (log : List (Nat × Event)) :
    Prop where
  wellFormed : s.WellFormed
  published : Published keccak256 s log
  fits : ∀ id, (s.providers id).commitPeriodPlusOne ≠ 0 →
    (s.providers id).commitLeafCount < 2 ^ 64

theorem CommitsFit.change {log : List (Nat × Event)} (hfit : CommitsFit keccak256 s log)
    (houtside : Outside dep msg.sender) {call : Call} (hrange : call.inRange = true) {out : Outcome}
    (hchange : Change keccak256 dep block msg s call out) :
    CommitsFit keccak256 out.storage
      (log ++ out.events.map fun event => (block.timestamp, event)) := by
  refine ⟨hchange.wellFormed houtside hfit.wellFormed,
    hfit.published.change hchange hrange _, ?_⟩
  intro id
  have hstep := hchange.commitStep hfit.wellFormed id
  have hmade := hchange.commitments id
  generalize out.events.filterMap (Event.commitment id) = made at hstep hmade
  cases hstep with
  | kept _ _ _ _ hstored hcommit =>
      have hleaves : (out.storage.providers id).commitLeafCount =
          (s.providers id).commitLeafCount := congrArg Commitment.leafCount hcommit
      rw [hstored, hleaves]
      exact hfit.fits id
  | voided _ _ _ hvoid => exact fun hsome => absurd hvoid hsome
  | staked _ _ hvoid => exact fun hsome => absurd hvoid hsome
  | proven _ _ _ _ _ _ hvoid _ => exact fun hsome => absurd hvoid hsome
  | committed =>
      intro _
      split at hmade
      · have hleaves : (out.storage.providers id).commitLeafCount = s.leafCount :=
          congrArg Commitment.leafCount (List.cons.inj hmade).1
        rw [hleaves]
        exact hfit.published.declared.fits
      · cases hmade

theorem commitsFit_invariant :
    StoreInvariant keccak256 dep fun _ s log _ => CommitsFit keccak256 s log where
  change hfit houtside hrange hchange := hfit.change houtside hrange hchange
  quiet sink entered hfit htransfer :=
    ⟨hfit.wellFormed.of_same rfl rfl rfl rfl, hfit.published.quiet sink entered htransfer, hfit.fits⟩
  advance hfit _ := hfit

theorem Reachable.commitLeafCount_lt {world : World} (hreach : Reachable keccak256 dep world)
    (id : Nat) (hstored : (world.state.store.providers id).commitPeriodPlusOne ≠ 0) :
    (world.state.store.providers id).commitLeafCount < 2 ^ 64 := by
  have hdeployed : ∀ start, CommitsFit keccak256 (Chain.deployed dep start).store [] := by
    intro start
    exact ⟨(deployed_distributed start).wellFormed, deployed_published start,
      fun _ hsome => absurd rfl hsome⟩
  exact (hreach.holds commitsFit_invariant.preserves hdeployed).state.fits id hstored

/-- The anchor is set once, when the provider stakes. -/
theorem anchor_kept {world later : World} (hreach : Reachable keccak256 dep world)
    (hidle : world.stack = []) (hsteps : (system keccak256 dep).Steps world later) {id : Nat}
    (hassigned : (world.state.store.providers id).status ≠ .none) :
    (later.state.store.providers id).anchor = (world.state.store.providers id).anchor := by
  have hinv : StoreInvariant keccak256 dep fun _ s _ _ => s.WellFormed ∧
      (s.providers id).status ≠ .none ∧
      (s.providers id).anchor = (world.state.store.providers id).anchor := by
    refine ⟨?_, ?_, fun hheld _ => hheld⟩
    · rintro block s log _ msg call out ⟨hwf, hstatus, hanchor⟩ houtside _ hchange
      refine ⟨hchange.wellFormed houtside hwf, ?_, ?_⟩
      · rcases (hchange.stakeStep hwf id).moves with hsame | hmove
        · rw [hsame]
          exact hstatus
        · exact hmove.ne_none
      · have hstep := hchange.custodyStep hwf id
        generalize out.events.filterMap (Event.provenPeriod id) = periods at hstep
        cases hstep with
        | kept hsame _ => rw [hsame, hanchor]
        | staked hbefore _ _ =>
            rw [hbefore] at hstatus
            exact absurd rfl hstatus
        | proven _ hsame _ _ _ => rw [hsame, hanchor]
    · rintro block s log _ _ sink entered ⟨hwf, hstatus, hanchor⟩ _
      exact ⟨hwf.of_same rfl rfl rfl rfl, hstatus, hanchor⟩
  have hwf := hreach.custody.wellFormed
  obtain ⟨env, chain, stack⟩ := world
  cases hidle
  exact (hsteps.holds hinv.preserves
    (Machine.holds_of_idle ⟨hwf, hassigned, rfl⟩)).state.2.2

/-- Between transactions the log only grows, and what a run adds, transfers aside, bears
no earlier time. -/
theorem log_since {world later : World} (hidle : world.stack = [])
    (hsteps : (system keccak256 dep).Steps world later) :
    ∃ extra, later.state.log = world.state.log ++ extra ∧
      ∀ entry ∈ extra, entry.2.isTransfer = false → world.env.timestamp ≤ entry.1 := by
  have hinv : StoreInvariant keccak256 dep fun block _ log _ =>
      world.env.timestamp ≤ block.timestamp ∧ ∃ extra, log = world.state.log ++ extra ∧
        ∀ entry ∈ extra, entry.2.isTransfer = false → world.env.timestamp ≤ entry.1 := by
    refine ⟨?_, ?_, fun ⟨hle, hadded⟩ hadvance => ⟨hle.trans hadvance, hadded⟩⟩
    · rintro block s log _ msg call out ⟨hle, extra, rfl, hextra⟩ _ _ _
      refine ⟨hle, extra ++ out.events.map fun event => (block.timestamp, event),
        List.append_assoc _ _ _, ?_⟩
      intro entry hmem hevent
      rcases List.mem_append.mp hmem with hold | hnew
      · exact hextra entry hold hevent
      · obtain ⟨_, _, rfl⟩ := List.mem_map.mp hnew
        exact hle
    · rintro block s log more _ _ _ ⟨hle, extra, rfl, hextra⟩ htransfer
      refine ⟨hle, extra ++ more, List.append_assoc _ _ _, ?_⟩
      intro entry hmem hevent
      rcases List.mem_append.mp hmem with hold | hnew
      · exact hextra entry hold hevent
      · rw [htransfer entry hnew] at hevent
        cases hevent
  obtain ⟨env, chain, stack⟩ := world
  cases hidle
  exact (hsteps.holds hinv.preserves (Machine.holds_of_idle
    ⟨le_rfl, [], (List.append_nil _).symm, fun _ hmem => nomatch hmem⟩)).state.2

/-- A reader that passes over transfers finds nothing of an earlier time. -/
theorem recorded_since {α : Type} {read : Event → Option α} {extra : List (Nat × Event)}
    {start : Nat} (hread : ∀ event, event.isTransfer = true → read event = none)
    (hextra : ∀ entry ∈ extra, entry.2.isTransfer = false → start ≤ entry.1) {found : Nat × α}
    (hmem : found ∈ recorded read extra) : start ≤ found.1 := by
  obtain ⟨entry, hentry, hfound⟩ := List.mem_filterMap.mp hmem
  obtain ⟨value, hvalue, rfl⟩ := Option.map_eq_some_iff.mp hfound
  refine hextra entry hentry ?_
  by_contra htransfer
  rw [hread entry.2 (Bool.not_eq_false _ ▸ htransfer)] at hvalue
  cases hvalue

end

end Blobsitter.Contract
