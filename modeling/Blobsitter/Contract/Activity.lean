import Blobsitter.Contract.Declarations

/-!
# Activity and dormancy

The activity checkpoint moves once the growth since the last one reaches a threshold.
Growth after the checkpoint therefore stays below the threshold, and a reclaim, which
needs the checkpoint to be more than a window old, finds less than that in the window.
-/

namespace Blobsitter.Contract

open Library
open Reference (Chunk Hash Address)

/-- Chunks that declarations appended at times in `[first, last]`, from leaf count `n` on. -/
def appendedFrom (first last : Nat) : Nat → List (Nat × DeclaredRecord) → Nat
  | _, [] => 0
  | n, (time, d) :: rest =>
      (if first ≤ time ∧ time ≤ last then d.newLeafCount - n else 0) +
        appendedFrom first last d.newLeafCount rest

/-- Chunks that the declarations appended at times in `[first, last]`. -/
def appended (ds : List (Nat × DeclaredRecord)) (first last : Nat) : Nat :=
  appendedFrom first last 0 ds

theorem leafCountAfter_cons (d next : Nat × DeclaredRecord) (rest : List (Nat × DeclaredRecord)) :
    leafCountAfter (d :: next :: rest) = leafCountAfter (next :: rest) := by
  rw [leafCountAfter, leafCountAfter, List.getLast?_cons_cons]

theorem appendedFrom_concat (first last n : Nat) (ds : List (Nat × DeclaredRecord))
    (d : Nat × DeclaredRecord) :
    appendedFrom first last n (ds ++ [d]) = appendedFrom first last n ds +
      if first ≤ d.1 ∧ d.1 ≤ last then
        d.2.newLeafCount - (if ds = [] then n else leafCountAfter ds) else 0 := by
  induction ds generalizing n with
  | nil => rw [List.nil_append, appendedFrom, appendedFrom, appendedFrom, if_pos rfl, Nat.zero_add,
      Nat.add_zero]
  | cons entry rest ih =>
      obtain ⟨time, declared⟩ := entry
      have hlast : (if rest = [] then declared.newLeafCount else leafCountAfter rest) =
          leafCountAfter ((time, declared) :: rest) := by
        cases rest with
        | nil => rfl
        | cons next later => rw [if_neg (List.cons_ne_nil _ _), leafCountAfter_cons]
      rw [List.cons_append, appendedFrom, appendedFrom, ih, hlast, if_neg (List.cons_ne_nil _ _),
        Nat.add_assoc]

theorem appended_concat (ds : List (Nat × DeclaredRecord)) (d : Nat × DeclaredRecord)
    (first last : Nat) :
    appended (ds ++ [d]) first last = appended ds first last +
      if first ≤ d.1 ∧ d.1 ≤ last then d.2.newLeafCount - leafCountAfter ds else 0 := by
  have hstart : (if ds = [] then 0 else leafCountAfter ds) = leafCountAfter ds := by
    split
    · rename_i hnil
      rw [hnil]
      rfl
    · rfl
  rw [appended, appendedFrom_concat, hstart]
  rfl

/-- Nothing was appended after the last declaration. -/
theorem appended_eq_zero {ds : List (Nat × DeclaredRecord)} {first : Nat} (last : Nat)
    (hbefore : ∀ d ∈ ds, d.1 < first) : appended ds first last = 0 := by
  induction ds using List.reverseRecOn with
  | nil => rfl
  | append_singleton ds d ih =>
      have hd := hbefore d (List.mem_append_right _ (List.mem_singleton_self d))
      rw [appended_concat, ih fun earlier hmem => hbefore earlier (List.mem_append_left _ hmem),
        if_neg (by omega)]

/-! ## The checkpoint -/

/-- Growth after the checkpoint is below the threshold, in all and in every window. -/
structure Active (minChunks : Nat) (block : Block) (s : Storage)
    (ds : List (Nat × DeclaredRecord)) : Prop where
  past : ∀ d ∈ ds, d.1 ≤ block.timestamp
  checkpointPast : s.activityCheckpointTime ≤ block.timestamp
  below : s.leafCount - s.activityCheckpointLeafCount < minChunks
  windows : ∀ first last, s.activityCheckpointTime < first →
    appended ds first last ≤ s.leafCount - s.activityCheckpointLeafCount

section

variable {keccak256 : ByteString → Hash} {dep : Deployment} {block : Block} {msg : Msg}
variable {s : Storage} {ds : List (Nat × DeclaredRecord)}

namespace Active

theorem of_same {minChunks : Nat} (hactive : Active minChunks block s ds) {next : Storage}
    (hleafCount : next.leafCount = s.leafCount)
    (htime : next.activityCheckpointTime = s.activityCheckpointTime)
    (hcheckpoint : next.activityCheckpointLeafCount = s.activityCheckpointLeafCount) :
    Active minChunks block next ds := by
  obtain ⟨hpast, hcheckpointPast, hbelow, hwindows⟩ := hactive
  refine ⟨hpast, ?_, ?_, ?_⟩
  · rwa [htime]
  · rwa [hleafCount, hcheckpoint]
  · rwa [hleafCount, htime, hcheckpoint]

/-- A declaration moves the checkpoint when the growth reaches the threshold. -/
theorem declare (hactive : Active dep.params.dormancyMinChunks block s ds)
    (hpositive : 1 ≤ dep.params.dormancyMinChunks) (hdeclared : Declared keccak256 s ds)
    {d : Declaration} {publisherSig : ByteString} {openings : List BlobOpening}
    {equivalenceProof : ByteString} {out : Outcome}
    (haccepted : DeclareAccepted keccak256 dep block msg s d publisherSig openings equivalenceProof
      out) (hfits : d.newLeafCount < 2 ^ 64) :
    Active dep.params.dormancyMinChunks block out.storage (ds ++ [(block.timestamp,
      ⟨d.nonce, d.newLeafCount, d.blobVersionedHashes, d.newSubtreePeaks⟩)]) := by
  obtain ⟨hcount, _⟩ := haccepted.counted hdeclared.peakCount hfits
  obtain ⟨hpast, hcheckpointPast, hbelow, hwindows⟩ := hactive
  have hgrows := haccepted.grows
  have hcheckpoint := hdeclared.checkpoint
  have hactivity := haccepted.activity
  rw [hcount, Nat.mod_eq_of_lt block.timestamp_lt] at hactivity
  have hpast' : ∀ entry ∈ ds ++ [(block.timestamp, (⟨d.nonce, d.newLeafCount, d.blobVersionedHashes,
      d.newSubtreePeaks⟩ : DeclaredRecord))], entry.1 ≤ block.timestamp := by
    intro entry hmem
    rcases List.mem_append.mp hmem with hold | hnew
    · exact hpast entry hold
    · rw [List.mem_singleton.mp hnew]
  split at hactivity
  · obtain ⟨htime, hleaves⟩ := Prod.mk.inj hactivity
    refine ⟨hpast', htime.le, ?_, ?_⟩
    · rw [hcount, hleaves, Nat.sub_self]
      exact hpositive
    · intro first last hfirst
      rw [htime] at hfirst
      rw [appended_eq_zero last fun entry hmem => (hpast' entry hmem).trans_lt hfirst]
      exact Nat.zero_le _
  · obtain ⟨htime, hleaves⟩ := Prod.mk.inj hactivity
    refine ⟨hpast', ?_, ?_, ?_⟩
    · rwa [htime]
    · rw [hcount, hleaves]
      omega
    · intro first last hfirst
      rw [htime] at hfirst
      have hold := hwindows first last hfirst
      rw [appended_concat, hdeclared.latest, hcount, hleaves]
      split
      · change _ + (d.newLeafCount - s.leafCount) ≤ _
        omega
      · omega

end Active

theorem activity_invariant (hpositive : 1 ≤ dep.params.dormancyMinChunks) :
    StoreInvariant keccak256 dep fun block s log _ => Published keccak256 s log ∧
      Active dep.params.dormancyMinChunks block s (declarations log) where
  change {block s log _ _ _ out} hholds _ hrange hchange := by
    obtain ⟨hpublished, hactive⟩ := hholds
    refine ⟨hpublished.change hchange hrange _, ?_⟩
    have hread := recorded_append_events Event.declaration log block.timestamp out.events
    rcases hchange.publication with ⟨d, publisherSig, openings, equivalenceProof, rfl, haccepted⟩ |
      ⟨_, haccepted⟩ | ⟨hsame, _, hevents⟩
    · simp only [Call.inRange, Bool.and_eq_true, decide_eq_true_eq] at hrange
      obtain ⟨_, _, hevents, _⟩ := haccepted.counted hpublished.declared.peakCount hrange.2
      rw [declarations, hread, hevents]
      exact hactive.declare hpositive hpublished.declared haccepted hrange.2
    · have hnone : out.events.filterMap Event.declaration = [] := by
        rcases haccepted.events with ⟨_, _, hevents⟩ | ⟨_, hevents⟩
        · rw [hevents]
          rfl
        · rw [hevents]
          rfl
      rw [declarations, hread, hnone, List.map_nil, List.append_nil]
      exact hactive.of_same haccepted.leafCount haccepted.activity.1 haccepted.activity.2
    · rw [declarations, hread, List.filterMap_eq_nil_iff.mpr
        fun event hmem => Event.declaration_none (hevents event hmem), List.map_nil, List.append_nil]
      exact hactive.of_same hsame.leafCount hsame.activityTime hsame.activityLeafCount
  quiet {_ _ log _ _} sink entered hholds htransfer := by
    obtain ⟨hpublished, hactive⟩ := hholds
    refine ⟨hpublished.quiet sink entered htransfer, ?_⟩
    rw [declarations, recorded_append_transfers Event.declaration
      (fun event hevent => Event.declaration_none (Event.isIntent_of_isTransfer hevent)) log htransfer]
    exact hactive.of_same rfl rfl rfl
  advance hholds hle := by
    obtain ⟨hpublished, hpast, hcheckpointPast, hbelow, hwindows⟩ := hholds
    exact ⟨hpublished, fun d hmem => (hpast d hmem).trans hle, hcheckpointPast.trans hle, hbelow,
      hwindows⟩

theorem Reachable.active {world : World} (hreach : Reachable keccak256 dep world)
    (hpositive : 1 ≤ dep.params.dormancyMinChunks) :
    Active dep.params.dormancyMinChunks world.env world.state.store
      (declarations world.state.log) := by
  refine (hreach.holds (activity_invariant hpositive).preserves ?_).state.2
  intro block
  refine ⟨deployed_published block, ?_, Nat.mod_le _ _, hpositive, fun _ _ _ => Nat.zero_le _⟩
  intro d hmem
  cases hmem

theorem Paymaster.reclaim_dormant {pm : Paymaster} {balance checkpointTime : Nat} {sender : Address}
    {out : PaymasterOutcome}
    (hok : pm.reclaim dep.params block balance checkpointTime sender = .ok out) :
    checkpointTime + dep.params.dormancyWindow < block.timestamp := by
  simp only [Paymaster.reclaim, bind_eq_ok, revertIf_eq_ok, orPanic_eq_ok, checkedAdd_eq_ok,
    not_le] at hok
  obtain ⟨_, ⟨_, rfl⟩, _, htime, _⟩ := hok
  exact htime

/-- When a reclaim succeeds, fewer chunks than the threshold were appended in the window
that ends with it. -/
theorem dormancy_gate {world : World} (hreach : Reachable keccak256 dep world)
    (hpositive : 1 ≤ dep.params.dormancyMinChunks) {msg : Msg}
    {result : Chain × Option (Frame Chain Rest)}
    (hreclaim : world.state.callPaymaster dep world.env msg .reclaim = some result) :
    appended (declarations world.state.log) (world.env.timestamp - dep.params.dormancyWindow)
      world.env.timestamp < dep.params.dormancyMinChunks := by
  have hactive := hreach.active hpositive
  have hdormant : world.state.store.activityCheckpointTime + dep.params.dormancyWindow <
      world.env.timestamp := by
    unfold Chain.callPaymaster at hreclaim
    split at hreclaim
    · cases hreclaim
    · cases hdispatch : world.state.paymaster.dispatch dep.params world.env
        (world.state.paymasterBalance + msg.value) world.state.store.activityCheckpointTime msg
        .reclaim with
      | error e =>
          rw [hdispatch] at hreclaim
          cases hreclaim
      | ok out =>
          simp only [Paymaster.dispatch, bind_eq_ok, revertIf_eq_ok] at hdispatch
          obtain ⟨_, _, hok⟩ := hdispatch
          exact Paymaster.reclaim_dormant hok
  exact (hactive.windows _ _ (by omega)).trans_lt hactive.below

end

theorem dormancy_gate_dormant :
    (∃ result, dormantWorld.state.callPaymaster fundedDeployment dormantWorld.env
      (sampleMsg sampleDonor 0) .reclaim = some result) ∧
    appended (declarations dormantWorld.state.log) (32 - 10) 32 < 1 := by
  have hreclaim : dormantWorld.state.callPaymaster fundedDeployment dormantWorld.env
      (sampleMsg sampleDonor 0) .reclaim = some ((dormantWorld.state.callPaymaster
        fundedDeployment dormantWorld.env (sampleMsg sampleDonor 0) .reclaim).getD
          (dormantWorld.state, none)) := rfl
  exact ⟨⟨_, hreclaim⟩, dormancy_gate dormantWorld_reachable (by decide) hreclaim⟩

end Blobsitter.Contract
