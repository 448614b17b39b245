import Blobsitter.Contract.Distribution
import Blobsitter.Contract.Dataset

/-!
# The event log as the state

Every accepted intent leaves one event and moves its own nonce by one.  The
declarations in the log rebuild the dataset: replaying them from the empty state gives
the stored leaf count and peaks, so the arithmetic of the next declaration never panics.
-/

namespace Blobsitter.Contract

open Library
open Reference (Chunk Hash Address updateHeights peakHeights)

/-- What a `Declared` event says about the dataset. -/
structure DeclaredRecord where
  nonce : Nat
  newLeafCount : Nat
  blobVersionedHashes : List Hash
  newSubtreePeaks : List Hash

def Event.declaration : Event → Option DeclaredRecord
  | .declared nonce newLeafCount hashes roots _ _ => some ⟨nonce, newLeafCount, hashes, roots⟩
  | _ => none

def Event.appPointerIntent : Event → Option Hash
  | .appPointerSet _ pointer => some pointer
  | _ => none

def Event.successorIntent : Event → Option Address
  | .successorSet target => some target
  | _ => none

/-- The declarations of a log with their times, oldest first. -/
def declarations (log : List (Nat × Event)) : List (Nat × DeclaredRecord) :=
  recorded Event.declaration log

/-- The leaf count that the declarations end at. -/
def leafCountAfter (ds : List (Nat × DeclaredRecord)) : Nat :=
  match ds.getLast? with
  | some (_, d) => d.newLeafCount
  | none => 0

theorem leafCountAfter_concat (ds : List (Nat × DeclaredRecord)) (d : Nat × DeclaredRecord) :
    leafCountAfter (ds ++ [d]) = d.2.newLeafCount := by
  rw [leafCountAfter, List.getLast?_concat]

section

variable (keccak256 : ByteString → Hash)

/-- One declaration, replayed on peaks and leaf count. -/
def replayDeclaration (state : List Hash × Nat) (d : DeclaredRecord) :
    Checked (List Hash × Nat) := do
  let m ← checkedSub d.newLeafCount state.2
  let heights ← MMR.decompose state.2 m
  MMR.applyUpdate keccak256 state.1 state.2 d.newSubtreePeaks heights

/-- The declarations, replayed from the empty state. -/
def replayDeclarations (ds : List (Nat × DeclaredRecord)) : Checked (List Hash × Nat) :=
  ds.foldlM (fun state d => replayDeclaration keccak256 state d.2) ([], 0)

theorem replayDeclarations_concat {ds : List (Nat × DeclaredRecord)} {state : List Hash × Nat}
    (hreplay : replayDeclarations keccak256 ds = .ok state) (d : Nat × DeclaredRecord) :
    replayDeclarations keccak256 (ds ++ [d]) = replayDeclaration keccak256 state d.2 := by
  unfold replayDeclarations at hreplay ⊢
  rw [List.foldlM_append, hreplay, ok_bind, List.foldlM_cons]
  cases replayDeclaration keccak256 state d.2 with
  | error code => rfl
  | ok next => rfl

/-- The dataset is what the declarations make of the empty state. -/
structure Declared (s : Storage) (ds : List (Nat × DeclaredRecord)) : Prop where
  nonce : s.declarationNonce = ds.length
  nonces : ∀ (k : Nat) d, ds[k]? = some d → d.2.nonce = k
  growing : ∀ (k : Nat) d, ds[k]? = some d → leafCountAfter (ds.take k) < d.2.newLeafCount
  latest : leafCountAfter ds = s.leafCount
  replayed : replayDeclarations keccak256 ds = .ok (s.peaks, s.leafCount)
  peakCount : s.peaks.length = (peakHeights s.leafCount).length
  fits : s.leafCount < 2 ^ 64
  nonce_le : s.declarationNonce ≤ s.leafCount
  checkpoint : s.activityCheckpointLeafCount ≤ s.leafCount

/-- Storage is what the log's intents make of the empty state. -/
structure Published (s : Storage) (log : List (Nat × Event)) : Prop where
  declared : Declared keccak256 s (declarations log)
  appPointerNonce : s.appPointerNonce = (recorded Event.appPointerIntent log).length
  successorNonce : s.successorNonce = (recorded Event.successorIntent log).length
  successor : recorded Event.successorIntent log = [] ∧ s.successor = zeroAddress ∨
    ∃ time target, recorded Event.successorIntent log = [(time, target)] ∧
      target ≠ zeroAddress ∧ s.successor = target

end

/-- The fields that only signed intents write. -/
structure Storage.SamePublication (s next : Storage) : Prop where
  leafCount : next.leafCount = s.leafCount
  peaks : next.peaks = s.peaks
  declarationNonce : next.declarationNonce = s.declarationNonce
  appPointerNonce : next.appPointerNonce = s.appPointerNonce
  successorNonce : next.successorNonce = s.successorNonce
  successor : next.successor = s.successor
  activityTime : next.activityCheckpointTime = s.activityCheckpointTime
  activityLeafCount : next.activityCheckpointLeafCount = s.activityCheckpointLeafCount

/-- How many intents of each nonce space a call carries. -/
def Call.intents : Call → Nat × Nat × Nat
  | .declareFor _ _ _ _ => (1, 0, 0)
  | .setAppPointer _ _ _ _ => (0, 1, 0)
  | .setSuccessor _ _ _ _ => (0, 0, 1)
  | _ => (0, 0, 0)

/-- Events of signed intents. -/
def Event.isIntent : Event → Bool
  | .declared _ _ _ _ _ _ => true
  | .appPointerSet _ _ => true
  | .successorSet _ => true
  | _ => false

section

variable {keccak256 : ByteString → Hash} {dep : Deployment} {block : Block} {msg : Msg}
variable {s : Storage} {log : List (Nat × Event)}

theorem Storage.SamePublication.refl : s.SamePublication s :=
  ⟨rfl, rfl, rfl, rfl, rfl, rfl, rfl, rfl⟩

theorem Event.declaration_none {event : Event} (hevent : event.isIntent = false) :
    event.declaration = none := by
  cases event <;> first | rfl | cases hevent

theorem Event.appPointerIntent_none {event : Event} (hevent : event.isIntent = false) :
    event.appPointerIntent = none := by
  cases event <;> first | rfl | cases hevent

theorem Event.successorIntent_none {event : Event} (hevent : event.isIntent = false) :
    event.successorIntent = none := by
  cases event <;> first | rfl | cases hevent

theorem Event.isIntent_of_isTransfer {event : Event} (hevent : event.isTransfer = true) :
    event.isIntent = false := by
  cases event <;> first | rfl | cases hevent

/-- An accepted call is a declaration, sets a pointer, or leaves what is published. -/
theorem Change.publication {call : Call} {out : Outcome}
    (hchange : Change keccak256 dep block msg s call out) :
    (∃ d publisherSig openings equivalenceProof,
      call = .declareFor d publisherSig openings equivalenceProof ∧
      DeclareAccepted keccak256 dep block msg s d publisherSig openings equivalenceProof out) ∨
    ((∃ nonce deadline pointer sig, call = .setAppPointer nonce deadline pointer sig) ∨
      ∃ nonce deadline target sig, call = .setSuccessor nonce deadline target sig) ∧
      PointerAccepted msg s out ∨
    s.SamePublication out.storage ∧ call.intents = (0, 0, 0) ∧
      ∀ event ∈ out.events, event.isIntent = false := by
  cases hchange with
  | declared _ haccepted => exact Or.inl ⟨_, _, _, _, rfl, haccepted⟩
  | pointed _ haccepted hcall => exact Or.inr (Or.inl ⟨hcall, haccepted⟩)
  | noted _ hevent =>
      rcases hevent with ⟨url, rfl, rfl⟩ | ⟨rfl, rfl⟩
      · refine Or.inr (Or.inr ⟨.refl, rfl, ?_⟩)
        intro event hmem
        rw [List.mem_singleton.mp hmem]
        rfl
      · refine Or.inr (Or.inr ⟨.refl, rfl, ?_⟩)
        intro event hmem
        rw [List.mem_singleton.mp hmem]
        rfl
  | proven _ hcall =>
      have hintents : call.intents = (0, 0, 0) := by
        rcases hcall with ⟨_, rfl⟩ | ⟨_, _, _, rfl⟩
        · rfl
        · rfl
      refine Or.inr (Or.inr ⟨⟨rfl, rfl, rfl, rfl, rfl, rfl, rfl, rfl⟩, hintents, ?_⟩)
      intro event hmem
      rw [List.mem_singleton.mp hmem]
      rfl
  | timedOut =>
      refine Or.inr (Or.inr ⟨⟨rfl, rfl, rfl, rfl, rfl, rfl, rfl, rfl⟩, rfl, ?_⟩)
      intro event hmem
      rcases List.mem_cons.mp hmem with rfl | hlast
      · rfl
      · rw [List.mem_singleton.mp hlast]
        rfl
  | claimed => exact Or.inr (Or.inr ⟨⟨rfl, rfl, rfl, rfl, rfl, rfl, rfl, rfl⟩, rfl, by simp⟩)
  | _ =>
      refine Or.inr (Or.inr ⟨⟨rfl, rfl, rfl, rfl, rfl, rfl, rfl, rfl⟩, rfl, ?_⟩)
      intro event hmem
      rw [List.mem_singleton.mp hmem]
      rfl

/-! ## Along a run -/

theorem Declared.of_same {ds : List (Nat × DeclaredRecord)} (hdeclared : Declared keccak256 s ds)
    {next : Storage} (hnonce : next.declarationNonce = s.declarationNonce)
    (hleafCount : next.leafCount = s.leafCount) (hpeaks : next.peaks = s.peaks)
    (hcheckpoint : next.activityCheckpointLeafCount = s.activityCheckpointLeafCount) :
    Declared keccak256 next ds := by
  obtain ⟨hcount, hnonces, hgrowing, hlatest, hreplayed, hpeakCount, hfits, hle, hactive⟩ :=
    hdeclared
  refine ⟨?_, hnonces, hgrowing, ?_, ?_, ?_, ?_, ?_, ?_⟩
  · rwa [hnonce]
  · rwa [hleafCount]
  · rwa [hpeaks, hleafCount]
  · rwa [hpeaks, hleafCount]
  · rwa [hleafCount]
  · rwa [hnonce, hleafCount]
  · rwa [hcheckpoint, hleafCount]

theorem take_succ_concat {ds : List (Nat × DeclaredRecord)} {k : Nat} {d : Nat × DeclaredRecord}
    (hd : ds[k]? = some d) : ds.take (k + 1) = ds.take k ++ [d] := by
  rw [List.take_add_one, hd]
  rfl

/-- The leaf count grows along the declarations. -/
theorem Declared.leafCountAfter_le {ds : List (Nat × DeclaredRecord)}
    (hdeclared : Declared keccak256 s ds) (k : Nat) : leafCountAfter (ds.take k) ≤ s.leafCount := by
  rcases Nat.lt_or_ge k ds.length with hk | hk
  · have hd := List.getElem?_eq_getElem hk
    have hgrows := hdeclared.growing k _ hd
    have hrest := hdeclared.leafCountAfter_le (k + 1)
    rw [take_succ_concat hd, leafCountAfter_concat] at hrest
    exact hgrows.le.trans hrest
  · rw [List.take_of_length_le hk, hdeclared.latest]
termination_by ds.length - k

/-- The next declaration extends the list by one. -/
theorem Declared.concat {ds : List (Nat × DeclaredRecord)} (hdeclared : Declared keccak256 s ds)
    {d : Declaration} {publisherSig : ByteString} {openings : List BlobOpening}
    {equivalenceProof : ByteString} {out : Outcome}
    (haccepted : DeclareAccepted keccak256 dep block msg s d publisherSig openings equivalenceProof
      out) (hfits : d.newLeafCount < 2 ^ 64) (time : Nat) :
    Declared keccak256 out.storage
      (ds ++ [(time, ⟨d.nonce, d.newLeafCount, d.blobVersionedHashes, d.newSubtreePeaks⟩)]) := by
  obtain ⟨hcount, hpeaks, _, _, happly⟩ := haccepted.counted hdeclared.peakCount hfits
  have hgrows := haccepted.grows
  have hnonce := haccepted.nextNonce
  have hle := hdeclared.nonce_le
  have hbound : s.leafCount + (d.newLeafCount - s.leafCount) < 2 ^ 64 := by omega
  -- an index is an old one or the last
  have hindex : ∀ {k : Nat} {entry : Nat × DeclaredRecord}, (ds ++ [(time,
      (⟨d.nonce, d.newLeafCount, d.blobVersionedHashes, d.newSubtreePeaks⟩ : DeclaredRecord))])[k]? =
        some entry → k < ds.length ∧ ds[k]? = some entry ∨ k = ds.length ∧
          entry.2 = ⟨d.nonce, d.newLeafCount, d.blobVersionedHashes, d.newSubtreePeaks⟩ := by
    intro k entry hentry
    rcases Nat.lt_or_ge k ds.length with hlt | hge
    · rw [List.getElem?_append_left hlt] at hentry
      exact Or.inl ⟨hlt, hentry⟩
    · rw [List.getElem?_append_right hge, List.getElem?_singleton] at hentry
      split at hentry
      · rw [← Option.some.inj hentry]
        exact Or.inr ⟨by omega, rfl⟩
      · cases hentry
  refine ⟨?_, ?_, ?_, ?_, ?_, ?_, ?_, ?_, ?_⟩
  · rw [hnonce, List.length_append, hdeclared.nonce]
    rfl
  · intro k entry hentry
    rcases hindex hentry with ⟨_, hold⟩ | ⟨rfl, hnew⟩
    · exact hdeclared.nonces k entry hold
    · rw [hnew, ← hdeclared.nonce]
      exact haccepted.nonce
  · intro k entry hentry
    rcases hindex hentry with ⟨hlt, hold⟩ | ⟨rfl, hnew⟩
    · rw [List.take_append_of_le_length hlt.le]
      exact hdeclared.growing k entry hold
    · rw [hnew, List.take_left, hdeclared.latest]
      exact hgrows
  · rw [leafCountAfter_concat, hcount]
  · rw [replayDeclarations_concat keccak256 hdeclared.replayed]
    unfold replayDeclaration
    refine bind_eq_ok.mpr ⟨_, checkedSub_ok hgrows.le, ?_⟩
    refine bind_eq_ok.mpr ⟨_, MMR.decompose_eq_heights hbound, ?_⟩
    rw [happly, hcount]
  · rw [hpeaks, hcount]
  · rwa [hcount]
  · rw [hnonce, hcount]
    omega
  · have hactivity := congrArg Prod.snd haccepted.activity
    simp only at hactivity
    rw [hactivity]
    split
    · exact le_rfl
    · exact haccepted.checkpointed

namespace Published

theorem of_same (hpublished : Published keccak256 s log) {next : Storage}
    {newLog : List (Nat × Event)} (hsame : s.SamePublication next)
    (hread : ∀ {α : Type} (read : Event → Option α),
      (∀ event, event.isIntent = false → read event = none) →
      recorded read newLog = recorded read log) : Published keccak256 next newLog := by
  have hdeclarations := hread Event.declaration fun _ => Event.declaration_none
  have hpointers := hread Event.appPointerIntent fun _ => Event.appPointerIntent_none
  have hsuccessors := hread Event.successorIntent fun _ => Event.successorIntent_none
  refine ⟨?_, ?_, ?_, ?_⟩
  · rw [declarations, hdeclarations]
    exact hpublished.declared.of_same hsame.declarationNonce hsame.leafCount hsame.peaks
      hsame.activityLeafCount
  · rw [hsame.appPointerNonce, hpointers]
    exact hpublished.appPointerNonce
  · rw [hsame.successorNonce, hsuccessors]
    exact hpublished.successorNonce
  · rw [hsame.successor, hsuccessors]
    exact hpublished.successor

theorem declare (hpublished : Published keccak256 s log) {d : Declaration}
    {publisherSig : ByteString} {openings : List BlobOpening} {equivalenceProof : ByteString}
    {out : Outcome} (haccepted : DeclareAccepted keccak256 dep block msg s d publisherSig openings
      equivalenceProof out) (hfits : d.newLeafCount < 2 ^ 64) (time : Nat) :
    Published keccak256 out.storage (log ++ out.events.map fun event => (time, event)) := by
  obtain ⟨_, _, hevents, _, _⟩ := haccepted.counted hpublished.declared.peakCount hfits
  obtain ⟨hpointerNonce, hsuccessorNonce, hsuccessor⟩ := haccepted.otherNonces
  have hread : ∀ {α : Type} (read : Event → Option α),
      recorded read (log ++ out.events.map fun event => (time, event)) = recorded read log ++
        ([Event.declared d.nonce d.newLeafCount d.blobVersionedHashes d.newSubtreePeaks d.appPointer
          msg.sender].filterMap read).map fun found => (time, found) := by
    intro α read
    rw [recorded_append_events, hevents]
  have hpointers := (hread Event.appPointerIntent).trans (List.append_nil _)
  have hsuccessors := (hread Event.successorIntent).trans (List.append_nil _)
  refine ⟨?_, ?_, ?_, ?_⟩
  · rw [declarations, hread]
    exact hpublished.declared.concat haccepted hfits time
  · rw [hpointerNonce, hpointers]
    exact hpublished.appPointerNonce
  · rw [hsuccessorNonce, hsuccessors]
    exact hpublished.successorNonce
  · rw [hsuccessor, hsuccessors]
    exact hpublished.successor

/-- A pointer intent is recorded, and the successor's only once. -/
theorem point (hpublished : Published keccak256 s log) {out : Outcome}
    (haccepted : PointerAccepted msg s out) (time : Nat) :
    Published keccak256 out.storage (log ++ out.events.map fun event => (time, event)) := by
  have hdeclared := hpublished.declared.of_same haccepted.declarationNonce haccepted.leafCount
    haccepted.peaks haccepted.activity.2
  have hread : ∀ {α : Type} (read : Event → Option α),
      recorded read (log ++ out.events.map fun event => (time, event)) =
        recorded read log ++ (out.events.filterMap read).map fun found => (time, found) :=
    fun read => recorded_append_events read log time out.events
  rcases haccepted.intent with ⟨pointer, hevents, hpointer, hsuccessorNonce, hsuccessor⟩ |
    ⟨target, hevents, hpointer, hsuccessorNonce, hfree, htarget, hsuccessor⟩
  · rw [hevents] at hread ⊢
    have hsuccessors := (hread Event.successorIntent).trans (List.append_nil _)
    refine ⟨?_, ?_, ?_, ?_⟩
    · rw [declarations, hread]
      exact (List.append_nil (declarations log)).symm ▸ hdeclared
    · rw [hread, List.length_append, hpointer, hpublished.appPointerNonce]
      rfl
    · rw [hsuccessors, hsuccessorNonce]
      exact hpublished.successorNonce
    · rw [hsuccessors, hsuccessor]
      exact hpublished.successor
  · rw [hevents] at hread ⊢
    have hpointers := (hread Event.appPointerIntent).trans (List.append_nil _)
    refine ⟨?_, ?_, ?_, ?_⟩
    · rw [declarations, hread]
      exact (List.append_nil (declarations log)).symm ▸ hdeclared
    · rw [hpointers, hpointer]
      exact hpublished.appPointerNonce
    · rw [hread, List.length_append, hsuccessorNonce, hpublished.successorNonce]
      rfl
    · rcases hpublished.successor with ⟨hnone, _⟩ | ⟨_, old, _, hold, hset⟩
      · right
        refine ⟨time, target, ?_, htarget, hsuccessor⟩
        rw [hread, hnone]
        rfl
      · rw [hfree] at hset
        exact absurd hset.symm hold

/-- Every accepted call keeps storage and log together. -/
theorem change (hpublished : Published keccak256 s log) {call : Call} {out : Outcome}
    (hchange : Change keccak256 dep block msg s call out) (hrange : call.inRange = true) (time : Nat) :
    Published keccak256 out.storage (log ++ out.events.map fun event => (time, event)) := by
  rcases hchange.publication with ⟨d, publisherSig, openings, equivalenceProof, rfl, haccepted⟩ |
    ⟨_, haccepted⟩ | ⟨hsame, _, hevents⟩
  · simp only [Call.inRange, Bool.and_eq_true, decide_eq_true_eq] at hrange
    exact hpublished.declare haccepted hrange.2 time
  · exact hpublished.point haccepted time
  · refine hpublished.of_same hsame fun read hnone => ?_
    rw [recorded_append_events, List.filterMap_eq_nil_iff.mpr
      fun event hmem => hnone event (hevents event hmem)]
    exact List.append_nil _

theorem quiet (hpublished : Published keccak256 s log) (sink : PayoutSink) (entered : Bool)
    {extra : List (Nat × Event)} (htransfer : ∀ entry ∈ extra, entry.2.isTransfer = true) :
    Published keccak256 { s with sink := sink, entered := entered } (log ++ extra) := by
  have hsame : s.SamePublication { s with sink := sink, entered := entered } :=
    ⟨rfl, rfl, rfl, rfl, rfl, rfl, rfl, rfl⟩
  refine hpublished.of_same hsame fun read hnone => ?_
  exact recorded_append_transfers read
    (fun event hevent => hnone event (Event.isIntent_of_isTransfer hevent)) log htransfer

end Published

theorem publication_invariant :
    StoreInvariant keccak256 dep fun _ s log _ => Published keccak256 s log where
  change hpublished _ hrange hchange := hpublished.change hchange hrange _
  quiet sink entered hpublished htransfer := hpublished.quiet sink entered htransfer
  advance hpublished _ := hpublished

theorem deployed_published (block : Block) :
    Published keccak256 (Chain.deployed dep block).store (Chain.deployed dep block).log := by
  have hpeaks : ([] : List Hash).length = (peakHeights 0).length := rfl
  refine ⟨⟨rfl, ?_, ?_, rfl, rfl, hpeaks, show 0 < 2 ^ 64 by decide, le_rfl, le_rfl⟩,
    rfl, rfl, Or.inl ⟨rfl, rfl⟩⟩
  · intro k d hd
    cases hd
  · intro k d hd
    cases hd

theorem Reachable.published {world : World} (hreach : Reachable keccak256 dep world) :
    Published keccak256 world.state.store world.state.log :=
  (hreach.holds publication_invariant.preserves deployed_published).state

end

end Blobsitter.Contract
