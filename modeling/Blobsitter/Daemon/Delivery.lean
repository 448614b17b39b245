import Blobsitter.Daemon.CrashConsistency

/-!
# Deliveries to the ingest pipeline

Runs of calls with any events, in any order, over any sources.  A call that does not
commit leaves store and files alone; a call that commits appends the chunks of the one
event that is owed.  So the file is the chunks of the committed events in nonce order,
and the frontier is the mountain range built over it leaf by leaf.
-/

namespace Blobsitter.Daemon

open Library
open Reference (Chunk Hash Mmr updateSubtreeRoots packed streamPeaks)

/-- The part of an ingestor that a call may change, and the files under it. -/
structure Ingestor where
  store : Store
  disk : Disk DataFile

/-- A call works on the ingestor and returns, fails or panics. -/
abbrev IngestM := ExceptT IngestFault (StateM Ingestor)

/-- One event as the follower delivers it, and what its sources answer then. -/
structure Delivery where
  event : DeclaredEvent
  sources : List BlobSource

namespace Ingestor

section

variable (keccak256 : ByteString → Hash) (versionedHash : RawBlob → Except VerifyError Hash)
variable (codec : Codec Frontier)

/-- `commit_declaration` on writes that succeed: the append, the frontier file, and last
the frontier in memory. -/
def commitDeclaration (nextNonce : Nat) (chunks : List Chunk) (mmr : Mmr) : IngestM Unit := do
  let first := (← get).store.frontier.leafCount
  modify fun self => { self with disk := runAll (ChunkFile.append first chunks) self.disk }
  let next := nextFrontier nextNonce mmr
  modify fun self => { self with disk := runAll (next.storeAtomic codec) self.disk }
  modify fun self => { self with store := ⟨next⟩ }

/-- `Ingestor::ingest`. -/
def ingest (delivery : Delivery) : IngestM Bool := do
  let event := delivery.event
  let expected := (← get).store.frontier.nonce
  if event.nonce < expected then
    return false
  else if event.nonce > expected then
    throw (.returned (.nonceGap expected event.nonce))
  else do
    let (chunks, mmr) ←
      liftM (verified keccak256 versionedHash delivery.sources (← get).store event)
    commitDeclaration codec event.nextNonce chunks mmr
    return true

/-- What a call returns, and the ingestor it leaves. -/
def call (ingestor : Ingestor) (delivery : Delivery) : Except IngestFault Bool × Ingestor :=
  (ingest keccak256 versionedHash codec delivery).run.run ingestor

/-- One call after the other, whatever they return. -/
def deliver (ingestor : Ingestor) : List Delivery → List (Except IngestFault Bool) × Ingestor
  | [] => ([], ingestor)
  | delivery :: rest =>
      let (result, next) := ingestor.call keccak256 versionedHash codec delivery
      let (results, last) := deliver next rest
      (result :: results, last)

end

section

variable {keccak256 : ByteString → Hash} {versionedHash : RawBlob → Except VerifyError Hash}
variable {codec : Codec Frontier} {ingestor : Ingestor} {delivery : Delivery}

theorem run_get_bind {α : Type} (rest : Ingestor → IngestM α) :
    (get >>= rest).run.run ingestor = (rest ingestor).run.run ingestor := rfl

theorem run_liftM_bind {α β : Type} (x : Except IngestFault α) (rest : α → IngestM β) :
    ((liftM x : IngestM α) >>= rest).run.run ingestor =
      match x with
      | .ok a => (rest a).run.run ingestor
      | .error fault => (.error fault, ingestor) := by
  cases x with
  | ok a => rfl
  | error fault => rfl

/-- The call is the pure `ingest`, and a failed one changes nothing. -/
theorem call_eq :
    ingestor.call keccak256 versionedHash codec delivery =
      match Daemon.ingest keccak256 versionedHash codec delivery.sources ingestor.store
        ingestor.disk delivery.event with
      | .ok (committed, store, disk) => (.ok committed, ⟨store, disk⟩)
      | .error fault => (.error fault, ingestor) := by
  unfold call ingest Daemon.ingest
  simp only
  rw [run_get_bind]
  by_cases hold : delivery.event.nonce < ingestor.store.frontier.nonce
  · rw [if_pos hold, if_pos hold]
    rfl
  · rw [if_neg hold, if_neg hold]
    by_cases hgap : delivery.event.nonce > ingestor.store.frontier.nonce
    · rw [if_pos hgap, if_pos hgap]
      rfl
    · rw [if_neg hgap, if_neg hgap, run_get_bind, run_liftM_bind]
      cases verified keccak256 versionedHash delivery.sources ingestor.store delivery.event with
      | error fault => rfl
      | ok found => rfl

/-- Any other end of a call than a commit changes nothing. -/
theorem call_unchanged
    (hresult : (ingestor.call keccak256 versionedHash codec delivery).1 ≠ .ok true) :
    (ingestor.call keccak256 versionedHash codec delivery).2 = ingestor := by
  rw [call_eq] at hresult ⊢
  cases hingest : Daemon.ingest keccak256 versionedHash codec delivery.sources ingestor.store
      ingestor.disk delivery.event with
  | error fault => rfl
  | ok outcome =>
      obtain ⟨committed, store, disk⟩ := outcome
      cases committed with
      | false =>
          obtain ⟨rfl, rfl⟩ := ingest_eq_redelivery hingest
          rfl
      | true =>
          rw [hingest] at hresult
          exact absurd rfl hresult

/-- A commit is of the event that is owed, verified and written. -/
theorem call_commit
    (hresult : (ingestor.call keccak256 versionedHash codec delivery).1 = .ok true) :
    delivery.event.nonce = ingestor.store.frontier.nonce ∧ ∃ chunks mmr,
      verified keccak256 versionedHash delivery.sources ingestor.store delivery.event =
        .ok (chunks, mmr) ∧
      (ingestor.call keccak256 versionedHash codec delivery).2 =
        ⟨(ingestor.store.commitDeclaration codec ingestor.disk delivery.event.nextNonce chunks
            mmr).1,
          (ingestor.store.commitDeclaration codec ingestor.disk delivery.event.nextNonce chunks
            mmr).2⟩ := by
  rw [call_eq] at hresult ⊢
  cases hingest : Daemon.ingest keccak256 versionedHash codec delivery.sources ingestor.store
      ingestor.disk delivery.event with
  | error fault =>
      rw [hingest] at hresult
      cases hresult
  | ok outcome =>
      obtain ⟨committed, store, disk⟩ := outcome
      rw [hingest] at hresult
      obtain rfl : committed = true := Except.ok.inj hresult
      obtain ⟨hnonce, chunks, mmr, hverified, hcommit⟩ := ingest_eq_commit hingest
      refine ⟨hnonce, chunks, mmr, hverified, ?_⟩
      rw [← hcommit]

theorem call_verified {chunks : List Chunk} {mmr : Mmr}
    (hnonce : delivery.event.nonce = ingestor.store.frontier.nonce)
    (hverified : verified keccak256 versionedHash delivery.sources ingestor.store delivery.event =
      .ok (chunks, mmr)) :
    ingestor.call keccak256 versionedHash codec delivery = (.ok true,
      ⟨(ingestor.store.commitDeclaration codec ingestor.disk delivery.event.nextNonce chunks mmr).1,
        (ingestor.store.commitDeclaration codec ingestor.disk delivery.event.nextNonce chunks
          mmr).2⟩) := by
  rw [call_eq, ingest_commit hnonce hverified]

theorem call_redelivery (hold : delivery.event.nonce < ingestor.store.frontier.nonce) :
    ingestor.call keccak256 versionedHash codec delivery = (.ok false, ingestor) := by
  rw [call_eq, ingest_redelivery hold]

end

/-! ## What an ingestor holds -/

/-- Committed events with their chunks, oldest first. -/
abbrev Accepted := List (DeclaredEvent × List Chunk)

/-- The chunks of the committed events, in their order. -/
def stream (accepted : Accepted) : List Chunk := accepted.flatMap Prod.snd

@[simp]
theorem stream_concat (accepted : Accepted) (event : DeclaredEvent) (chunks : List Chunk) :
    stream (accepted ++ [(event, chunks)]) = stream accepted ++ chunks := by
  simp [stream]

section

variable (keccak256 : ByteString → Hash) (versionedHash : RawBlob → Except VerifyError Hash)

/-- The chunks are those of the event: as many as it adds to the count, packed in blobs of
its versioned hashes, and hashing to its subtree roots. -/
structure Carries (event : DeclaredEvent) (n0 : Nat) (chunks : List Chunk) : Prop where
  grows : n0 < event.newLeafCount
  count : n0 + chunks.length = event.newLeafCount
  blobs : ∃ blobs : List RawBlob, List.Forall₂ (fun vh blob => versionedHash blob = .ok vh)
    event.blobVersionedHashes blobs ∧ blobs.map Subtype.val = packed chunks
  roots : updateSubtreeRoots keccak256 n0 chunks = .ok event.newSubtreePeaks

/-- The ingestor holds exactly the chunks of the committed events: the nonces count up
from zero, the file is the chunks in that order, and the frontier is the state that
appends them one by one. -/
structure Ingested (accepted : Accepted) (ingestor : Ingestor) : Prop where
  nonces : ∀ (k : Nat) event chunks, accepted[k]? = some (event, chunks) →
    event.nonce = k ∧ Carries keccak256 versionedHash event (stream (accepted.take k)).length chunks
  fits : (stream accepted).length < 2 ^ 64
  file : ingestor.disk .chunks = some (packWords (stream accepted))
  built : ∃ mmr, Mmr.new.appendLeaves keccak256 (stream accepted) = .ok mmr ∧
    ingestor.store.frontier = nextFrontier accepted.length mmr

/-- The committed events of a run, by what its calls returned. -/
def committed (deliveries : List Delivery) (results : List (Except IngestFault Bool)) :
    List DeclaredEvent :=
  ((deliveries.zip results).filter fun pair => pair.2.toOption == some true).map
    fun pair => pair.1.event

end

theorem committed_cons_true {delivery : Delivery} {deliveries : List Delivery}
    {result : Except IngestFault Bool} {results : List (Except IngestFault Bool)}
    (hresult : result = .ok true) :
    committed (delivery :: deliveries) (result :: results) =
      delivery.event :: committed deliveries results := by
  rw [hresult]
  rfl

theorem committed_cons_other {delivery : Delivery} {deliveries : List Delivery}
    {result : Except IngestFault Bool} {results : List (Except IngestFault Bool)}
    (hresult : result ≠ .ok true) :
    committed (delivery :: deliveries) (result :: results) = committed deliveries results := by
  cases result with
  | error fault => rfl
  | ok returned =>
      cases returned with
      | false => rfl
      | true => exact absurd rfl hresult

section

variable {keccak256 : ByteString → Hash} {versionedHash : RawBlob → Except VerifyError Hash}
variable {codec : Codec Frontier} {ingestor : Ingestor} {delivery : Delivery} {accepted : Accepted}

theorem Carries.of_verified {store : Store} {sources : List BlobSource} {event : DeclaredEvent}
    {chunks : List Chunk} {mmr : Mmr}
    (hverified : verified keccak256 versionedHash sources store event = .ok (chunks, mmr)) :
    Carries keccak256 versionedHash event store.frontier.leafCount chunks := by
  have hchecked := verified_eq_ok hverified
  have hgrows := hchecked.grows
  have hcount := hchecked.count
  obtain ⟨blobs, hblobs, hpacked⟩ := verified_blobs hverified
  exact ⟨hgrows, by omega, ⟨blobs, hblobs.imp fun _ _ hblob => hblob.1, hpacked⟩, hchecked.roots⟩

namespace Ingested

/-- The frontier in closed form. -/
theorem frontier_eq (hingested : Ingested keccak256 versionedHash accepted ingestor) :
    ingestor.store.frontier =
      ⟨accepted.length, (stream accepted).length, streamPeaks keccak256 (stream accepted)⟩ := by
  obtain ⟨mmr, hmmr, hfrontier⟩ := hingested.built
  have hfits := hingested.fits
  obtain ⟨same, hsame, hcommits⟩ := (Mmr.new_commitsTo keccak256).appendLeaves keccak256
    (stream accepted) (by rw [List.length_nil]; omega)
  rw [List.nil_append] at hcommits
  obtain rfl : mmr = same := Except.ok.inj (hmmr.symm.trans hsame)
  rw [hfrontier, nextFrontier, hcommits.leafCount_eq, hcommits.peakList_eq _ hfits]

/-- Every event brings a chunk. -/
theorem length_le (hingested : Ingested keccak256 versionedHash accepted ingestor) :
    accepted.length ≤ (stream accepted).length := by
  have hpos : ∀ added ∈ accepted.map fun pair => pair.2.length, 1 ≤ added := by
    intro added hadded
    obtain ⟨⟨event, chunks⟩, hmem, rfl⟩ := List.mem_map.mp hadded
    obtain ⟨k, hk⟩ := List.mem_iff_getElem?.mp hmem
    obtain ⟨_, hcarries⟩ := hingested.nonces k event chunks hk
    have hgrows := hcarries.grows
    have hcount := hcarries.count
    change 1 ≤ chunks.length
    omega
  rw [stream, List.length_flatMap, ← List.length_map (fun pair => pair.2.length)]
  exact List.length_le_sum_of_one_le _ hpos

/-- Past the committed events the list gains the next one. -/
theorem concat_getElem? {event : DeclaredEvent} {chunks : List Chunk} {k : Nat}
    {entry : DeclaredEvent × List Chunk}
    (hentry : (accepted ++ [(event, chunks)])[k]? = some entry) :
    k < accepted.length ∧ accepted[k]? = some entry ∨
      k = accepted.length ∧ entry = (event, chunks) := by
  rcases Nat.lt_or_ge k accepted.length with hlt | hge
  · rw [List.getElem?_append_left hlt] at hentry
    exact Or.inl ⟨hlt, hentry⟩
  · rw [List.getElem?_append_right hge, List.getElem?_singleton] at hentry
    split at hentry
    · exact Or.inr ⟨by omega, (Option.some.inj hentry).symm⟩
    · cases hentry

/-- An empty directory opens to an ingestor that holds nothing. -/
theorem opened {disk left : Disk DataFile} {store : Store}
    (hfresh : disk (.state .frontier) = none) (hempty : ChunkFile.data disk = [])
    (hopen : Store.open codec disk = .ok (store, left)) :
    Ingested keccak256 versionedHash [] ⟨store, left⟩ := by
  obtain ⟨loaded, hload, hfrontier, _, _, _, rfl⟩ := Store.open_eq_ok.mp hopen
  rw [Frontier.load, hfresh] at hload
  obtain rfl := Except.ok.inj hload
  refine ⟨fun k event chunks hnone => ?_, Nat.two_pow_pos 64, ?_, Mmr.new, rfl, ?_⟩
  · cases hnone
  · simp only [Function.update_self, hempty, List.take_nil]
    rfl
  · rw [Option.getD_none] at hfrontier
    exact hfrontier

/-- A commit adds its event and the chunks. -/
theorem commit (hingested : Ingested keccak256 versionedHash accepted ingestor)
    {sources : List BlobSource} {event : DeclaredEvent} {chunks : List Chunk} {mmr : Mmr}
    (hnonce : event.nonce = ingestor.store.frontier.nonce)
    (hverified : verified keccak256 versionedHash sources ingestor.store event =
      .ok (chunks, mmr)) :
    Ingested keccak256 versionedHash (accepted ++ [(event, chunks)])
      ⟨(ingestor.store.commitDeclaration codec ingestor.disk event.nextNonce chunks mmr).1,
        (ingestor.store.commitDeclaration codec ingestor.disk event.nextNonce chunks mmr).2⟩ := by
  have hfrontier := hingested.frontier_eq
  have hle := hingested.length_le
  have hfits := hingested.fits
  have hcarries := Carries.of_verified hverified
  have hupdate := (verified_eq_ok hverified).update
  have hcount := (verified_eq_ok hverified).count
  have hlt := event.newLeafCount_lt
  rw [hfrontier] at hcarries hupdate hcount hnonce
  simp only at hcarries hupdate hcount hnonce
  have hgrows := hcarries.grows
  have hsum := hcarries.count
  have hne : chunks ≠ [] := by
    rintro rfl
    rw [List.length_nil] at hsum
    omega
  have hbound : (stream accepted ++ chunks).length < 2 ^ 64 := by
    rw [List.length_append]
    omega
  -- the update is the appends of its chunks, one by one
  obtain ⟨before, hbefore, happlied⟩ := hupdate
  obtain ⟨same, hsame, hcommits⟩ := Mmr.fromState_streamPeaks keccak256 hfits
  obtain rfl : before = same := Except.ok.inj (hbefore.symm.trans hsame)
  obtain ⟨roots, next, hroots, hnext, hextends⟩ := hcommits.applyUpdate keccak256 hne
    (by rw [← List.length_append]; exact hbound)
  obtain rfl : event.newSubtreePeaks = roots := Except.ok.inj (hcarries.roots.symm.trans hroots)
  rw [← hcount, hnext] at happlied
  obtain rfl := Except.ok.inj happlied
  obtain ⟨leafwise, hleafwise, hbuilt⟩ := (Mmr.new_commitsTo keccak256).appendLeaves keccak256
    (stream accepted ++ chunks) (by rw [List.length_nil]; omega)
  rw [List.nil_append] at hbuilt
  obtain rfl := hbuilt.unique keccak256 hextends
  have hlen : (packWords (stream accepted)).length = ingestor.store.frontier.leafCount * 31 := by
    rw [packWords_length, hfrontier]
    exact Nat.mul_comm _ _
  refine ⟨?_, ?_, ?_, ?_⟩
  · intro k entry added hentry
    rcases concat_getElem? hentry with ⟨hk, hold⟩ | ⟨rfl, hnew⟩
    · rw [List.take_append_of_le_length hk.le]
      exact hingested.nonces k entry added hold
    · obtain ⟨rfl, rfl⟩ := Prod.mk.inj hnew
      rw [List.take_left]
      exact ⟨hnonce, hcarries⟩
  · rw [stream_concat]
    exact hbound
  · change runAll _ ingestor.disk _ = _
    rw [Store.runAll_commitOps hingested.file hlen, stream_concat, packWords_append]
    rfl
  · rw [stream_concat]
    refine ⟨_, hleafwise, ?_⟩
    have hnext : event.nextNonce = accepted.length + 1 := by
      rw [DeclaredEvent.nextNonce, hnonce, Nat.mod_eq_of_lt (by omega)]
    change nextFrontier event.nextNonce _ = _
    rw [hnext, List.length_append]
    rfl

/-- One call: a commit adds the event, and any other end leaves the ingestor. -/
theorem call (hingested : Ingested keccak256 versionedHash accepted ingestor)
    (delivery : Delivery) :
    let called := ingestor.call keccak256 versionedHash codec delivery
    called.1 = .ok true ∧ delivery.event.nonce = accepted.length ∧ (∃ chunks,
        Carries keccak256 versionedHash delivery.event (stream accepted).length chunks ∧
        Ingested keccak256 versionedHash (accepted ++ [(delivery.event, chunks)]) called.2) ∨
      called.1 ≠ .ok true ∧ called.2 = ingestor := by
  intro called
  by_cases hresult : called.1 = .ok true
  · obtain ⟨hnonce, chunks, mmr, hverified, hleft⟩ := call_commit hresult
    have hcarries := Carries.of_verified hverified
    have hnext := @Ingested.commit _ _ codec _ _ hingested _ _ _ _ hnonce hverified
    rw [hingested.frontier_eq] at hcarries
    rw [← hleft] at hnext
    refine Or.inl ⟨hresult, ?_, chunks, hcarries, hnext⟩
    rw [hnonce, hingested.frontier_eq]
  · exact Or.inr ⟨hresult, call_unchanged hresult⟩

theorem call_not_panicked (hingested : Ingested keccak256 versionedHash accepted ingestor)
    (delivery : Delivery) (message : String) :
    (ingestor.call keccak256 versionedHash codec delivery).1 ≠ .error (.panicked message) := by
  have hfrontier := hingested.frontier_eq
  have hsafe := @verified_not_panicked keccak256 versionedHash delivery.sources ingestor.store
    delivery.event (stream accepted) message (by rw [hfrontier]) hingested.fits (by rw [hfrontier])
  rw [call_eq]
  unfold Daemon.ingest
  simp only
  split
  · rename_i _ _ _ _ hok
    intro herror
    cases herror
  · rename_i fault hfault
    intro herror
    obtain rfl := Except.error.inj herror
    split at hfault
    · cases hfault
    · split at hfault
      · cases hfault
      · rcases bind_eq_error.mp hfault with hverified | ⟨_, _, hpure⟩
        · exact hsafe hverified
        · cases hpure

/-- A run adds the events whose calls have committed. -/
theorem deliver {deliveries : List Delivery} (hingested : Ingested keccak256 versionedHash accepted
    ingestor) :
    let outcome := ingestor.deliver keccak256 versionedHash codec deliveries
    ∃ added : Accepted, committed deliveries outcome.1 = added.map Prod.fst ∧
      Ingested keccak256 versionedHash (accepted ++ added) outcome.2 := by
  induction deliveries generalizing ingestor accepted with
  | nil => exact ⟨[], rfl, by rwa [List.append_nil]⟩
  | cons delivery rest ih =>
      rcases @Ingested.call _ _ codec _ _ hingested delivery with
        ⟨hresult, _, chunks, _, hnext⟩ | ⟨hresult, hleft⟩
      · obtain ⟨added, hadded, hlast⟩ := ih hnext
        refine ⟨(delivery.event, chunks) :: added, ?_, ?_⟩
        · rw [List.map_cons, ← hadded]
          exact committed_cons_true hresult
        · rwa [List.append_assoc] at hlast
      · rw [← hleft] at hingested
        obtain ⟨added, hadded, hlast⟩ := ih hingested
        exact ⟨added, (committed_cons_other hresult).trans hadded, hlast⟩

end Ingested

/-- Ingest is exactly-once, in order and all-or-nothing.  After any run from an empty
directory the ingestor holds the chunks of the committed events; the next call commits
only the event that is owed, checked against its blobs and roots, or changes nothing. -/
theorem ingest_exactly_once {disk left : Disk DataFile} {store : Store}
    (hfresh : disk (.state .frontier) = none) (hempty : ChunkFile.data disk = [])
    (hopen : Store.open codec disk = .ok (store, left)) (deliveries : List Delivery)
    (delivery : Delivery) :
    let run := Ingestor.deliver keccak256 versionedHash codec ⟨store, left⟩ deliveries
    let called := run.2.call keccak256 versionedHash codec delivery
    ∃ accepted : Accepted, committed deliveries run.1 = accepted.map Prod.fst ∧
      Ingested keccak256 versionedHash accepted run.2 ∧
      (∀ i chunk, run.2.store.chunk run.2.disk i = .ok chunk ↔
        (stream accepted)[i]? = some chunk) ∧
      (called.1 = .ok true → delivery.event.nonce = accepted.length ∧ ∃ chunks,
        Carries keccak256 versionedHash delivery.event (stream accepted).length chunks ∧
        Ingested keccak256 versionedHash (accepted ++ [(delivery.event, chunks)]) called.2) ∧
      (called.1 ≠ .ok true → called.2 = run.2) ∧
      ∀ message, called.1 ≠ .error (.panicked message) := by
  intro run called
  obtain ⟨accepted, hcommitted, hingested⟩ :=
    @Ingested.deliver _ _ codec _ _ deliveries (Ingested.opened hfresh hempty hopen)
  rw [List.nil_append] at hingested
  refine ⟨accepted, hcommitted, hingested, ?_, ?_, call_unchanged, ?_⟩
  · intro i chunk
    refine Store.chunk_eq_ok hingested.file ?_
    exact congrArg Frontier.leafCount hingested.frontier_eq
  · intro hresult
    rcases @Ingested.call _ _ codec _ _ hingested delivery with ⟨_, hnext⟩ | ⟨hother, _⟩
    · exact hnext
    · exact absurd hresult hother
  · exact hingested.call_not_panicked delivery

end

/-- A nonce that is not owed yet, and then the first declaration. -/
def earlyDelivery : Delivery := ⟨{ zeroEvent with nonce := 1 }, [zeroSource]⟩

def zeroDelivery : Delivery := ⟨zeroEvent, [zeroSource]⟩

theorem earlyDelivery_refused :
    deliver Keccak.keccak256 sampleVersionedHash sampleCodec ⟨freshStore, freshDisk⟩
      [earlyDelivery] = ([.error (.returned (.nonceGap 0 1))], ⟨freshStore, freshDisk⟩) := by
  have hgap : earlyDelivery.event.nonce > freshStore.frontier.nonce := Nat.one_pos
  simp only [deliver, call_eq, ingest_gap hgap]
  rfl

theorem zeroDelivery_committed :
    (call Keccak.keccak256 sampleVersionedHash sampleCodec ⟨freshStore, freshDisk⟩
      zeroDelivery).1 = .ok true := by
  obtain ⟨mmr, hverified, _⟩ := zeroEvent_verified
  have hcall := @call_verified Keccak.keccak256 sampleVersionedHash sampleCodec
    ⟨freshStore, freshDisk⟩ zeroDelivery [zeroChunk] mmr rfl hverified
  exact congrArg Prod.fst hcall

theorem ingest_exactly_once_zeroEvent :
    let run := deliver Keccak.keccak256 sampleVersionedHash sampleCodec ⟨freshStore, freshDisk⟩
      [earlyDelivery]
    let called := run.2.call Keccak.keccak256 sampleVersionedHash sampleCodec zeroDelivery
    called.1 = .ok true ∧
      ∃ chunks, Ingested Keccak.keccak256 sampleVersionedHash [(zeroEvent, chunks)] called.2 := by
  have hopened : Store.open sampleCodec (fun _ => none) = .ok (freshStore, freshDisk) :=
    Store.open_eq_ok.mpr ⟨none, rfl, rfl, rfl, fun _ => rfl, Nat.le_refl 0, rfl⟩
  obtain ⟨accepted, hcommitted, _, _, hnext, _⟩ :=
    @ingest_exactly_once Keccak.keccak256 sampleVersionedHash sampleCodec _ _ _ rfl rfl hopened
      [earlyDelivery] zeroDelivery
  simp only [earlyDelivery_refused] at hcommitted hnext ⊢
  obtain rfl := List.map_eq_nil_iff.mp hcommitted.symm
  obtain ⟨_, chunks, _, hingested⟩ := hnext zeroDelivery_committed
  exact ⟨zeroDelivery_committed, chunks, hingested⟩

end Ingestor

end Blobsitter.Daemon
