import Blobsitter.Daemon.Source
import Blobsitter.Daemon.Store

/-!
# The ingest pipeline

Declarations are ingested in nonce order, each at most once.  Everything is verified
in memory before anything is written: the blobs by their hashes, the chunks by the
subtree roots of the event.
-/

namespace Blobsitter.Daemon

open Library
open Reference (Chunk Hash Fault Mmr updateSubtreeRoots packed peakHeights)

/-- A finalized `Declared` event, and where its blobs are looked for. -/
structure DeclaredEvent where
  nonce : Nat
  newLeafCount : Nat
  blobVersionedHashes : List Hash
  newSubtreePeaks : List Hash
  blockNumber : Nat
  blockTimestamp : Nat
  newLeafCount_lt : newLeafCount < 2 ^ 64
  deriving DecidableEq

def DeclaredEvent.context (event : DeclaredEvent) : BlobContext :=
  ⟨event.blockNumber, event.blockTimestamp⟩

inductive IngestError where
  | nonceGap (expected got : Nat)
  | blobsUnavailable (nonce : Nat) (source : SourcesExhausted)
  | protocolContradiction (nonce : Nat) (detail : String)
  | store (error : StoreError)
  deriving DecidableEq, Repr

/-- How a call ends without a result: it returns an error, or it panics. -/
inductive IngestFault where
  | returned (error : IngestError)
  | panicked (message : String)
  deriving DecidableEq, Repr

def contradiction (nonce : Nat) (detail : String) : IngestFault :=
  .returned (.protocolContradiction nonce detail)

section

variable (keccak256 : ByteString → Hash) (versionedHash : RawBlob → Except VerifyError Hash)
variable (codec : Codec Frontier) (sources : List BlobSource)

/-- The part of `ingest` before the write: the chunks of the event and the state of the
mountain range with them. -/
def verified (store : Store) (event : DeclaredEvent) : Except IngestFault (List Chunk × Mmr) := do
  let n0 := store.frontier.leafCount
  if event.newLeafCount < n0 ∨ event.newLeafCount - n0 < 1 then
    .error (contradiction event.nonce ("newLeafCount " ++ toString event.newLeafCount ++
      " does not extend committed leafCount " ++ toString n0))
  else do
    let m := event.newLeafCount - n0
    let blobs ← (acquire versionedHash event.context event.blobVersionedHashes sources).mapError
      fun source => .returned (.blobsUnavailable event.nonce source)
    let ordered ← event.blobVersionedHashes.mapM fun vh =>
      match blobs vh with
      | some blob => .ok blob
      | none => .error (.panicked "acquire returned complete or errored")
    let chunks ← (chunksFromBlobs ordered m).mapError
      fun error => contradiction event.nonce error.message
    let recomputed ← (updateSubtreeRoots keccak256 n0 chunks).mapError
      fun fault => .panicked fault.message
    if recomputed ≠ event.newSubtreePeaks then
      .error (contradiction event.nonce ("subtree roots recomputed from verified blob bytes do " ++
        "not match the declared newSubtreePeaks"))
    else do
      let mmr ← store.mmr.mapError fun fault => .panicked fault.message
      let next ← (mmr.applyUpdate keccak256 event.newSubtreePeaks m).mapError fun
        | .err detail => contradiction event.nonce detail
        | .panic message => .panicked message
      return (chunks, next)

/-- The nonce that is owed after the event. -/
def DeclaredEvent.nextNonce (event : DeclaredEvent) : Nat := (event.nonce + 1) % 2 ^ 64

/-- `Ingestor::ingest`: `false` is a redelivery, `true` a commit. -/
def ingest (store : Store) (disk : Disk DataFile) (event : DeclaredEvent) :
    Except IngestFault (Bool × Store × Disk DataFile) := do
  let expected := store.frontier.nonce
  if event.nonce < expected then .ok (false, store, disk)
  else if event.nonce > expected then .error (.returned (.nonceGap expected event.nonce))
  else do
    let (chunks, mmr) ← verified keccak256 versionedHash sources store event
    return (true, store.commitDeclaration codec disk event.nextNonce chunks mmr)

end

section

variable {keccak256 : ByteString → Hash} {versionedHash : RawBlob → Except VerifyError Hash}
variable {codec : Codec Frontier} {sources : List BlobSource}
variable {store : Store} {disk : Disk DataFile} {event : DeclaredEvent}

/-- What a verified event has passed. -/
structure Verified (keccak256 : ByteString → Hash) (store : Store) (event : DeclaredEvent)
    (chunks : List Chunk) (next : Mmr) : Prop where
  grows : store.frontier.leafCount < event.newLeafCount
  count : chunks.length = event.newLeafCount - store.frontier.leafCount
  roots : updateSubtreeRoots keccak256 store.frontier.leafCount chunks = .ok event.newSubtreePeaks
  update : ∃ mmr, Mmr.fromState store.frontier.leafCount store.frontier.peaks = .ok mmr ∧
    mmr.applyUpdate keccak256 event.newSubtreePeaks
      (event.newLeafCount - store.frontier.leafCount) = .ok next

/-- Every check of a verified event, in the order of the checks. -/
theorem verified_checks {chunks : List Chunk} {next : Mmr}
    (hok : verified keccak256 versionedHash sources store event = .ok (chunks, next)) :
    store.frontier.leafCount < event.newLeafCount ∧ ∃ found blobs,
      acquire versionedHash event.context event.blobVersionedHashes sources = .ok found ∧
      List.Forall₂ (fun vh blob => found vh = some blob) event.blobVersionedHashes blobs ∧
      chunksFromBlobs blobs (event.newLeafCount - store.frontier.leafCount) = .ok chunks ∧
      updateSubtreeRoots keccak256 store.frontier.leafCount chunks = .ok event.newSubtreePeaks ∧
      ∃ mmr, Mmr.fromState store.frontier.leafCount store.frontier.peaks = .ok mmr ∧
        mmr.applyUpdate keccak256 event.newSubtreePeaks
          (event.newLeafCount - store.frontier.leafCount) = .ok next := by
  unfold verified at hok
  simp only at hok
  split at hok
  · cases hok
  · rename_i hgrows
    obtain ⟨found, hfound, hok⟩ := bind_eq_ok.mp hok
    obtain ⟨ordered, hordered, hok⟩ := bind_eq_ok.mp hok
    obtain ⟨read, hread, hok⟩ := bind_eq_ok.mp hok
    obtain ⟨recomputed, hroots, hok⟩ := bind_eq_ok.mp hok
    split at hok
    · cases hok
    · rename_i hsame
      obtain ⟨mmr, hmmr, hok⟩ := bind_eq_ok.mp hok
      obtain ⟨updated, hupdate, hok⟩ := bind_eq_ok.mp hok
      obtain ⟨rfl, rfl⟩ := Prod.mk.inj (pure_eq_ok.mp hok)
      rw [mapError_eq_ok] at hfound hread hroots hmmr hupdate
      rw [not_not.mp hsame] at hroots
      rw [Store.mmr, mapError_eq_ok] at hmmr
      refine ⟨by omega, found, ordered, hfound, ?_, hread, hroots, mmr, hmmr, hupdate⟩
      refine (forall₂_of_mapM_eq_ok hordered).imp fun vh blob hlookup => ?_
      split at hlookup
      · rename_i stored hstored
        rw [hstored, Except.ok.inj hlookup]
      · cases hlookup

theorem verified_eq_ok {chunks : List Chunk} {next : Mmr}
    (hok : verified keccak256 versionedHash sources store event = .ok (chunks, next)) :
    Verified keccak256 store event chunks next := by
  obtain ⟨hgrows, _, _, _, _, hread, hroots, hupdate⟩ := verified_checks hok
  exact ⟨hgrows, (chunksFromBlobs_eq_ok.mp hread).1, hroots, hupdate⟩

/-- The verified chunks are packed in blobs of the declared hashes. -/
theorem verified_blobs {chunks : List Chunk} {next : Mmr}
    (hok : verified keccak256 versionedHash sources store event = .ok (chunks, next)) :
    ∃ blobs : List RawBlob, List.Forall₂ (fun vh blob => versionedHash blob = .ok vh ∧
        ∃ source ∈ sources, Offers event.context source blob) event.blobVersionedHashes blobs ∧
      blobs.map Subtype.val = packed chunks := by
  obtain ⟨_, found, blobs, hfound, hordered, hread, _⟩ := verified_checks hok
  refine ⟨blobs, ?_, (chunksFromBlobs_eq_ok.mp hread).2⟩
  rw [List.forall₂_iff_get] at hordered ⊢
  refine ⟨hordered.1, fun i hi hi' => ?_⟩
  obtain ⟨blob, hblob, hverified⟩ := acquire_eq_ok hfound _ (List.get_mem _ ⟨i, hi⟩)
  have hsame := (hordered.2 i hi hi').symm.trans hblob
  rw [Option.some.inj hsame]
  exact hverified

/-- On a frontier of canonical peaks no check panics. -/
theorem verified_not_panicked {stream : List Chunk} {message : String}
    (hcount : store.frontier.leafCount = stream.length) (hfits : stream.length < 2 ^ 64)
    (hpeaks : store.frontier.peaks = Reference.streamPeaks keccak256 stream) :
    verified keccak256 versionedHash sources store event ≠ .error (.panicked message) := by
  intro herror
  have hlt := event.newLeafCount_lt
  unfold verified at herror
  simp only at herror
  split at herror
  · cases herror
  · rename_i hgrows
    rcases bind_eq_error.mp herror with hfailed | ⟨found, hfound, herror⟩
    · obtain ⟨_, _, hfault⟩ := mapError_eq_error.mp hfailed
      cases hfault
    rcases bind_eq_error.mp herror with hfailed | ⟨ordered, _, herror⟩
    · rw [mapError_eq_ok] at hfound
      obtain ⟨vh, hmem, hlookup⟩ := mapM_eq_error hfailed
      obtain ⟨blob, hblob, _⟩ := acquire_eq_ok hfound vh hmem
      rw [hblob] at hlookup
      cases hlookup
    rcases bind_eq_error.mp herror with hfailed | ⟨chunks, hread, herror⟩
    · obtain ⟨_, _, hfault⟩ := mapError_eq_error.mp hfailed
      cases hfault
    rw [mapError_eq_ok] at hread
    obtain ⟨hchunks, _⟩ := chunksFromBlobs_eq_ok.mp hread
    have hne : chunks ≠ [] := by
      rintro rfl
      rw [List.length_nil] at hchunks
      omega
    have hbound : stream.length + chunks.length < 2 ^ 64 := by omega
    obtain ⟨mmr, hmmr, hcommits⟩ := Mmr.fromState_streamPeaks keccak256 hfits
    obtain ⟨roots, next, hroots, hupdate, _⟩ := hcommits.applyUpdate keccak256 hne hbound
    rw [← hcount] at hroots hmmr
    rw [← hpeaks] at hmmr
    rcases bind_eq_error.mp herror with hfailed | ⟨recomputed, hrecomputed, herror⟩
    · rw [hroots] at hfailed
      cases hfailed
    rw [mapError_eq_ok, hroots] at hrecomputed
    obtain rfl := Except.ok.inj hrecomputed
    split at herror
    · cases herror
    · rename_i hsame
      rcases bind_eq_error.mp herror with hfailed | ⟨state, hstate, herror⟩
      · rw [Store.mmr, hmmr] at hfailed
        cases hfailed
      rw [Store.mmr, hmmr] at hstate
      obtain rfl := Except.ok.inj hstate
      rcases bind_eq_error.mp herror with hfailed | ⟨_, _, herror⟩
      · rw [← not_not.mp hsame, ← hchunks, hupdate] at hfailed
        cases hfailed
      · cases herror

/-- Sources that have blobs of the declared hashes, and offer no other blob that
collides with one of the declared blobs. -/
structure Supplies (versionedHash : RawBlob → Except VerifyError Hash) (sources : List BlobSource)
    (event : DeclaredEvent) (blobs : List RawBlob) : Prop where
  served : ∀ vh ∈ event.blobVersionedHashes,
    ∃ source ∈ sources, Serves versionedHash event.context source vh
  noCollision : ∀ source ∈ sources, ∀ candidate, Offers event.context source candidate →
    ∀ blob ∈ blobs, ∀ vh, versionedHash candidate = .ok vh → versionedHash blob = .ok vh →
      candidate = blob

/-- An honest event whose blobs are supplied passes every check. -/
theorem verified_ok {blobs : List RawBlob} {chunks : List Chunk} {mmr next : Mmr}
    (hgrows : store.frontier.leafCount < event.newLeafCount)
    (hcount : chunks.length = event.newLeafCount - store.frontier.leafCount)
    (hpacked : blobs.map Subtype.val = packed chunks)
    (hhashes : List.Forall₂ (fun vh blob => versionedHash blob = .ok vh)
      event.blobVersionedHashes blobs)
    (hsupplies : Supplies versionedHash sources event blobs)
    (hroots : updateSubtreeRoots keccak256 store.frontier.leafCount chunks =
      .ok event.newSubtreePeaks)
    (hmmr : Mmr.fromState store.frontier.leafCount store.frontier.peaks = .ok mmr)
    (hupdate : mmr.applyUpdate keccak256 event.newSubtreePeaks
      (event.newLeafCount - store.frontier.leafCount) = .ok next) :
    verified keccak256 versionedHash sources store event = .ok (chunks, next) := by
  obtain ⟨found, hfound⟩ := acquire_ok hsupplies.served
  have hlookup : event.blobVersionedHashes.mapM (fun vh =>
      match found vh with
      | some blob => .ok blob
      | none => .error (.panicked "acquire returned complete or errored")) =
        (.ok blobs : Except IngestFault (List RawBlob)) := by
    apply mapM_eq_ok_of_forall₂
    rw [List.forall₂_iff_get] at hhashes ⊢
    refine ⟨hhashes.1, fun i hi hi' => ?_⟩
    obtain ⟨blob, hblob, hhash, source, hsource, hoffers⟩ :=
      acquire_eq_ok hfound _ (List.get_mem _ ⟨i, hi⟩)
    have hsame := hsupplies.noCollision source hsource blob hoffers _ (List.get_mem _ ⟨i, hi'⟩) _
      hhash (hhashes.2 i hi hi')
    rw [hblob, hsame]
  have hread := chunksFromBlobs_eq_ok.mpr ⟨hcount, hpacked⟩
  rw [verified]
  simp only
  rw [if_neg (by omega)]
  refine bind_eq_ok.mpr ⟨found, mapError_eq_ok.mpr hfound, ?_⟩
  refine bind_eq_ok.mpr ⟨blobs, hlookup, ?_⟩
  refine bind_eq_ok.mpr ⟨chunks, mapError_eq_ok.mpr hread, ?_⟩
  refine bind_eq_ok.mpr ⟨_, mapError_eq_ok.mpr hroots, ?_⟩
  rw [if_neg (not_not_intro rfl)]
  refine bind_eq_ok.mpr ⟨mmr, mapError_eq_ok.mpr (mapError_eq_ok.mpr hmmr), ?_⟩
  exact bind_eq_ok.mpr ⟨next, mapError_eq_ok.mpr hupdate, rfl⟩

/-- A commit is the verified event, written. -/
theorem ingest_eq_commit {next : Store} {after : Disk DataFile}
    (hok : ingest keccak256 versionedHash codec sources store disk event =
      .ok (true, next, after)) :
    event.nonce = store.frontier.nonce ∧ ∃ chunks mmr,
      verified keccak256 versionedHash sources store event = .ok (chunks, mmr) ∧
      (next, after) = store.commitDeclaration codec disk event.nextNonce chunks mmr := by
  unfold ingest at hok
  simp only at hok
  split at hok
  · cases hok
  · split at hok
    · cases hok
    · obtain ⟨⟨chunks, mmr⟩, hverified, hok⟩ := bind_eq_ok.mp hok
      exact ⟨by omega, chunks, mmr, hverified, (Prod.mk.inj (pure_eq_ok.mp hok)).2.symm⟩

/-- A redelivery leaves everything as it is. -/
theorem ingest_eq_redelivery {next : Store} {after : Disk DataFile}
    (hok : ingest keccak256 versionedHash codec sources store disk event =
      .ok (false, next, after)) : next = store ∧ after = disk := by
  unfold ingest at hok
  simp only at hok
  split at hok
  · cases hok
    exact ⟨rfl, rfl⟩
  · split at hok
    · cases hok
    · obtain ⟨_, _, hok⟩ := bind_eq_ok.mp hok
      cases (Prod.mk.inj (pure_eq_ok.mp hok)).1

theorem ingest_commit {chunks : List Chunk} {mmr : Mmr}
    (hnonce : event.nonce = store.frontier.nonce)
    (hverified : verified keccak256 versionedHash sources store event = .ok (chunks, mmr)) :
    ingest keccak256 versionedHash codec sources store disk event =
      .ok (true, store.commitDeclaration codec disk event.nextNonce chunks mmr) := by
  rw [ingest]
  simp only
  rw [if_neg (by omega), if_neg (by omega), hverified]
  rfl

theorem ingest_gap (hgap : event.nonce > store.frontier.nonce) :
    ingest keccak256 versionedHash codec sources store disk event =
      .error (.returned (.nonceGap store.frontier.nonce event.nonce)) := by
  rw [ingest]
  simp only
  rw [if_neg (by omega), if_pos hgap]

theorem ingest_redelivery (hold : event.nonce < store.frontier.nonce) :
    ingest keccak256 versionedHash codec sources store disk event = .ok (false, store, disk) :=
  if_pos hold

end

end Blobsitter.Daemon
