import Blobsitter.Contract.Declarations
import Blobsitter.Daemon.Delivery

/-!
# The store mirrors the contract

The declarations of an instance, delivered in nonce order and any number of times, leave
the store with the dataset of the contract.  Both sides are followed along the committed
chunk stream: the contract merges the declared roots, the store reads the blobs.
-/

namespace Blobsitter.Daemon

open Library
open Reference (Chunk Hash Mmr updateSubtreeRoots packed streamPeaks)
open Contract (chunksFrom firstPeaks declarations leafCountAfter DeclaredRecord
  replayDeclaration replayDeclarations Reachable Deployment World)

section

variable (keccak256 : ByteString → Hash) (versionedHash : RawBlob → Except VerifyError Hash)
variable (stream : Nat → Chunk) (published : Nat → List RawBlob)

/-- Declaration `k` commits the next chunks of the stream: its blobs are their packing,
and its subtree roots are theirs. -/
structure Canonical (k n0 : Nat) (d : DeclaredRecord) : Prop where
  blobs : (published k).map Subtype.val = packed (chunksFrom stream n0 (d.newLeafCount - n0))
  hashes : List.Forall₂ (fun vh blob => versionedHash blob = .ok vh) d.blobVersionedHashes
    (published k)
  roots : updateSubtreeRoots keccak256 n0 (chunksFrom stream n0 (d.newLeafCount - n0)) =
    .ok d.newSubtreePeaks

/-- Every declaration of the log commits the next chunks of the stream. -/
def CanonicalLog (ds : List (Nat × DeclaredRecord)) : Prop :=
  ∀ (k : Nat) d, ds[k]? = some d →
    Canonical keccak256 versionedHash stream published k (leafCountAfter (ds.take k)) d.2

/-- The event, as the follower delivers it, is the declaration of the log. -/
structure Announces (event : DeclaredEvent) (d : DeclaredRecord) : Prop where
  nonce : event.nonce = d.nonce
  newLeafCount : event.newLeafCount = d.newLeafCount
  blobVersionedHashes : event.blobVersionedHashes = d.blobVersionedHashes
  newSubtreePeaks : event.newSubtreePeaks = d.newSubtreePeaks

/-- The declarations from the first index up to the second arrive in nonce order, each
while some source serves its blobs; in between, earlier ones may arrive again. -/
inductive Delivered (ds : List (Nat × DeclaredRecord)) : Nat → Nat → List Delivery → Prop where
  | done {k : Nat} : Delivered ds k k []
  | next {k last : Nat} {d : Nat × DeclaredRecord} {delivery : Delivery} {rest : List Delivery}
      (hd : ds[k]? = some d) (hannounces : Announces delivery.event d.2)
      (hsupplies : Supplies versionedHash delivery.sources delivery.event (published k))
      (hrest : Delivered ds (k + 1) last rest) : Delivered ds k last (delivery :: rest)
  | again {k j last : Nat} {d : Nat × DeclaredRecord} {delivery : Delivery} {rest : List Delivery}
      (hj : j < k) (hd : ds[j]? = some d) (hannounces : Announces delivery.event d.2)
      (hrest : Delivered ds k last rest) : Delivered ds k last (delivery :: rest)

end

section

variable {keccak256 : ByteString → Hash} {versionedHash : RawBlob → Except VerifyError Hash}
variable {stream : Nat → Chunk} {published : Nat → List RawBlob} {codec : Codec Frontier}
variable {ds : List (Nat × DeclaredRecord)} {k : Nat}

theorem chunksFrom_append (n m : Nat) :
    chunksFrom stream 0 n ++ chunksFrom stream n m = chunksFrom stream 0 (n + m) := by
  have hrange := @List.range'_append 0 n m 1
  rw [Nat.one_mul, Nat.zero_add] at hrange
  rw [chunksFrom, chunksFrom, chunksFrom, ← List.map_append, hrange]

theorem chunksFrom_getElem? (n i : Nat) :
    (chunksFrom stream 0 n)[i]? = if i < n then some (stream i) else none := by
  by_cases hi : i < n
  · rw [if_pos hi, chunksFrom, List.getElem?_map, List.getElem?_range' hi]
    simp
  · rw [if_neg hi, List.getElem?_eq_none]
    rw [Contract.chunksFrom_length]
    omega

/-- Both sides have the same peaks over the first chunks. -/
theorem streamPeaks_chunksFrom (n : Nat) :
    streamPeaks keccak256 (chunksFrom stream 0 n) = firstPeaks keccak256 stream n := by
  rw [streamPeaks, firstPeaks, Contract.chunksFrom_length]
  apply leafPeaks_congr
  intro i hi
  rw [Reference.chunkLeaves, Contract.firstChunks_getD stream hi, Contract.streamLeaves]

theorem leafCountAfter_take_succ {d : Nat × DeclaredRecord} (hd : ds[k]? = some d) :
    leafCountAfter (ds.take (k + 1)) = d.2.newLeafCount := by
  rw [Contract.take_succ_concat hd, Contract.leafCountAfter_concat]

/-- The contract's side: the first declarations make the peaks over the first chunks. -/
theorem replayDeclarations_take {s : Contract.Storage}
    (hdeclared : Contract.Declared keccak256 s ds)
    (hcanonical : CanonicalLog keccak256 versionedHash stream published ds) (hk : k ≤ ds.length) :
    replayDeclarations keccak256 (ds.take k) =
      .ok (firstPeaks keccak256 stream (leafCountAfter (ds.take k)),
        leafCountAfter (ds.take k)) := by
  induction k with
  | zero =>
      rw [List.take_zero]
      change Except.ok _ = Except.ok (firstPeaks keccak256 stream 0, 0)
      rw [Contract.firstPeaks_zero]
  | succ k ih =>
      have hd := List.getElem?_eq_getElem hk
      have hgrows := hdeclared.growing k _ hd
      have hfits := (hdeclared.leafCountAfter_le (k + 1)).trans_lt hdeclared.fits
      have hroots := (hcanonical k _ hd).roots
      rw [leafCountAfter_take_succ hd] at hfits
      rw [Contract.take_succ_concat hd,
        Contract.replayDeclarations_concat keccak256 (ih (by omega)),
        Contract.leafCountAfter_concat]
      generalize leafCountAfter (ds.take k) = n at hgrows hroots ⊢
      generalize ds[k].2 = d at hgrows hroots hfits ⊢
      have hbound : n + (d.newLeafCount - n) < 2 ^ 64 := by omega
      have happly := Contract.applyUpdate_firstPeaks keccak256 stream (by omega) hbound hroots
      rw [Nat.add_sub_cancel' hgrows.le] at happly
      unfold replayDeclaration
      refine Library.bind_eq_ok.mpr ⟨_, Contract.checkedSub_ok hgrows.le, ?_⟩
      refine Library.bind_eq_ok.mpr ⟨_, Contract.MMR.decompose_eq_heights hbound, ?_⟩
      exact happly

/-- On the peaks of the first chunks an honest declaration makes those of the next. -/
theorem Canonical.update {n : Nat} {d : DeclaredRecord}
    (hcanonical : Canonical keccak256 versionedHash stream published k n d)
    (hgrows : n < d.newLeafCount) (hfits : d.newLeafCount < 2 ^ 64) :
    ∃ mmr next, Mmr.fromState n (firstPeaks keccak256 stream n) = .ok mmr ∧
      mmr.applyUpdate keccak256 d.newSubtreePeaks (d.newLeafCount - n) = .ok next ∧
      next.CommitsTo keccak256 (chunksFrom stream 0 d.newLeafCount) := by
  have hroots := hcanonical.roots
  have hcount : (chunksFrom stream n (d.newLeafCount - n)).length = d.newLeafCount - n :=
    Contract.chunksFrom_length _ _ _
  have hfirst : (chunksFrom stream 0 n).length = n := Contract.chunksFrom_length _ _ _
  have hne : chunksFrom stream n (d.newLeafCount - n) ≠ [] := by
    intro hnil
    rw [hnil, List.length_nil] at hcount
    omega
  obtain ⟨mmr, hmmr, hcommits⟩ := Mmr.fromState_streamPeaks keccak256
    (show (chunksFrom stream 0 n).length < 2 ^ 64 by omega)
  obtain ⟨roots, next, hroots', hupdate, hnext⟩ := hcommits.applyUpdate keccak256 hne (by omega)
  rw [hfirst] at hroots' hmmr
  rw [streamPeaks_chunksFrom] at hmmr
  obtain rfl := Except.ok.inj (hroots.symm.trans hroots')
  rw [hcount] at hupdate
  rw [chunksFrom_append, Nat.add_sub_cancel' hgrows.le] at hnext
  exact ⟨mmr, next, hmmr, hupdate, hnext⟩

/-- On the peaks of the first chunks an honest declaration passes every check while its blobs
are served. -/
theorem Canonical.verified {n : Nat} {d : DeclaredRecord} {store : Store} {event : DeclaredEvent}
    {sources : List BlobSource}
    (hcanonical : Canonical keccak256 versionedHash stream published k n d)
    (hgrows : n < d.newLeafCount) (hannounces : Announces event d)
    (hleafCount : store.frontier.leafCount = n)
    (hpeaks : store.frontier.peaks = firstPeaks keccak256 stream n)
    (hsupplies : Supplies versionedHash sources event (published k)) :
    ∃ mmr, Daemon.verified keccak256 versionedHash sources store event =
      .ok (chunksFrom stream n (d.newLeafCount - n), mmr) := by
  have hfits : d.newLeafCount < 2 ^ 64 := by
    rw [← hannounces.newLeafCount]
    exact event.newLeafCount_lt
  obtain ⟨mmr, updated, hmmr, hupdate, _⟩ := hcanonical.update hgrows hfits
  obtain ⟨hblobs, hhashes, hroots⟩ := hcanonical
  have hcount : (chunksFrom stream n (d.newLeafCount - n)).length = d.newLeafCount - n :=
    Contract.chunksFrom_length _ _ _
  rw [← hannounces.newLeafCount] at hgrows hblobs hroots hupdate hcount ⊢
  rw [← hannounces.newSubtreePeaks] at hroots hupdate
  rw [← hannounces.blobVersionedHashes] at hhashes
  rw [← hpeaks] at hmmr
  subst hleafCount
  exact ⟨updated, verified_ok hgrows hcount hblobs hhashes hsupplies hroots hmmr hupdate⟩

/-- The ingestor has the first `k` declarations: their chunks are the first of the stream. -/
def Mirrors (keccak256 : ByteString → Hash) (versionedHash : RawBlob → Except VerifyError Hash)
    (stream : Nat → Chunk) (ds : List (Nat × DeclaredRecord)) (k : Nat) (ingestor : Ingestor) :
    Prop :=
  ∃ accepted : Ingestor.Accepted, accepted.length = k ∧
    Ingestor.stream accepted = chunksFrom stream 0 (leafCountAfter (ds.take k)) ∧
    Ingestor.Ingested keccak256 versionedHash accepted ingestor

namespace Mirrors

variable {ingestor : Ingestor} {delivery : Delivery} {d : Nat × DeclaredRecord}

theorem frontier_eq (hmirrors : Mirrors keccak256 versionedHash stream ds k ingestor) :
    ingestor.store.frontier = ⟨k, leafCountAfter (ds.take k),
      firstPeaks keccak256 stream (leafCountAfter (ds.take k))⟩ := by
  obtain ⟨accepted, hlen, hstream, hingested⟩ := hmirrors
  rw [hingested.frontier_eq, hlen, hstream, streamPeaks_chunksFrom, Contract.chunksFrom_length]

/-- The next declaration passes every check and is committed. -/
theorem next {s : Contract.Storage}
    (hmirrors : Mirrors keccak256 versionedHash stream ds k ingestor)
    (hdeclared : Contract.Declared keccak256 s ds)
    (hcanonical : CanonicalLog keccak256 versionedHash stream published ds)
    (hd : ds[k]? = some d) (hannounces : Announces delivery.event d.2)
    (hsupplies : Supplies versionedHash delivery.sources delivery.event (published k)) :
    (ingestor.call keccak256 versionedHash codec delivery).1 = .ok true ∧
      Mirrors keccak256 versionedHash stream ds (k + 1)
        (ingestor.call keccak256 versionedHash codec delivery).2 := by
  have hfrontier := hmirrors.frontier_eq
  have hgrows := hdeclared.growing k d hd
  have hlast := leafCountAfter_take_succ hd
  have howed : delivery.event.nonce = ingestor.store.frontier.nonce := by
    rw [hannounces.nonce, hdeclared.nonces k d hd, hfrontier]
  obtain ⟨mmr, hverified⟩ := (hcanonical k d hd).verified hgrows hannounces (by rw [hfrontier])
    (by rw [hfrontier]) hsupplies
  obtain ⟨accepted, hlen, hstream, hingested⟩ := hmirrors
  rw [Ingestor.call_verified howed hverified]
  refine ⟨rfl, _, ?_, ?_, hingested.commit howed hverified⟩
  · rw [List.length_append, hlen]
    rfl
  · rw [Ingestor.stream_concat, hstream, chunksFrom_append, hlast, Nat.add_sub_cancel' hgrows.le]

/-- An earlier declaration is recognised by its nonce and ignored. -/
theorem again {s : Contract.Storage}
    (hmirrors : Mirrors keccak256 versionedHash stream ds k ingestor)
    (hdeclared : Contract.Declared keccak256 s ds) {j : Nat} (hj : j < k) (hd : ds[j]? = some d)
    (hannounces : Announces delivery.event d.2) :
    ingestor.call keccak256 versionedHash codec delivery = (.ok false, ingestor) := by
  apply Ingestor.call_redelivery
  rw [hmirrors.frontier_eq, hannounces.nonce, hdeclared.nonces j d hd]
  exact hj

end Mirrors

/-- Every call of a delivery returns, and the store has the declarations up to the last. -/
theorem Delivered.mirrors {s : Contract.Storage} {last : Nat} {deliveries : List Delivery}
    (hdeclared : Contract.Declared keccak256 s ds)
    (hcanonical : CanonicalLog keccak256 versionedHash stream published ds)
    (hdelivered : Delivered versionedHash published ds k last deliveries) {ingestor : Ingestor}
    (hmirrors : Mirrors keccak256 versionedHash stream ds k ingestor) :
    (∀ result ∈ (ingestor.deliver keccak256 versionedHash codec deliveries).1,
        ∃ committed, result = .ok committed) ∧
      Mirrors keccak256 versionedHash stream ds last
        (ingestor.deliver keccak256 versionedHash codec deliveries).2 := by
  induction hdelivered generalizing ingestor with
  | done =>
      refine ⟨fun result hmem => ?_, hmirrors⟩
      cases hmem
  | next hd hannounces hsupplies _ ih =>
      obtain ⟨hresult, hnext⟩ := @Mirrors.next _ _ _ _ codec _ _ _ _ _ _ hmirrors hdeclared
        hcanonical hd hannounces hsupplies
      obtain ⟨hresults, hlast⟩ := ih hnext
      refine ⟨fun result hmem => ?_, hlast⟩
      rcases List.mem_cons.mp hmem with rfl | hrest
      · exact ⟨true, hresult⟩
      · exact hresults result hrest
  | again hj hd hannounces _ ih =>
      have hcall := @Mirrors.again _ _ _ codec _ _ _ _ _ _ hmirrors hdeclared _ hj hd hannounces
      simp only [Ingestor.deliver, hcall]
      obtain ⟨hresults, hlast⟩ := ih hmirrors
      refine ⟨fun result hmem => ?_, hlast⟩
      rcases List.mem_cons.mp hmem with rfl | hrest
      · exact ⟨false, rfl⟩
      · exact hresults result hrest

theorem Delivered.le {last : Nat} {deliveries : List Delivery}
    (hdelivered : Delivered versionedHash published ds k last deliveries) (hk : k ≤ ds.length) :
    last ≤ ds.length := by
  induction hdelivered with
  | done => exact hk
  | next hd _ _ _ ih =>
      exact ih (List.getElem?_eq_some_iff.mp hd).1
  | again _ _ _ _ ih => exact ih hk

/-- The daemon's store refines the contract.  Honest declarations, delivered in order while
their blobs are served, are all ingested, and the store has the dataset that the contract
has after the same number of declarations. -/
theorem store_mirrors_contract {dep : Deployment} {world : World}
    (hreach : Reachable keccak256 dep world)
    (hcanonical : CanonicalLog keccak256 versionedHash stream published
      (declarations world.state.log))
    {disk left : Disk DataFile} {store : Store} (hfresh : disk (.state .frontier) = none)
    (hempty : ChunkFile.data disk = []) (hopen : Store.open codec disk = .ok (store, left))
    {deliveries : List Delivery}
    (hdelivered : Delivered versionedHash published (declarations world.state.log) 0 k deliveries) :
    let run := Ingestor.deliver keccak256 versionedHash codec ⟨store, left⟩ deliveries
    let frontier := run.2.store.frontier
    (∀ result ∈ run.1, ∃ committed, result = .ok committed) ∧ frontier.nonce = k ∧
      replayDeclarations keccak256 ((declarations world.state.log).take k) =
        .ok (frontier.peaks, frontier.leafCount) ∧
      (∀ i chunk, run.2.store.chunk run.2.disk i = .ok chunk ↔
        i < frontier.leafCount ∧ chunk = stream i) ∧
      ∀ past, Reachable keccak256 dep past → past.stack = [] →
        (Contract.system keccak256 dep).Steps past world → past.state.store.declarationNonce = k →
        frontier = ⟨past.state.store.declarationNonce, past.state.store.leafCount,
          past.state.store.peaks⟩ := by
  intro run frontier
  have hdeclared := hreach.published.declared
  have hopened := @Ingestor.Ingested.opened keccak256 versionedHash _ _ _ _ hfresh hempty hopen
  obtain ⟨hresults, hmirrors⟩ := @Delivered.mirrors _ _ _ _ codec _ _ _ _ _ hdeclared hcanonical
    hdelivered _ ⟨[], rfl, rfl, hopened⟩
  have hfrontier : frontier = _ := hmirrors.frontier_eq
  have hreplay := replayDeclarations_take hdeclared hcanonical (hdelivered.le (Nat.zero_le _))
  refine ⟨hresults, ?_, ?_, ?_, ?_⟩
  · rw [hfrontier]
  · rw [hfrontier, hreplay]
  · intro i chunk
    obtain ⟨accepted, _, hstream, hingested⟩ := hmirrors
    have hfile := hingested.file
    rw [hstream] at hfile
    rw [Store.chunk_eq_ok hfile (by rw [Contract.chunksFrom_length]; exact congrArg _ hfrontier),
      chunksFrom_getElem?, hfrontier]
    simp only
    split
    · rename_i hi
      constructor
      · intro hsome
        exact ⟨hi, (Option.some.inj hsome).symm⟩
      · rintro ⟨_, rfl⟩
        rfl
    · rename_i hi
      constructor
      · intro hnone
        cases hnone
      · exact fun both => absurd both.1 hi
  · intro past hpast hidle hsteps hcount
    have hold := hpast.published.declared
    -- the declarations of the past are the first `k`
    obtain ⟨extra, hextra⟩ := Contract.log_extends hpast hidle hsteps
    have htake : (declarations world.state.log).take k = declarations past.state.log := by
      rw [← hextra, declarations, Contract.recorded, List.filterMap_append]
      exact List.take_left' (hold.nonce.symm.trans hcount)
    have hsame := hold.replayed
    rw [← htake, hreplay] at hsame
    obtain ⟨hpeaks, hleafCount⟩ := Prod.mk.inj (Except.ok.inj hsame)
    rw [hfrontier, hcount, ← hpeaks, ← hleafCount]

end

/-! ## One declared chunk -/

def declaredHash : Hash := Vector.replicate 32 1

/-- A versioned hash that agrees with the carrier's transaction on the zero blob. -/
def declaredVersionedHash (blob : RawBlob) : Except VerifyError Hash :=
  if blob = zeroBlob then .ok declaredHash else .error (.invalidBlob "not the zero blob")

/-- The declaration of the carrier, as the follower delivers it. -/
def declaredDelivery : Delivery where
  event := { zeroEvent with blobVersionedHashes := [declaredHash] }
  sources := [zeroSource]

set_option maxRecDepth 10000 in
theorem declaredWorld_declarations : declarations Contract.declaredWorld.state.log =
    [(7, ⟨0, 1, [declaredHash], [Reference.leaf Keccak.keccak256 (Contract.zeroStream 0)]⟩)] := rfl

theorem declaredHash_zeroBlob : declaredVersionedHash zeroBlob = .ok declaredHash := if_pos rfl

theorem declaredRoots_honest : updateSubtreeRoots Keccak.keccak256 0
    (chunksFrom Contract.zeroStream 0 1) =
      .ok [Reference.leaf Keccak.keccak256 (Contract.zeroStream 0)] := rfl

theorem declaredWorld_canonical : CanonicalLog Keccak.keccak256 declaredVersionedHash
    Contract.zeroStream (fun _ => [zeroBlob]) (declarations Contract.declaredWorld.state.log) := by
  have hfirst : Canonical Keccak.keccak256 declaredVersionedHash Contract.zeroStream
      (fun _ => [zeroBlob]) 0 0
      ⟨0, 1, [declaredHash], [Reference.leaf Keccak.keccak256 (Contract.zeroStream 0)]⟩ :=
    ⟨zeroBlob_packed, .cons declaredHash_zeroBlob .nil, declaredRoots_honest⟩
  rw [declaredWorld_declarations]
  intro k d hd
  rw [List.getElem?_singleton] at hd
  split at hd
  · rename_i hk
    obtain rfl := Option.some.inj hd
    subst hk
    exact hfirst
  · cases hd

theorem zeroSource_supplies {event : DeclaredEvent}
    (hhashes : event.blobVersionedHashes = [declaredHash]) :
    Supplies declaredVersionedHash [zeroSource] event [zeroBlob] :=
  single_supplies declaredHash_zeroBlob hhashes

/-- A stream that starts with the zero chunk. -/
def grownStream (i : Nat) : Chunk := Vector.replicate 31 (UInt8.ofNat i)

def grownBlob : RawBlob :=
  ⟨Reference.packSlice (chunksFrom grownStream 1 3), Reference.packSlice_length (by decide)⟩

def grownHash : Hash := Vector.replicate 32 2

def grownVersionedHash (blob : RawBlob) : Except VerifyError Hash :=
  if blob = zeroBlob then .ok declaredHash
  else if blob = grownBlob then .ok grownHash
  else .error (.invalidBlob "not a sample blob")

def grownPeaks : List Hash :=
  [Reference.leaf Keccak.keccak256 (grownStream 1),
    Reference.node Keccak.keccak256 (Reference.leaf Keccak.keccak256 (grownStream 2))
      (Reference.leaf Keccak.keccak256 (grownStream 3))]

def grownAction : Contract.Action :=
  .call { Contract.carrierMsg with blobHashes := [grownHash] }
    (.declareFor { Contract.zeroDeclaration with
      nonce := 1
      blobVersionedHashes := [grownHash]
      newSubtreePeaks := grownPeaks
      newLeafCount := 4 } [] [⟨Contract.zeroHash, [], []⟩] [])

/-- After one zero chunk, three more are declared. -/
def grownWorld : World :=
  ⟨Contract.stakeBlock,
    (Contract.declaredWorld.state.after Contract.stakeBlock grownAction).1, []⟩

set_option maxRecDepth 10000 in
theorem grownWorld_reachable :
    Reachable Keccak.keccak256 Contract.sampleDeployment grownWorld := by
  have hcall : (Contract.system Keccak.keccak256 Contract.sampleDeployment).call
      Contract.stakeBlock grownAction Contract.declaredWorld.state =
        some (grownWorld.state, none) := rfl
  exact Contract.declaredWorld_reachable.steps (.single (.returns hcall))

set_option maxRecDepth 10000 in
theorem grownWorld_declarations : declarations grownWorld.state.log =
    [(7, ⟨0, 1, [declaredHash], [Reference.leaf Keccak.keccak256 (grownStream 0)]⟩),
      (7, ⟨1, 4, [grownHash], grownPeaks⟩)] := rfl

theorem grownBlob_ne_zeroBlob : grownBlob ≠ zeroBlob := by
  intro heq
  have hbyte : some (1 : UInt8) = some 0 := congrArg (fun blob => blob.val[1]?) heq
  revert hbyte
  decide

theorem grownHash_zeroBlob : grownVersionedHash zeroBlob = .ok declaredHash := if_pos rfl

theorem grownHash_grownBlob : grownVersionedHash grownBlob = .ok grownHash := by
  unfold grownVersionedHash
  rw [if_neg grownBlob_ne_zeroBlob, if_pos rfl]

/-- What the publisher has put into the blobs of each declaration. -/
def grownBlobs : Nat → List RawBlob
  | 0 => [zeroBlob]
  | _ => [grownBlob]

theorem grownBlob_packed : [grownBlob].map Subtype.val = packed (chunksFrom grownStream 1 3) := by
  have hpacked : packed (chunksFrom grownStream 1 3 ++ []) =
      Reference.packSlice (chunksFrom grownStream 1 3) :: packed [] :=
    Reference.packed_append (List.cons_ne_nil _ _) (by decide) (Or.inr rfl)
  rw [List.append_nil] at hpacked
  rw [hpacked, List.map_singleton, grownBlob]
  rfl

theorem grownRoots_honest :
    updateSubtreeRoots Keccak.keccak256 1 (chunksFrom grownStream 1 3) = .ok grownPeaks := rfl

theorem grownWorld_canonical : CanonicalLog Keccak.keccak256 grownVersionedHash grownStream
    grownBlobs (declarations grownWorld.state.log) := by
  have hfirst : Canonical Keccak.keccak256 grownVersionedHash grownStream grownBlobs 0 0
      ⟨0, 1, [declaredHash], [Reference.leaf Keccak.keccak256 (grownStream 0)]⟩ :=
    ⟨zeroBlob_packed, .cons grownHash_zeroBlob .nil, rfl⟩
  have hsecond : Canonical Keccak.keccak256 grownVersionedHash grownStream grownBlobs 1 1
      ⟨1, 4, [grownHash], grownPeaks⟩ := by
    exact ⟨grownBlob_packed, .cons grownHash_grownBlob .nil, grownRoots_honest⟩
  rw [grownWorld_declarations]
  intro k d hd
  match k with
  | 0 =>
      obtain rfl := Option.some.inj hd
      exact hfirst
  | 1 =>
      obtain rfl := Option.some.inj hd
      exact hsecond
  | k + 2 => cases hd

def grownDelivery : Delivery where
  event :=
    { zeroEvent with
      nonce := 1
      newLeafCount := 4
      blobVersionedHashes := [grownHash]
      newSubtreePeaks := grownPeaks
      newLeafCount_lt := Contract.four_fits }
  sources := [fun _ _ => .ok [grownBlob]]

/-- Both declarations are delivered, the first of them twice. -/
def grownDeliveries : List Delivery := [declaredDelivery, declaredDelivery, grownDelivery]

theorem grownDeliveries_delivered : Delivered grownVersionedHash grownBlobs
    (declarations grownWorld.state.log) 0 2 grownDeliveries := by
  rw [grownWorld_declarations]
  have hannounces : Announces declaredDelivery.event
      ⟨0, 1, [declaredHash], [Reference.leaf Keccak.keccak256 (grownStream 0)]⟩ :=
    ⟨rfl, rfl, rfl, rfl⟩
  refine .next rfl hannounces (single_supplies grownHash_zeroBlob rfl) ?_
  refine .again Nat.one_pos rfl hannounces ?_
  exact .next rfl ⟨rfl, rfl, rfl, rfl⟩ (single_supplies grownHash_grownBlob rfl) .done

theorem store_mirrors_contract_grown :
    let run := Ingestor.deliver Keccak.keccak256 grownVersionedHash sampleCodec
      ⟨freshStore, freshDisk⟩ grownDeliveries
    run.2.store.frontier = ⟨2, 4, grownWorld.state.store.peaks⟩ ∧
      ∀ i < 4, run.2.store.chunk run.2.disk i = .ok (grownStream i) := by
  have hopened : Store.open sampleCodec (fun _ => none) = .ok (freshStore, freshDisk) :=
    Store.open_eq_ok.mpr ⟨none, rfl, rfl, rfl, fun _ => rfl, Nat.le_refl 0, rfl⟩
  obtain ⟨_, _, _, hchunks, hpast⟩ := @store_mirrors_contract Keccak.keccak256 grownVersionedHash
    grownStream grownBlobs sampleCodec 2 Contract.sampleDeployment grownWorld grownWorld_reachable
    grownWorld_canonical _ _ _ rfl rfl hopened _ grownDeliveries_delivered
  have hdeclared := grownWorld_reachable.published.declared
  have hcount : grownWorld.state.store.declarationNonce = 2 := by
    rw [hdeclared.nonce, grownWorld_declarations]
    rfl
  have hleafCount : grownWorld.state.store.leafCount = 4 := by
    rw [← hdeclared.latest, grownWorld_declarations]
    rfl
  have hfrontier := hpast _ grownWorld_reachable rfl .refl hcount
  rw [hcount, hleafCount] at hfrontier
  refine ⟨hfrontier, fun i hi => (hchunks i _).mpr ⟨?_, rfl⟩⟩
  rw [hfrontier]
  exact hi

end Blobsitter.Daemon
