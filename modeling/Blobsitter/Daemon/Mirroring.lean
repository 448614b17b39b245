import Blobsitter.Daemon.CrashConsistency
import Blobsitter.Daemon.Mirror

/-!
# The store along the declarations

Whatever the follower delivers and whenever the process dies, the store is at the frontier
of the first declarations, in memory and on disk.  A call with a declaration that is past
the owed one changes nothing and names the gap.
-/

namespace Blobsitter.Daemon

open Library
open Reference (Chunk Hash Mmr)
open Contract (declarations leafCountAfter firstPeaks DeclaredRecord Reachable Deployment World)

section

variable (keccak256 : ByteString → Hash) (stream : Nat → Chunk)

/-- The frontier that has the first `k` declarations. -/
def mirrored (ds : List (Nat × DeclaredRecord)) (k : Nat) : Frontier :=
  ⟨k, leafCountAfter (ds.take k), firstPeaks keccak256 stream (leafCountAfter (ds.take k))⟩

/-- The ingestor is at the first `k` declarations, in memory and on disk. -/
structure Mirroring (codec : Codec Frontier) (ds : List (Nat × DeclaredRecord)) (k : Nat)
    (ingestor : Ingestor) : Prop where
  le : k ≤ ds.length
  frontier : ingestor.store.frontier = mirrored keccak256 stream ds k
  settled : Settled codec (decide (k = 0)) ingestor.store ingestor.disk

/-- Whatever opens from the files is at some declaration. -/
def Reopens (codec : Codec Frontier) (ds : List (Nat × DeclaredRecord)) (disk : Disk DataFile) :
    Prop :=
  ∀ store left, Store.open codec disk = .ok (store, left) →
    ∃ k, Mirroring keccak256 stream codec ds k ⟨store, left⟩

/-- `serde_json` reads back the frontiers that the store writes. -/
def ReadsFrontiers (codec : Codec Frontier) (ds : List (Nat × DeclaredRecord)) : Prop :=
  ∀ k, 0 < k → k ≤ ds.length → codec.ReadsBack (mirrored keccak256 stream ds k)

end

section

variable {keccak256 : ByteString → Hash} {versionedHash : RawBlob → Except VerifyError Hash}
variable {stream : Nat → Chunk} {published : Nat → List RawBlob} {codec : Codec Frontier}
variable {ds : List (Nat × DeclaredRecord)} {k : Nat} {ingestor : Ingestor}
variable {delivery : Delivery} {d : Nat × DeclaredRecord}

namespace Mirroring

theorem readsBack (hmirroring : Mirroring keccak256 stream codec ds k ingestor)
    (hreads : ReadsFrontiers keccak256 stream codec ds) :
    decide (k = 0) = false → codec.ReadsBack ingestor.store.frontier := by
  intro hsome
  rw [hmirroring.frontier]
  exact hreads k (Nat.pos_of_ne_zero (of_decide_eq_false hsome)) hmirroring.le

/-- The directory opens as it is. -/
theorem open_eq (hmirroring : Mirroring keccak256 stream codec ds k ingestor)
    (hreads : ReadsFrontiers keccak256 stream codec ds) :
    Store.open codec ingestor.disk = .ok (ingestor.store, ingestor.disk) := by
  obtain ⟨bytes, hbytes, hlen⟩ := hmirroring.settled.chunks
  have hback := hmirroring.readsBack hreads
  have hopen := @Settled.open_torn codec _ _ _ bytes [] (ingestor.disk (.tmp .frontier))
    hmirroring.settled hback hlen (fun _ => rfl)
  have hsame : Function.update (Function.update ingestor.disk .chunks (some bytes)) (.tmp .frontier)
      (ingestor.disk (.tmp .frontier)) = ingestor.disk := by
    rw [← hbytes, Function.update_eq_self, Function.update_eq_self]
  rwa [List.append_nil, hsame] at hopen

theorem reopens (hmirroring : Mirroring keccak256 stream codec ds k ingestor)
    (hreads : ReadsFrontiers keccak256 stream codec ds) :
    Reopens keccak256 stream codec ds ingestor.disk := by
  intro store left hopen
  obtain ⟨rfl, rfl⟩ := Prod.mk.inj (Except.ok.inj ((hmirroring.open_eq hreads).symm.trans hopen))
  exact ⟨k, hmirroring⟩

/-- Whatever the sources answer, an event that is committed leads to the next frontier. -/
theorem commit {s : Contract.Storage} (hmirroring : Mirroring keccak256 stream codec ds k ingestor)
    (hdeclared : Contract.Declared keccak256 s ds)
    (hcanonical : CanonicalLog keccak256 versionedHash stream published ds)
    (hd : ds[k]? = some d) {event : DeclaredEvent} (hannounces : Announces event d.2)
    {sources : List BlobSource} {chunks : List Chunk} {mmr : Mmr}
    (hverified : verified keccak256 versionedHash sources ingestor.store event = .ok (chunks, mmr)) :
    Mirroring keccak256 stream codec ds (k + 1)
      ⟨(ingestor.store.commitDeclaration codec ingestor.disk event.nextNonce chunks mmr).1,
        (ingestor.store.commitDeclaration codec ingestor.disk event.nextNonce chunks mmr).2⟩ := by
  have hfrontier := hmirroring.frontier
  have hfits : d.2.newLeafCount < 2 ^ 64 := by
    rw [← hannounces.newLeafCount]
    exact event.newLeafCount_lt
  have howed : event.nonce = ingestor.store.frontier.nonce := by
    rw [hannounces.nonce, hdeclared.nonces k d hd, hfrontier]
    rfl
  have hchecked := verified_eq_ok hverified
  obtain ⟨before, next, hbefore, hnext, hcommits⟩ :=
    (hcanonical k d hd).update (hdeclared.growing k d hd) hfits
  obtain ⟨found, hfound, hupdate⟩ := hchecked.update
  rw [hfrontier, hannounces.newSubtreePeaks, hannounces.newLeafCount] at hupdate
  rw [hfrontier] at hfound
  obtain rfl := Except.ok.inj (hbefore.symm.trans hfound)
  obtain rfl := Except.ok.inj (hnext.symm.trans hupdate)
  refine ⟨(List.getElem?_eq_some_iff.mp hd).1, ?_, ?_⟩
  · have hlen : (Contract.chunksFrom stream 0 d.2.newLeafCount).length = d.2.newLeafCount :=
      Contract.chunksFrom_length _ _ _
    change nextFrontier event.nextNonce next = _
    rw [mirrored, leafCountAfter_take_succ hd, nextFrontier, hcommits.leafCount_eq,
      hcommits.peakList_eq _ (by rwa [hlen]), hlen, streamPeaks_chunksFrom,
      hmirroring.settled.nextNonce_eq hchecked howed, hfrontier]
    rfl
  · exact hmirroring.settled.commit hchecked howed

/-- A crash inside a commit leaves a directory that opens before or after it, if at all. -/
theorem crashed {s : Contract.Storage} (hmirroring : Mirroring keccak256 stream codec ds k ingestor)
    (hreads : ReadsFrontiers keccak256 stream codec ds)
    (hdeclared : Contract.Declared keccak256 s ds)
    (hcanonical : CanonicalLog keccak256 versionedHash stream published ds)
    (hd : ds[k]? = some d) {event : DeclaredEvent} (hannounces : Announces event d.2)
    {sources : List BlobSource} {left : Disk DataFile}
    (hcrash : Interrupted keccak256 versionedHash codec sources ingestor.store ingestor.disk event
      left) : Reopens keccak256 stream codec ds left := by
  have hinterrupted := hcrash
  obtain ⟨chunks, mmr, hverified, hops⟩ := hcrash
  obtain ⟨bytes, hbytes, hlen⟩ := hmirroring.settled.chunks
  rcases crash_commitOps hbytes hlen hops with ⟨tail, content, _, rfl⟩ | rfl
  · intro store cut hopen
    by_cases htorn : k = 0 ∧ tail ≠ []
    · -- no frontier file was ever written, so the torn bytes are taken for a lost dataset
      obtain ⟨hzero, hsome⟩ := htorn
      have hnone : ingestor.disk (.state .frontier) = none := by
        rw [hmirroring.settled.file, if_pos (decide_eq_true hzero)]
      generalize hcrashed : Function.update (Function.update ingestor.disk .chunks
        (some (bytes ++ tail))) (.tmp .frontier) content = crashed at hopen
      have hfile : crashed (.state .frontier) = none := by
        rw [← hcrashed, ← hnone]
        rfl
      have hdata : ChunkFile.data crashed = bytes ++ tail := by
        rw [← hcrashed]
        exact ChunkFile.data_of_some rfl
      rw [Store.open_orphaned hfile (by rw [hdata]; exact List.append_ne_nil_of_right_ne_nil _ hsome)]
        at hopen
      cases hopen
    · have htail : decide (k = 0) = true → tail = [] := by
        intro hzero
        by_contra hsome
        exact htorn ⟨of_decide_eq_true hzero, hsome⟩
      have hopened := @Settled.open_torn _ _ _ _ _ _ content hmirroring.settled
        (hmirroring.readsBack hreads) hlen htail
      obtain ⟨rfl, rfl⟩ := Prod.mk.inj (Except.ok.inj (hopened.symm.trans hopen))
      exact ⟨k, hmirroring.le, hmirroring.frontier,
        hmirroring.settled.of_restart (Or.inr hinterrupted) rfl hopen⟩
  · exact (hmirroring.commit hdeclared hcanonical hd hannounces hverified).reopens hreads

/-! ## Calls with the declarations -/

theorem nonce_eq (hmirroring : Mirroring keccak256 stream codec ds k ingestor) :
    ingestor.store.frontier.nonce = k := by
  rw [hmirroring.frontier]
  rfl

section

variable {s : Contract.Storage} {j : Nat}
variable (hmirroring : Mirroring keccak256 stream codec ds k ingestor)
variable (hdeclared : Contract.Declared keccak256 s ds) (hd : ds[j]? = some d)
variable (hannounces : Announces delivery.event d.2)

include hmirroring hdeclared hd hannounces

/-- An earlier declaration is recognised by its nonce and ignored. -/
theorem call_again (hj : j < k) :
    ingestor.call keccak256 versionedHash codec delivery = (.ok false, ingestor) := by
  apply Ingestor.call_redelivery
  rw [hmirroring.nonce_eq, hannounces.nonce, hdeclared.nonces j d hd]
  exact hj

/-- A later declaration shows the gap. -/
theorem call_gap (hj : k < j) :
    ingestor.call keccak256 versionedHash codec delivery =
      (.error (.returned (.nonceGap k j)), ingestor) := by
  have hnonce : delivery.event.nonce = j := hannounces.nonce.trans (hdeclared.nonces j d hd)
  have hgap : delivery.event.nonce > ingestor.store.frontier.nonce := by
    rw [hnonce, hmirroring.nonce_eq]
    exact hj
  rw [Ingestor.call_eq, ingest_gap hgap, hnonce, hmirroring.nonce_eq]

variable (hcanonical : CanonicalLog keccak256 versionedHash stream published ds)

include hcanonical

/-- Whatever a call comes to, the store stays at the frontier of some declarations. -/
theorem call_some : ∃ next, Mirroring keccak256 stream codec ds next
    (ingestor.call keccak256 versionedHash codec delivery).2 := by
  by_cases hcommitted : (ingestor.call keccak256 versionedHash codec delivery).1 = .ok true
  · obtain ⟨howed, chunks, mmr, hverified, hnext⟩ := Ingestor.call_commit hcommitted
    rw [hmirroring.nonce_eq, hannounces.nonce, hdeclared.nonces j d hd] at howed
    subst howed
    rw [hnext]
    exact ⟨j + 1, hmirroring.commit hdeclared hcanonical hd hannounces hverified⟩
  · rw [Ingestor.call_unchanged hcommitted]
    exact ⟨k, hmirroring⟩

/-- The owed declaration passes every check while its blobs are served, and is committed. -/
theorem call_next (hj : j = k)
    (hsupplies : Supplies versionedHash delivery.sources delivery.event (published j)) :
    (ingestor.call keccak256 versionedHash codec delivery).1 = .ok true ∧
      Mirroring keccak256 stream codec ds (k + 1)
        (ingestor.call keccak256 versionedHash codec delivery).2 := by
  subst hj
  have hfrontier := hmirroring.frontier
  have howed : delivery.event.nonce = ingestor.store.frontier.nonce := by
    rw [hmirroring.nonce_eq, hannounces.nonce, hdeclared.nonces j d hd]
  obtain ⟨mmr, hverified⟩ := (hcanonical j d hd).verified (hdeclared.growing j d hd) hannounces
    (by rw [hfrontier]; rfl) (by rw [hfrontier]; rfl) hsupplies
  rw [Ingestor.call_verified howed hverified]
  exact ⟨rfl, hmirroring.commit hdeclared hcanonical hd hannounces hverified⟩

end

end Mirroring

end

end Blobsitter.Daemon
