import Blobsitter.Circuit.Equivalence
import Blobsitter.Daemon.Source

/-!
# One blob packing

The publisher packs, the daemon unpacks and the equivalence guest unpacks again.  The
three agree on which blobs stand for which chunks, so what is proved can be ingested.
-/

namespace Blobsitter.Daemon

open Library
open Reference (Chunk Hash blobBytes packed pack pack_eq packed_length assertThat assertThat_eq_ok
  assertThat_ok)
open Circuit (EquivalenceInput equivalence readChunks readChunks_eq_ok equivalence_eq_ok
  equivalence_honest Proves)

/-- The guest's blob count and canonical-form assertions, and the chunks it extracts. -/
def guestChunks (m : Nat) (blobs : List ByteString) : Except Reference.Fault (List Chunk) := do
  assertThat (blobs.length = (m + 4095) / 4096) "blob count"
  readChunks m blobs

section

variable {keccak256 : ByteString → Hash} {input : EquivalenceInput} {m : Nat}
variable {blobs : List RawBlob} {chunks : List Chunk}

theorem mem_packed_length {blob : ByteString} (hmem : blob ∈ packed chunks) :
    blob.length = blobBytes := by
  obtain ⟨slice, hfits, rfl⟩ := Circuit.mem_packed hmem
  exact Reference.packSlice_length hfits

/-- The packing as the blobs of a source. -/
def packedBlobs (chunks : List Chunk) : List RawBlob :=
  (packed chunks).attach.map fun blob => ⟨blob.1, mem_packed_length blob.2⟩

theorem packedBlobs_val (chunks : List Chunk) :
    (packedBlobs chunks).map Subtype.val = packed chunks := by
  rw [packedBlobs, List.map_map]
  exact List.attach_map_subtype_val _

theorem chunksFromBlobs_iff_pack :
    chunksFromBlobs blobs m = .ok chunks ↔
      chunks.length = m ∧ pack chunks = .ok (blobs.map Subtype.val) := by
  rw [chunksFromBlobs_eq_ok, pack_eq, Except.ok.injEq]
  exact and_congr_right fun _ => eq_comm

theorem guestChunks_eq_ok {raw : List ByteString} :
    guestChunks m raw = .ok chunks ↔ chunks.length = m ∧ raw = packed chunks := by
  rw [guestChunks, bind_eq_ok]
  constructor
  · rintro ⟨_, hcount, hread⟩
    exact (readChunks_eq_ok (assertThat_eq_ok.mp hcount)).mp hread
  · rintro ⟨hlen, rfl⟩
    have hcount : (packed chunks).length = (m + 4095) / 4096 := by rw [packed_length, hlen]
    exact ⟨(), assertThat_ok hcount, (readChunks_eq_ok hcount).mpr ⟨hlen, rfl⟩⟩

/-- With one versioned hash for each blob, a run of the guest is stopped by nothing else
than these assertions. -/
theorem equivalence_returns_iff (hgrows : input.priorLeafCount < input.newLeafCount)
    (hm : input.newLeafCount - input.priorLeafCount = m)
    (hhashes : input.blobVersionedHashes.length = (m + 4095) / 4096) :
    (∃ publicValues, equivalence keccak256 input = .ok publicValues) ↔
      ∃ chunks, guestChunks m input.blobs = .ok chunks := by
  constructor
  · rintro ⟨publicValues, hok⟩
    obtain ⟨chunks, _, _, hproves⟩ := equivalence_eq_ok hok
    exact ⟨chunks, guestChunks_eq_ok.mpr ⟨hproves.count.trans hm, hproves.canonical⟩⟩
  · rintro ⟨chunks, hextracted⟩
    obtain ⟨hlen, hblobs⟩ := guestChunks_eq_ok.mp hextracted
    obtain ⟨_, _, hok⟩ := @equivalence_honest keccak256 input chunks hgrows (hlen.trans hm.symm)
      hblobs (by rw [hlen]; exact hhashes)
    exact ⟨_, hok⟩

end

/-- Unpacking undoes packing; the daemon accepts exactly the packings, and it and the
guest accept the same blobs and extract the same chunks. -/
theorem one_blob_packing :
    (∀ chunks : List Chunk, chunks ≠ [] →
      ∃ blobs : List RawBlob, pack chunks = .ok (blobs.map Subtype.val) ∧
        chunksFromBlobs blobs chunks.length = .ok chunks) ∧
    ∀ (m : Nat) (blobs : List RawBlob), 1 ≤ m →
      (∀ chunks, chunksFromBlobs blobs m = .ok chunks ↔
        chunks.length = m ∧ pack chunks = .ok (blobs.map Subtype.val)) ∧
      (∀ chunks, chunksFromBlobs blobs m = .ok chunks ↔
        guestChunks m (blobs.map Subtype.val) = .ok chunks) ∧
      ∀ (keccak256 : ByteString → Hash) (input : EquivalenceInput),
        input.blobs = blobs.map Subtype.val → input.newLeafCount - input.priorLeafCount = m →
        input.blobVersionedHashes.length = (m + 4095) / 4096 →
        ((∃ publicValues, equivalence keccak256 input = .ok publicValues) ↔
          ∃ chunks, chunksFromBlobs blobs m = .ok chunks) := by
  have hsame : ∀ (m : Nat) (blobs : List RawBlob) (chunks : List Chunk),
      chunksFromBlobs blobs m = .ok chunks ↔
        guestChunks m (blobs.map Subtype.val) = .ok chunks := by
    intro m blobs chunks
    rw [chunksFromBlobs_eq_ok, guestChunks_eq_ok]
  constructor
  · intro chunks _
    have hpack : pack chunks = .ok ((packedBlobs chunks).map Subtype.val) := by
      rw [packedBlobs_val, pack_eq]
    exact ⟨packedBlobs chunks, hpack, chunksFromBlobs_iff_pack.mpr ⟨rfl, hpack⟩⟩
  · intro m blobs hm
    refine ⟨fun _ => chunksFromBlobs_iff_pack, hsame m blobs, ?_⟩
    intro keccak256 input hblobs hcount hhashes
    rw [equivalence_returns_iff (by omega) hcount hhashes, hblobs]
    exact exists_congr fun chunks => (hsame m blobs chunks).symm

/-- Five thousand chunks, of which no two in a row are equal. -/
def manyChunks : List Chunk :=
  (List.range 5000).map fun i => Vector.replicate 31 (UInt8.ofNat i)

theorem manyChunks_length : manyChunks.length = 5000 := by
  rw [manyChunks, List.length_map, List.length_range]

/-- They take two blobs. -/
theorem one_blob_packing_many :
    ∃ blobs : List RawBlob, pack manyChunks = .ok (blobs.map Subtype.val) ∧ blobs.length = 2 ∧
      chunksFromBlobs blobs 5000 = .ok manyChunks ∧
      guestChunks 5000 (blobs.map Subtype.val) = .ok manyChunks := by
  have hsome : manyChunks ≠ [] := List.ne_nil_of_length_pos (manyChunks_length ▸ Nat.succ_pos _)
  obtain ⟨blobs, hpack, hread⟩ := one_blob_packing.1 manyChunks hsome
  rw [manyChunks_length] at hread
  refine ⟨blobs, hpack, ?_, hread, ((one_blob_packing.2 5000 blobs (by decide)).2.1 _).mp hread⟩
  rw [pack_eq] at hpack
  have hcount := congrArg List.length (Except.ok.inj hpack)
  rw [Reference.packed_length, manyChunks_length, List.length_map] at hcount
  exact hcount.symm

end Blobsitter.Daemon
