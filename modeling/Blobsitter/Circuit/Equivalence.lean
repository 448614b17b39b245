import Blobsitter.Reference.Evaluation
import Blobsitter.Reference.FiatShamir
import Blobsitter.Reference.Subtrees

/-!
# The equivalence guest

The guest unpacks the blobs, hashes their chunks to subtree peaks, derives the
evaluation point from everything the declaration binds, and evaluates each blob there.
A run that returns has seen canonical blobs; honest inputs always return.
-/

namespace Blobsitter.Circuit

open Library
open Reference

/-- Witness and bound quantities of one declaration; the leaf counts are 64-bit. -/
structure EquivalenceInput where
  instanceAddress : Address
  blobVersionedHashes : List Hash
  priorPeaks : List Hash
  priorLeafCount : Nat
  newLeafCount : Nat
  blobs : List ByteString
  priorFits : priorLeafCount < 2 ^ 64
  newFits : newLeafCount < 2 ^ 64

section

variable (keccak256 : ByteString → Hash)

def checkBlobSize (blob : ByteString) : Except Fault Unit :=
  assertThat (blob.length = blobBytes) "blob size"

def readChunks (m : Nat) (blobs : List ByteString) : Except Fault (List Chunk) :=
  readBlobs (fun _ => .panic "canonical form: high byte")
    (fun _ => .panic "trailing element not zero") m checkBlobSize blobs 0

/-- The preimage of an input whose chunks have these subtree peaks. -/
def EquivalenceInput.preimage (input : EquivalenceInput) (subtrees : List Hash) : ByteString :=
  fsZPreimage input.instanceAddress input.blobVersionedHashes input.priorPeaks subtrees
    input.priorLeafCount input.newLeafCount

/-- Proves one declaration; returns the committed public values. -/
def equivalence (input : EquivalenceInput) : Except Fault ByteString := do
  assertThat (input.newLeafCount > input.priorLeafCount) "empty update"
  let m := input.newLeafCount - input.priorLeafCount
  let b := (m + 4095) / 4096
  assertThat (input.blobs.length = b) "blob count"
  assertThat (input.blobVersionedHashes.length = b) "versioned-hash count"
  let chunks ← readChunks m input.blobs
  let subtrees ← updateSubtreeRoots keccak256 input.priorLeafCount chunks
  let preimageHash := keccak256 (fsZPreimage input.instanceAddress input.blobVersionedHashes
    input.priorPeaks subtrees input.priorLeafCount input.newLeafCount)
  let z := fsZ keccak256 input.instanceAddress input.blobVersionedHashes input.priorPeaks subtrees
    input.priorLeafCount input.newLeafCount
  let ys ← input.blobs.mapM fun blob => barycentricEval (blobElements blob) z
  return equivalencePublicValues preimageHash ys

end

/-! ## What a returning run has seen -/

theorem readChunks_eq_ok {m : Nat} {blobs : List ByteString} {chunks : List Chunk}
    (hcount : blobs.length = (m + 4095) / 4096) :
    readChunks m blobs = .ok chunks ↔ chunks.length = m ∧ blobs = packed chunks := by
  have hsize : ∀ blob, checkBlobSize blob = .ok () ↔ blob.length = blobBytes :=
    fun _ => assertThat_eq_ok
  have hread := @readBlobs_eq_ok _ (fun _ => Fault.panic "canonical form: high byte")
    (fun _ => Fault.panic "trailing element not zero") m 0 _ blobs (fun blob _ => hsize blob)
    (by rw [Nat.zero_mul, Nat.sub_zero]; exact hcount) chunks
  rw [Nat.zero_mul, Nat.sub_zero] at hread
  exact hread

/-- The values that a blob stores. -/
def blobScalars (blob : ByteString) : List Scalar :=
  (blobElements blob).map fun e => (wordNat e : Scalar)

theorem chunkElement_canonical (chunk : Chunk) : wordNat (chunkElement chunk) < rBls := by
  have hlow := wordNat_lt chunk
  rw [wordNat, chunkElement_toList, beNat_cons]
  calc (0 : UInt8).toNat * 256 ^ chunk.toList.length + beNat chunk.toList
      = wordNat chunk := by rw [show (0 : UInt8).toNat = 0 from rfl, Nat.zero_mul, Nat.zero_add, wordNat]
    _ < 256 ^ 31 := hlow
    _ < rBls := by norm_num [rBls]

theorem zeroElement_canonical : wordNat zeroElement < rBls := by
  rw [wordNat_zeroElement]
  exact rBls_prime.pos

/-- Every element of a packed blob is below the modulus. -/
theorem packSlice_canonical {slice : List Chunk} :
    ∀ e ∈ blobElements (packSlice slice), wordNat e < rBls := by
  intro e hmem
  rw [packSlice_elements] at hmem
  rcases List.mem_append.mp hmem with hdata | hzero
  · obtain ⟨chunk, _, rfl⟩ := List.mem_map.mp hdata
    exact chunkElement_canonical chunk
  · rw [List.eq_of_mem_replicate hzero]
    exact zeroElement_canonical

theorem mem_packed {chunks : List Chunk} {blob : ByteString} (hmem : blob ∈ packed chunks) :
    ∃ slice : List Chunk, slice.length ≤ fieldElementsPerBlob ∧ blob = packSlice slice := by
  obtain ⟨slice, hslice, rfl⟩ := List.mem_map.mp hmem
  exact ⟨slice, sliceChunks_length_le hslice, rfl⟩

theorem wordNat_reduced (hash : Hash) : wordNat (beWord 32 (wordNat hash % rBls)) < rBls := by
  have hlt : wordNat hash % rBls < rBls := Nat.mod_lt _ rBls_prime.pos
  rw [wordNat_beWord (hlt.trans (rBls_lt.trans (by norm_num)))]
  exact hlt

/-- A packed blob evaluates as its polynomial does. -/
theorem packed_eval {chunks : List Chunk} {blob : ByteString} {z : Hash}
    (hmem : blob ∈ packed chunks) (hz : wordNat z < rBls) :
    barycentricEval (blobElements blob) z =
      .ok (toBe ((blobPolynomial (blobScalars blob)).eval (wordNat z : Scalar))) := by
  obtain ⟨slice, hfits, rfl⟩ := mem_packed hmem
  have hlen : (blobElements (packSlice slice)).length = fieldElementsPerBlob := by
    rw [packSlice_elements, List.length_append, List.length_map, List.length_replicate,
      Nat.add_sub_cancel' hfits]
  exact barycentricEval_eq hlen packSlice_canonical hz

section

variable {keccak256 : ByteString → Hash} {input : EquivalenceInput} {publicValues : ByteString}

/-- What the public values of a returning run commit to. -/
structure Proves (keccak256 : ByteString → Hash) (input : EquivalenceInput)
    (publicValues : ByteString) (chunks : List Chunk) (subtrees ys : List Hash) : Prop where
  count : chunks.length = input.newLeafCount - input.priorLeafCount
  canonical : input.blobs = packed chunks
  roots : updateSubtreeRoots keccak256 input.priorLeafCount chunks = .ok subtrees
  counted : WellCounted input.blobVersionedHashes subtrees input.priorLeafCount input.newLeafCount
  evaluated : input.blobs.mapM (fun blob => barycentricEval (blobElements blob)
    (beWord 32 (wordNat (keccak256 (input.preimage subtrees)) % rBls))) = .ok ys
  committed : publicValues = equivalencePublicValues (keccak256 (input.preimage subtrees)) ys

theorem updateSubtreeRoots_length {n0 : Nat} {chunks : List Chunk} {roots : List Hash}
    (hsome : chunks ≠ []) (hbound : n0 + chunks.length < 2 ^ 64)
    (hroots : updateSubtreeRoots keccak256 n0 chunks = .ok roots) :
    roots.length = (updateHeights n0 chunks.length).length := by
  have htiles := @updateSubtreeRoots_eq keccak256 (fun i => chunkLeaves keccak256 chunks (i - n0)) n0
    chunks hsome hbound (fun i _ => by rw [Nat.add_sub_cancel_left])
  rw [htiles] at hroots
  rw [← Except.ok.inj hroots, tileRoots_length]

theorem equivalence_eq_ok (hok : equivalence keccak256 input = .ok publicValues) :
    ∃ chunks subtrees ys, Proves keccak256 input publicValues chunks subtrees ys := by
  simp only [equivalence, bind_eq_ok, assertThat_eq_ok, pure_eq_ok] at hok
  obtain ⟨_, hgrows, _, hblobs, _, hhashes, chunks, hchunks, subtrees, hroots, ys, hys, rfl⟩ := hok
  obtain ⟨hcount, hcanonical⟩ := (readChunks_eq_ok hblobs).mp hchunks
  have hsome : chunks ≠ [] := by
    rintro rfl
    rw [List.length_nil] at hcount
    omega
  have hfits := input.newFits
  have hlength := updateSubtreeRoots_length hsome (by omega) hroots
  rw [hcount] at hlength
  exact ⟨chunks, subtrees, ys, hcount, hcanonical, hroots, ⟨hgrows, hfits, hhashes, hlength⟩, hys, rfl⟩

/-- The committed evaluations are those of the blobs' polynomials. -/
theorem Proves.evaluation {chunks : List Chunk} {subtrees ys : List Hash}
    (hproves : Proves keccak256 input publicValues chunks subtrees ys) {j : Nat} {blob : ByteString}
    (hblob : input.blobs[j]? = some blob) :
    ys[j]? = some (toBe ((blobPolynomial (blobScalars blob)).eval
      (wordNat (beWord 32 (wordNat (keccak256 (input.preimage subtrees)) % rBls)) : Scalar))) := by
  obtain ⟨y, hy, heval⟩ := (mapM_eq_ok hproves.evaluated).2 j blob hblob
  have hmem := List.mem_of_getElem? hblob
  rw [hproves.canonical] at hmem
  rw [packed_eval hmem (wordNat_reduced _)] at heval
  rw [hy, ← Except.ok.inj heval]

/-- Canonically packed chunks are proved. -/
theorem equivalence_honest {chunks : List Chunk} (hgrows : input.priorLeafCount < input.newLeafCount)
    (hcount : chunks.length = input.newLeafCount - input.priorLeafCount)
    (hblobs : input.blobs = packed chunks)
    (hhashes : input.blobVersionedHashes.length = (chunks.length + 4095) / 4096) :
    ∃ subtrees, updateSubtreeRoots keccak256 input.priorLeafCount chunks = .ok subtrees ∧
      equivalence keccak256 input = .ok (equivalencePublicValues (keccak256 (input.preimage subtrees))
        (input.blobs.map fun blob => toBe ((blobPolynomial (blobScalars blob)).eval
          (wordNat (beWord 32 (wordNat (keccak256 (input.preimage subtrees)) % rBls)) : Scalar)))) := by
  have hsome : chunks ≠ [] := by
    rintro rfl
    rw [List.length_nil] at hcount
    omega
  have hfits := input.newFits
  have hroots := @updateSubtreeRoots_eq keccak256
    (fun i => chunkLeaves keccak256 chunks (i - input.priorLeafCount)) input.priorLeafCount chunks
    hsome (by omega) (fun i _ => by rw [Nat.add_sub_cancel_left])
  refine ⟨_, hroots, ?_⟩
  have hlen : input.blobs.length = (chunks.length + 4095) / 4096 := by rw [hblobs, packed_length]
  have hys : ∀ z : Hash, wordNat z < rBls →
      input.blobs.mapM (fun blob => barycentricEval (blobElements blob) z) =
        .ok (input.blobs.map fun blob =>
          toBe ((blobPolynomial (blobScalars blob)).eval (wordNat z : Scalar))) :=
    fun z hz => mapM_eq_ok_map fun blob hmem => packed_eval (hblobs ▸ hmem) hz
  have hread := (readChunks_eq_ok (hcount ▸ hlen)).mpr ⟨hcount, hblobs⟩
  rw [hcount] at hlen hhashes
  rw [equivalence, assertThat_ok hgrows, ok_bind]
  simp only [assertThat_ok hlen, assertThat_ok hhashes, ok_bind, hread, hroots, fsZ]
  rw [hys _ (wordNat_reduced _)]
  rfl

end

end Blobsitter.Circuit
