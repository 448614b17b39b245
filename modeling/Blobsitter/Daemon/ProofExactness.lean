import Blobsitter.Contract.MmrRefinement
import Blobsitter.Daemon.CustodyWitness
import Blobsitter.Reference.Subtrees

/-!
# Exactness of the proof sets

`build_proof_set` returns a set for exactly the requests that can be answered, and what it
returns the contract accepts.
-/

namespace Blobsitter.Daemon

open Library
open Reference (Chunk Hash PathBuilder root streamPeaks honestPath)

section

variable {keccak256 : ByteString → Hash} {reader : Reader} {chunks : List Chunk} {n : Nat}

/-- The file holds the listed chunks up to the frontier of the reader. -/
def Reader.Stores (reader : Reader) (chunks : List Chunk) : Prop :=
  ∀ i < reader.leafCount, ∃ chunk, chunks[i]? = some chunk ∧
    ChunkFile.read reader.disk i = .ok chunk

theorem Reader.Stores.holds (hstores : reader.Stores chunks) {n : Nat} (hn : n ≤ reader.leafCount) :
    reader.Holds (fun i => chunks.getD i default) n where
  below := hn
  read := by
    intro i hi
    obtain ⟨chunk, hchunk, hread⟩ := hstores i (by omega)
    rw [hread, List.getD_eq_getElem?_getD, hchunk, Option.getD_some]

theorem Reader.Stores.length_le (hstores : reader.Stores chunks) :
    reader.leafCount ≤ chunks.length := by
  by_contra hshort
  obtain ⟨chunk, hchunk, _⟩ := hstores chunks.length (Nat.lt_of_not_le hshort)
  rw [List.getElem?_eq_none (Nat.le_refl _)] at hchunk
  cases hchunk

/-- The peaks of the first chunks as a list of their own. -/
theorem leafPeaks_eq_streamPeaks (hn : n ≤ chunks.length) :
    leafPeaks (Reference.node keccak256) 64
        (fun i => Reference.leaf keccak256 (chunks.getD i default)) n =
      streamPeaks keccak256 (chunks.take n) := by
  rw [streamPeaks, List.length_take, Nat.min_eq_left hn]
  apply leafPeaks_congr
  intro i hi
  rw [Reference.chunkLeaves, List.getD_eq_getElem?_getD, List.getD_eq_getElem?_getD,
    List.getElem?_take_of_lt hi]

/-- An honest path passes the library's verifier. -/
theorem verify_honest (stream : Nat → Chunk) {i : Nat} (hi : i < n) (hn : n < 2 ^ 64) :
    Contract.MMR.verify keccak256 (stream i) i (honestPath keccak256 stream i n) n
      (leafPeaks (Reference.node keccak256) 64 (fun i => Reference.leaf keccak256 (stream i)) n) =
        .ok true := by
  obtain ⟨accepted, hours, htheirs⟩ := @Contract.MMR.verify_eq keccak256 (stream i) i n
    (honestPath keccak256 stream i n)
    (leafPeaks (Reference.node keccak256) 64 (fun i => Reference.leaf keccak256 (stream i)) n) hn
  rw [Reference.verify_honestPath keccak256 stream hi hn] at htheirs
  rw [hours, ← Except.ok.inj htheirs]

/-- A set is returned exactly when the leaf count is committed, every index is below it, no
read fails and the pin is the root of the first chunks.  Its peaks re-bag to the pin and
every pair, in the order of the indices, passes the verifier of the contract.  The memo
never changes a root, whatever calls came before. -/
theorem build_proof_set_exact (hstores : reader.Stores chunks) (hfits : reader.leafCount < 2 ^ 64)
    (indices : List Nat) (n : Nat) (pinnedRoot : Hash) :
    ((∃ set, buildProofSet keccak256 reader indices n pinnedRoot = .ok set) ↔
      n ≤ reader.leafCount ∧ (∀ index ∈ indices, index < n) ∧
        (∀ call < readCalls keccak256 reader indices n, reader.faults call = none) ∧
        root keccak256 n (streamPeaks keccak256 (chunks.take n)) = pinnedRoot) ∧
    (∀ set, buildProofSet keccak256 reader indices n pinnedRoot = .ok set →
      set.n = n ∧ Contract.MMR.bagRoot keccak256 n set.peaks = pinnedRoot ∧
        List.Forall₂ (fun index proven => chunks[index]? = some proven.chunk ∧
          Contract.MMR.verify keccak256 proven.chunk index proven.path n set.peaks = .ok true)
          indices set.proven) ∧
    ∀ (builder : PathBuilder Reads) (start h : Nat),
      builder.Called keccak256 reader.chunkAt reader.leafCount →
      start + 2 ^ h ≤ reader.leafCount →
      (PathBuilder.subtreeRoot keccak256 reader.chunkAt h start builder).2.source.Clean →
      (PathBuilder.subtreeRoot keccak256 reader.chunkAt h start builder).1 =
        perfectRoot (Reference.node keccak256)
          (fun i => Reference.leaf keccak256 (chunks.getD i default)) start h := by
  have hpassed : ∀ set, buildProofSet keccak256 reader indices n pinnedRoot = .ok set →
      n ≤ reader.leafCount ∧ ∀ index ∈ indices, index < n := by
    intro set hok
    unfold buildProofSet at hok
    simp only at hok
    split at hok
    · cases hok
    · next hle =>
        split at hok
        · cases hok
        · next hfind =>
            refine ⟨Nat.le_of_not_lt hle, ?_⟩
            intro index hmem
            have hbelow := List.find?_eq_none.mp hfind index hmem
            simp only [decide_eq_true_eq] at hbelow
            exact Nat.lt_of_not_le hbelow
  refine ⟨⟨?_, ?_⟩, ?_, ?_⟩
  · rintro ⟨set, hok⟩
    obtain ⟨hn, hindices⟩ := hpassed set hok
    obtain ⟨hreads, hroot, _⟩ :=
      (buildProofSet_eq_ok (hstores.holds hn) (hn.trans_lt hfits) hindices).mp hok
    rw [leafPeaks_eq_streamPeaks (hn.trans hstores.length_le)] at hroot
    exact ⟨hn, hindices, hreads, hroot⟩
  · rintro ⟨hn, hindices, hreads, hroot⟩
    rw [← leafPeaks_eq_streamPeaks (hn.trans hstores.length_le)] at hroot
    exact ⟨_, (buildProofSet_eq_ok (hstores.holds hn) (hn.trans_lt hfits) hindices).mpr
      ⟨hreads, hroot, rfl⟩⟩
  · intro set hok
    obtain ⟨hn, hindices⟩ := hpassed set hok
    obtain ⟨_, hroot, rfl⟩ :=
      (buildProofSet_eq_ok (hstores.holds hn) (hn.trans_lt hfits) hindices).mp hok
    refine ⟨rfl, hroot, ?_⟩
    rw [List.forall₂_map_right_iff, List.forall₂_same]
    intro index hmem
    have hindex := hindices index hmem
    obtain ⟨chunk, hchunk, _⟩ := hstores index (hindex.trans_le hn)
    have hstream : chunks.getD index default = chunk := by
      rw [List.getD_eq_getElem?_getD, hchunk, Option.getD_some]
    exact ⟨by rw [hchunk, hstream],
      verify_honest (fun i => chunks.getD i default) hindex (hn.trans_lt hfits)⟩
  · intro builder start h hcalled hbelow hclean
    exact hcalled.subtreeRoot_eq hfits (hstores.holds (Nat.le_refl _)).soundSource hbelow hclean

end

open Reference (threeChunks)

/-- A store of three chunks proves the first two of them, in any order and again. -/
theorem build_proof_set_exact_snapshot :
    ∃ set, buildProofSet Keccak.keccak256 ((sampleStore threeChunks).reader (sampleDisk threeChunks))
        [1, 0, 1] 2 (root Keccak.keccak256 2 (streamPeaks Keccak.keccak256 (threeChunks.take 2))) =
          .ok set ∧
      set.n = 2 ∧ List.Forall₂ (fun index proven => threeChunks[index]? = some proven.chunk ∧
        Contract.MMR.verify Keccak.keccak256 proven.chunk index proven.path 2 set.peaks = .ok true)
          [1, 0, 1] set.proven := by
  have hstores : ((sampleStore threeChunks).reader (sampleDisk threeChunks)).Stores threeChunks := by
    intro i hi
    have hfile : sampleDisk threeChunks .chunks = some (packWords threeChunks) :=
      Function.update_self ..
    have hchunk : threeChunks[i]? = some (threeChunks.get ⟨i, hi⟩) := List.getElem?_eq_getElem hi
    exact ⟨_, hchunk, ChunkFile.read_packWords hfile hchunk⟩
  have hbelow : ∀ index ∈ [1, 0, 1], index < 2 := by decide
  have hexact := @build_proof_set_exact Keccak.keccak256 _ _ hstores (by decide) [1, 0, 1] 2
    (root Keccak.keccak256 2 (streamPeaks Keccak.keccak256 (threeChunks.take 2)))
  obtain ⟨set, hok⟩ := hexact.1.mpr ⟨show 2 ≤ 3 by decide, hbelow, fun _ _ => rfl, rfl⟩
  obtain ⟨hcount, _, hproven⟩ := hexact.2.1 set hok
  exact ⟨set, hok, hcount, hproven⟩

end Blobsitter.Daemon
