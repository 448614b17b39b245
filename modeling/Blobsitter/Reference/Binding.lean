import Blobsitter.Reference.Inclusion

/-!
# The root binds the dataset

A bagged root is 32 bytes, and stands for one dataset: histories of appends that end in the
same root have appended the same chunks in the same order, however they were batched.
-/

namespace Blobsitter.Reference

open Library

section

variable (keccak256 : ByteString → Hash)

/-- Every string hashed for the root of a chunk list. -/
def rootPreimages (stream : List Chunk) : Set ByteString :=
  insert (rootPreimage stream.length (streamPeaks keccak256 stream))
    (streamPreimages keccak256 (fun i => stream.getD i default) stream.length)

section

variable {keccak256} {first second : Nat → Chunk} {n : Nat}

/-- Equal leaf hashes come from equal chunks. -/
theorem chunk_of_leaf {i : Nat} (hi : i < n)
    (hfree : NoCollision keccak256 (streamPreimages keccak256 first n)
      (streamPreimages keccak256 second n))
    (hleaf : leaf keccak256 (first i) = leaf keccak256 (second i)) : first i = second i :=
  leafPreimage_inj (hfree _ (Or.inl ⟨i, hi, rfl⟩) _ (Or.inl ⟨i, hi, rfl⟩) hleaf)

/-- The trees below two peak lists join the same operands or collide. -/
theorem joinsApart_of_free
    (hfree : NoCollision keccak256 (streamPreimages keccak256 first n)
      (streamPreimages keccak256 second n)) {start stop : Nat} (hstop : stop ≤ n) :
    JoinsApart (node keccak256) (fun i => leaf keccak256 (first i))
      (fun i => leaf keccak256 (second i)) start stop := by
  intro pos level _ hend hjoin
  have hinside : pos + 2 ^ (level + 1) ≤ n := hend.trans hstop
  exact nodePreimage_inj
    (hfree _ (Or.inr ⟨pos, level, hinside, rfl⟩) _ (Or.inr ⟨pos, level, hinside, rfl⟩) hjoin)

/-- Streams with the same peaks over their first `n` chunks agree on them. -/
theorem stream_of_peaks (hn : n < 2 ^ 64)
    (hfree : NoCollision keccak256 (streamPreimages keccak256 first n)
      (streamPreimages keccak256 second n))
    (hpeaks : leafPeaks (node keccak256) 64 (fun i => leaf keccak256 (first i)) n =
      leafPeaks (node keccak256) 64 (fun i => leaf keccak256 (second i)) n) :
    ∀ i < n, first i = second i := by
  intro i hi
  obtain ⟨k, start, h, _, hcovers⟩ := locate_spec hi hn
  have hroot : perfectRoot (node keccak256) (fun i => leaf keccak256 (first i)) start h =
      perfectRoot (node keccak256) (fun i => leaf keccak256 (second i)) start h := by
    have hfirst := @leafPeaks_getElem? keccak256 i n (fun i => leaf keccak256 (first i)) _ _ _ hcovers
    have hsecond := @leafPeaks_getElem? keccak256 i n (fun i => leaf keccak256 (second i)) _ _ _ hcovers
    rw [hpeaks, hsecond] at hfirst
    exact (Option.some.inj hfirst).symm
  have hleaf := perfectRoot_inj (node keccak256) (joinsApart_of_free hfree hcovers.block_le) hroot i
    hcovers.lower hcovers.upper
  exact chunk_of_leaf hi hfree hleaf

end

variable {keccak256}

/-- One root, one chunk list. -/
theorem stream_of_root {first second : List Chunk} (hfirst : first.length < 2 ^ 64)
    (hsecond : second.length < 2 ^ 64)
    (hfree : NoCollision keccak256 (rootPreimages keccak256 first) (rootPreimages keccak256 second))
    (hroot : root keccak256 first.length (streamPeaks keccak256 first) =
      root keccak256 second.length (streamPeaks keccak256 second)) : first = second := by
  have hsame := hfree _ (Set.mem_insert _ _) _ (Set.mem_insert _ _) hroot
  obtain ⟨hlength, hpeaks⟩ := rootPreimage_inj hfirst hsecond hsame
  have hstreams : NoCollision keccak256
      (streamPreimages keccak256 (fun i => first.getD i default) first.length)
      (streamPreimages keccak256 (fun i => second.getD i default) first.length) := by
    refine hfree.mono (Set.subset_insert _ _) ?_
    rw [hlength]
    exact Set.subset_insert _ _
  unfold streamPeaks at hpeaks
  rw [← hlength] at hpeaks
  have hchunks := stream_of_peaks hfirst hstreams hpeaks
  refine List.ext_getElem hlength fun i hi hi' => ?_
  have hchunk := hchunks i hi
  rwa [List.getD_eq_getElem _ _ hi, List.getD_eq_getElem _ _ hi'] at hchunk

/-- States with one root, reached by any batches of declared updates from nothing, hold the
same chunks in the same order, unless two strings hashed for them collide. -/
theorem root_binds_dataset {first second : List (List Chunk)}
    (hfirst : ∀ chunks ∈ first, chunks ≠ []) (hsecond : ∀ chunks ∈ second, chunks ≠ [])
    (hfits : first.flatten.length < 2 ^ 64) (hfits' : second.flatten.length < 2 ^ 64) :
    ∃ mmr mmr', Mmr.new.applyBatches keccak256 first = .ok mmr ∧
      Mmr.new.applyBatches keccak256 second = .ok mmr' ∧
      (first.flatten = second.flatten → mmr = mmr') ∧
      (NoCollision keccak256 (rootPreimages keccak256 first.flatten)
          (rootPreimages keccak256 second.flatten) →
        mmr.root keccak256 = mmr'.root keccak256 → first.flatten = second.flatten) := by
  obtain ⟨mmr, hmmr, hcommits⟩ := (Mmr.new_commitsTo keccak256).applyBatches keccak256 hfirst
    (by rw [List.length_nil, Nat.zero_add]; exact hfits)
  obtain ⟨mmr', hmmr', hcommits'⟩ := (Mmr.new_commitsTo keccak256).applyBatches keccak256 hsecond
    (by rw [List.length_nil, Nat.zero_add]; exact hfits')
  rw [List.nil_append] at hcommits hcommits'
  refine ⟨mmr, mmr', hmmr, hmmr', fun hflat => ?_, fun hfree hroot => ?_⟩
  · rw [hflat] at hcommits
    exact hcommits.unique keccak256 hcommits'
  · unfold Mmr.root at hroot
    rw [hcommits.leafCount_eq, hcommits'.leafCount_eq, hcommits.peakList_eq keccak256 hfits,
      hcommits'.peakList_eq keccak256 hfits'] at hroot
    exact stream_of_root hfits hfits' hfree hroot

/-- Three chunks have one state, whichever way they were batched. -/
theorem root_binds_dataset_three : ∃ mmr mmr',
    Mmr.new.applyBatches Keccak.keccak256 [[beWord 31 1], [beWord 31 2, beWord 31 3]] = .ok mmr ∧
      Mmr.new.applyBatches Keccak.keccak256 [[beWord 31 1, beWord 31 2], [beWord 31 3]] = .ok mmr' ∧
      mmr.root Keccak.keccak256 = mmr'.root Keccak.keccak256 := by
  obtain ⟨mmr, mmr', hmmr, hmmr', hsame, _⟩ := @root_binds_dataset Keccak.keccak256
    [[beWord 31 1], [beWord 31 2, beWord 31 3]] [[beWord 31 1, beWord 31 2], [beWord 31 3]]
    (by simp) (by simp) (by simp) (by simp)
  exact ⟨mmr, mmr', hmmr, hmmr', by rw [hsame rfl]⟩

end

end Blobsitter.Reference
