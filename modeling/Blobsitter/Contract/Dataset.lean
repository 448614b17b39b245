import Blobsitter.Contract.MmrRefinement
import Blobsitter.Contract.Publication
import Blobsitter.Reference.Inclusion

/-!
# The committed chunk stream

What the contract's library does on the honest peaks of a chunk stream: an update by
honest subtree roots extends the peaks, rebuilt peaks and paths verify, and what
verifies is the stream's own chunk unless the hash collides.
-/

namespace Blobsitter.Contract

open Library
open Reference (Chunk Hash NoCollision leafPreimage nodePreimage rootPreimage updateHeights
  peakHeights)

section

variable (keccak256 : ByteString → Hash) (stream : Nat → Chunk)

def streamLeaves (i : Nat) : Hash := Reference.leaf keccak256 (stream i)

/-- Peaks over the first `n` chunks, tallest first. -/
def firstPeaks (n : Nat) : List Hash :=
  leafPeaks (Reference.node keccak256) 64 (streamLeaves keccak256 stream) n

theorem firstPeaks_zero : firstPeaks keccak256 stream 0 = [] := by
  simp [firstPeaks, leafPeaks, setBits]

/-- The chunks `[n, n + m)`. -/
def chunksFrom (n m : Nat) : List Chunk := (List.range' n m).map stream

@[simp]
theorem chunksFrom_length (n m : Nat) : (chunksFrom stream n m).length = m := by
  rw [chunksFrom, List.length_map, List.length_range']

theorem chunksFrom_getD {n m i : Nat} (hi : i < m) :
    (chunksFrom stream n m).getD i default = stream (n + i) := by
  rw [chunksFrom, List.getD_eq_getElem?_getD, List.getElem?_map, List.getElem?_range' hi]
  simp

/-- The range over the first `n` chunks. -/
def streamRange (n : Nat) : Range Hash :=
  ⟨n, fun h => perfectRoot (Reference.node keccak256) (streamLeaves keccak256 stream)
    (blockStart n (h + 1)) h⟩

theorem streamRange_commits (n : Nat) :
    (streamRange keccak256 stream n).Commits (Reference.node keccak256)
      (streamLeaves keccak256 stream) :=
  fun _ _ => rfl

/-- The honest roots of the next chunks are the tiles over the stream's leaves. -/
theorem updateSubtreeRoots_chunksFrom {n m : Nat} (hpos : 1 ≤ m) (hbound : n + m < 2 ^ 64) :
    Reference.updateSubtreeRoots keccak256 n (chunksFrom stream n m) =
      .ok (tileRoots (Reference.node keccak256) (streamLeaves keccak256 stream) n
        (updateHeights n m)) := by
  have hnonempty : chunksFrom stream n m ≠ [] := by
    intro hnil
    have hlen := chunksFrom_length stream n m
    rw [hnil, List.length_nil] at hlen
    omega
  have hleaves : ∀ i < (chunksFrom stream n m).length, streamLeaves keccak256 stream (n + i) =
      Reference.chunkLeaves keccak256 (chunksFrom stream n m) i := by
    intro i hi
    rw [chunksFrom_length] at hi
    rw [Reference.chunkLeaves, chunksFrom_getD stream hi, streamLeaves]
  have htiles := Reference.updateSubtreeRoots_eq keccak256 hnonempty
    (by rw [chunksFrom_length]; exact hbound) hleaves
  rwa [chunksFrom_length] at htiles

/-- Pushing the honest roots onto the range of the stream gives its next range. -/
theorem streamRange_pushAll {n m : Nat} (hbound : n + m < 2 ^ 64) :
    let next := (streamRange keccak256 stream n).pushAll (Reference.node keccak256)
      ((updateHeights n m).zip (tileRoots (Reference.node keccak256) (streamLeaves keccak256 stream)
        n (updateHeights n m)))
    next.count = n + m ∧ next.peaks 64 = firstPeaks keccak256 stream (n + m) := by
  have hlen : (tileRoots (Reference.node keccak256) (streamLeaves keccak256 stream) n
      (updateHeights n m)).length = (updateHeights n m).length := tileRoots_length _ _ _ _
  have hnext := (streamRange keccak256 stream n).pushAll_commits (Reference.node keccak256)
    (streamRange_commits keccak256 stream n) (Reference.updateHeights_tiles hbound)
  have hcount := (streamRange keccak256 stream n).pushAll_count (Reference.node keccak256) _ _ hlen
  rw [Reference.updateHeights_width hbound] at hcount
  refine ⟨hcount, (Range.peaks_of_commits _ 64 _ hnext).trans ?_⟩
  exact congrArg (leafPeaks (Reference.node keccak256) 64 (streamLeaves keccak256 stream)) hcount

theorem applyUpdate_firstPeaks {n m : Nat} {roots : List Hash} (hpos : 1 ≤ m)
    (hbound : n + m < 2 ^ 64)
    (hroots : Reference.updateSubtreeRoots keccak256 n (chunksFrom stream n m) = .ok roots) :
    MMR.applyUpdate keccak256 (firstPeaks keccak256 stream n) n roots (updateHeights n m) =
      .ok (firstPeaks keccak256 stream (n + m), n + m) := by
  rw [updateSubtreeRoots_chunksFrom keccak256 stream hpos hbound] at hroots
  obtain rfl := Except.ok.inj hroots
  obtain ⟨hcount, hpeaks⟩ := streamRange_pushAll keccak256 stream hbound
  rw [show firstPeaks keccak256 stream n = (streamRange keccak256 stream n).peaks 64 from
    ((streamRange keccak256 stream n).peaks_of_commits _ 64
      (streamRange_commits keccak256 stream n)).symm]
  refine (@MMR.applyUpdate_eq_range keccak256 (streamRange keccak256 stream n) _ _ m rfl hbound
    (tileRoots_length _ _ _ _)).trans ?_
  rw [← hpeaks, ← hcount]
  rfl

/-- Any roots of the right number move the count by the size of the update. -/
theorem applyUpdate_count {n m : Nat} {peaks roots : List Hash}
    (hpeaks : peaks.length = (peakHeights n).length) (hbound : n + m < 2 ^ 64)
    (hlen : roots.length = (updateHeights n m).length) :
    ∃ newPeaks, MMR.applyUpdate keccak256 peaks n roots (updateHeights n m) =
        .ok (newPeaks, n + m) ∧ newPeaks.length = (peakHeights (n + m)).length := by
  rw [Reference.peakHeights_eq] at hpeaks
  obtain ⟨peak, hpeak⟩ := exists_peak (List.nodup_reverse.mpr (setBits_nodup 64 n)) hpeaks
  have hcount := Range.pushAll_count (Reference.node keccak256) ⟨n, peak⟩ _ _ hlen
  rw [Reference.updateHeights_width hbound] at hcount
  have happly := @MMR.applyUpdate_eq_range keccak256 ⟨n, peak⟩ _ _ m hpeak hbound hlen
  rw [hcount] at happly
  refine ⟨_, happly, ?_⟩
  rw [Range.peaks, hcount, Reference.peakHeights_eq, List.length_map]

section

variable {keccak256} {dep : Deployment} {block : Block} {msg : Msg} {s : Storage}
variable {d : Declaration} {publisherSig : ByteString} {openings : List BlobOpening}
variable {equivalenceProof : ByteString} {out : Outcome}

/-- The accepted declaration's leaf count becomes the instance's. -/
theorem DeclareAccepted.counted
    (haccepted : DeclareAccepted keccak256 dep block msg s d publisherSig openings equivalenceProof
      out) (hpeaks : s.peaks.length = (peakHeights s.leafCount).length)
    (hfits : d.newLeafCount < 2 ^ 64) :
    out.storage.leafCount = d.newLeafCount ∧
      out.storage.peaks.length = (peakHeights d.newLeafCount).length ∧
      out.events = [.declared d.nonce d.newLeafCount d.blobVersionedHashes d.newSubtreePeaks
        d.appPointer msg.sender] ∧
      d.newSubtreePeaks.length =
        (updateHeights s.leafCount (d.newLeafCount - s.leafCount)).length ∧
      MMR.applyUpdate keccak256 s.peaks s.leafCount d.newSubtreePeaks
        (updateHeights s.leafCount (d.newLeafCount - s.leafCount)) =
          .ok (out.storage.peaks, d.newLeafCount) := by
  have hgrows := haccepted.grows
  have hsum : s.leafCount + (d.newLeafCount - s.leafCount) = d.newLeafCount := by omega
  obtain ⟨heights, hheights, hlen, newPeaks, n1, happly, rfl, rfl, hevents⟩ :=
    haccepted.subtreeCount
  rw [MMR.decompose_eq_heights (by omega)] at hheights
  obtain rfl := Except.ok.inj hheights
  obtain ⟨next, hnext, hnextLen⟩ := applyUpdate_count keccak256 hpeaks (by omega) hlen
  rw [hsum] at hnext hnextLen
  rw [happly] at hnext
  obtain ⟨hpeaksEq, hcountEq⟩ := Prod.mk.inj (Except.ok.inj hnext)
  refine ⟨hcountEq, by rw [hpeaksEq]; exact hnextLen, by rw [← hcountEq]; exact hevents, hlen, ?_⟩
  rw [happly, hcountEq]

end

/-! ## Rebuilding proofs -/

/-- Peaks that an operator rebuilds from the chunks alone. -/
def rebuiltPeaks (chunks : List Chunk) : List Hash :=
  (Reference.peaksAt keccak256 (fun i => chunks.getD i default) chunks.length []).1

/-- Chunk and path that an operator rebuilds from the chunks alone. -/
def rebuiltProof (chunks : List Chunk) (i : Nat) : ChunkProof where
  chunk := chunks.getD i default
  path :=
    match Reference.prove keccak256 (fun i => chunks.getD i default) i chunks.length [] with
    | .ok ((_, path), _) => path
    | .error _ => []

theorem firstChunks_getD {n i : Nat} (hi : i < n) :
    (chunksFrom stream 0 n).getD i default = stream i := by
  rw [chunksFrom_getD stream hi, Nat.zero_add]

theorem rebuiltPeaks_eq {n : Nat} (hn : n < 2 ^ 64) :
    rebuiltPeaks keccak256 (chunksFrom stream 0 n) = firstPeaks keccak256 stream n := by
  rw [rebuiltPeaks, chunksFrom_length,
    (Reference.peaksAt_spec keccak256 _ hn (Reference.Memo.honest_nil keccak256 _)).1]
  apply leafPeaks_congr
  intro i hi
  rw [firstChunks_getD stream hi, streamLeaves]

theorem firstPeaks_length (n : Nat) :
    (firstPeaks keccak256 stream n).length = (peakHeights n).length := by
  rw [firstPeaks, leafPeaks_length, Reference.peakHeights_eq, List.length_reverse]

/-- An operator rebuilds the stream's chunk with its honest path. -/
theorem rebuiltProof_eq {n i : Nat} (hi : i < n) (hn : n < 2 ^ 64) :
    rebuiltProof keccak256 (chunksFrom stream 0 n) i =
      ⟨stream i, Reference.honestPath keccak256 stream i n⟩ := by
  obtain ⟨k, start, h, memo, hlocate, hcovers, hprove, _⟩ := Reference.prove_spec keccak256
    (fun i => (chunksFrom stream 0 n).getD i default) hi hn (Reference.Memo.honest_nil keccak256 _)
  have hlower := hcovers.lower
  have hupper := hcovers.upper
  have hoff : i - start < 2 ^ h := by omega
  have hblock := hcovers.block_le
  rw [rebuiltProof, chunksFrom_length, hprove, firstChunks_getD stream hi,
    Reference.honestPath_eq keccak256 stream hlocate]
  refine congrArg (ChunkProof.mk (stream i)) ?_
  apply siblingPath_congr (Reference.node keccak256) hoff
  intro leaf _ hhi
  rw [Nat.zero_add] at hhi
  rw [firstChunks_getD stream (by omega)]

/-- A rebuilt proof verifies against the honest peaks. -/
theorem verify_rebuiltProof {n i : Nat} (hi : i < n) (hn : n < 2 ^ 64) :
    MMR.verify keccak256 (rebuiltProof keccak256 (chunksFrom stream 0 n) i).chunk i
      (rebuiltProof keccak256 (chunksFrom stream 0 n) i).path n (firstPeaks keccak256 stream n) =
      .ok true := by
  rw [rebuiltProof_eq keccak256 stream hi hn]
  obtain ⟨accepted, hours, htheirs⟩ := @MMR.verify_eq keccak256 (stream i) i n
    (Reference.honestPath keccak256 stream i n) (firstPeaks keccak256 stream n) hn
  have hhonest : Reference.verify keccak256 (stream i) i (Reference.honestPath keccak256 stream i n)
      n (firstPeaks keccak256 stream n) = .ok true :=
    Reference.verify_honestPath keccak256 stream hi hn
  rw [hhonest] at htheirs
  rw [hours, ← Except.ok.inj htheirs]

/-- The strings hashed for the leaves and nodes over the first `n` chunks. -/
def treePreimages (n : Nat) : Set ByteString :=
  {x | (∃ i < n, x = leafPreimage (stream i)) ∨
    ∃ pos level, pos + 2 ^ (level + 1) ≤ n ∧ x = nodePreimage
      (perfectRoot (Reference.node keccak256) (streamLeaves keccak256 stream) pos level)
      (perfectRoot (Reference.node keccak256) (streamLeaves keccak256 stream) (pos + 2 ^ level)
        level)}

/-- First leaf of the subtree that `locate` finds. -/
def locatedStart (i n : Nat) : Nat :=
  match MMR.locate i n with
  | .ok (_, start, _) => start
  | .error _ => 0

/-- The strings hashed when a proof of leaf `i` is verified. -/
def proofPreimages (proof : ChunkProof) (i n : Nat) : Set ByteString :=
  {x | x = leafPreimage proof.chunk ∨
    ∃ pair ∈ climbPairs (Reference.node keccak256) (i - locatedStart i n)
      (Reference.leaf keccak256 proof.chunk) proof.path, x = nodePreimage pair.1 pair.2}

/-- Both crates hash the same strings while a proof is verified. -/
theorem verifyPreimages_eq {proof : ChunkProof} {n i : Nat} (hn : n < 2 ^ 64) (hi : i < n) :
    Reference.verifyPreimages keccak256 proof.chunk i proof.path n =
      proofPreimages keccak256 proof i n := by
  obtain ⟨found, hours, htheirs⟩ := MMR.locate_eq hn hi
  have hstart : Reference.coveringStart i n = locatedStart i n := by
    rw [Reference.coveringStart, locatedStart, hours, htheirs]
  rw [Reference.verifyPreimages, proofPreimages, hstart]

/-- An honest proof hashes strings of the tree only. -/
theorem proofPreimages_honest {n i : Nat} (hn : n < 2 ^ 64) (hi : i < n) :
    proofPreimages keccak256 ⟨stream i, Reference.honestPath keccak256 stream i n⟩ i n ⊆
      treePreimages keccak256 stream n := by
  rw [← verifyPreimages_eq keccak256 hn hi]
  exact Reference.verifyPreimages_honest hi hn

/-- What verifies against honest peaks is the stream's own chunk. -/
theorem verify_sound {proof : ChunkProof} {n i : Nat} (hn : n < 2 ^ 64)
    (hverify : MMR.verify keccak256 proof.chunk i proof.path n (firstPeaks keccak256 stream n) =
      .ok true)
    (hfree : NoCollision keccak256 (treePreimages keccak256 stream n)
      (proofPreimages keccak256 proof i n)) :
    i < n ∧ proof.chunk = stream i := by
  obtain ⟨accepted, hours, htheirs⟩ := @MMR.verify_eq keccak256 proof.chunk i n proof.path
    (firstPeaks keccak256 stream n) hn
  rw [hverify] at hours
  obtain rfl := Except.ok.inj hours
  have hi : i < n := by
    by_contra hge
    rw [Reference.verify_of_le keccak256 _ _ _ (Nat.le_of_not_lt hge)] at htheirs
    cases htheirs
  obtain ⟨_, hchunk, _⟩ := @Reference.verify_sound _ stream _ _ _ _ hn htheirs
    (hfree.mono (Set.Subset.refl _) (verifyPreimages_eq keccak256 hn hi).subset)
  exact ⟨hi, hchunk⟩

/-- The one-word pin opens only to the honest peaks. -/
theorem bagRoot_sound {n : Nat} {peaks : List Hash} (hn : n < 2 ^ 64)
    (hroot : MMR.bagRoot keccak256 n peaks =
      MMR.bagRoot keccak256 n (firstPeaks keccak256 stream n))
    (hfree : NoCollision keccak256 {rootPreimage n (firstPeaks keccak256 stream n)}
      {rootPreimage n peaks}) : peaks = firstPeaks keccak256 stream n := by
  have hsame := hfree _ rfl _ rfl hroot.symm
  exact (Reference.rootPreimage_inj hn hn hsame).2.symm

end

end Blobsitter.Contract
