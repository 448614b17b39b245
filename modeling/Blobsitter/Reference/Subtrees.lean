import Blobsitter.Library.Keccak
import Blobsitter.Reference.Mmr

/-!
# Subtree roots of an update and batched append

The publisher side hashes each tile of an update over its slice of the chunks.  A
verifier state that merges those roots is the state that appends the chunks one by
one; both are determined by the chunk stream.
-/

namespace Blobsitter.Reference

open Library

section

variable (keccak256 : ByteString → Hash)

/-- `usize::is_power_of_two`. -/
def isPowerOfTwo (n : Nat) : Bool := n != 0 && 2 ^ Nat.log2 n == n

/-- The recursion of `chunk_subtree_root`; halving ends within `length` calls. -/
def chunkSubtreeRootLoop : Nat → List Chunk → Except Fault Hash
  | 0, _ => .error (.panic "perfect subtrees only")
  | fuel + 1, chunks =>
      if ¬ isPowerOfTwo chunks.length then .error (.panic "perfect subtrees only")
      else if hone : chunks.length = 1 then .ok (leaf keccak256 chunks[0])
      else do
        let half := chunks.length / 2
        let left ← chunkSubtreeRootLoop fuel (chunks.take half)
        let right ← chunkSubtreeRootLoop fuel (chunks.drop half)
        return node keccak256 left right

/-- Root of a perfect subtree over a power-of-two slice of chunks. -/
def chunkSubtreeRoot (chunks : List Chunk) : Except Fault Hash :=
  chunkSubtreeRootLoop keccak256 chunks.length chunks

/-- `&chunks[off..off + size]`. -/
def slice (chunks : List Chunk) (off size : Nat) : Except Fault (List Chunk) :=
  if off + size ≤ chunks.length then .ok ((chunks.drop off).take size)
  else .error (.panic "range end index out of range for slice")

def updateSubtreeRootsLoop (chunks : List Chunk) : List Nat → Nat → Except Fault (List Hash)
  | [], _ => .ok []
  | h :: rest, off => do
      let size := 2 ^ h
      let part ← slice chunks off size
      let out ← chunkSubtreeRoot keccak256 part
      let others ← updateSubtreeRootsLoop chunks rest (off + size)
      return out :: others

/-- The declared subtree peaks for an update of `chunks` appended at `n0`. -/
def updateSubtreeRoots (n0 : Nat) (chunks : List Chunk) : Except Fault (List Hash) := do
  let heights ← decompose n0 chunks.length
  updateSubtreeRootsLoop keccak256 chunks heights 0

/-- Leaf hashes of a chunk stream. -/
def chunkLeaves (stream : List Chunk) (i : Nat) : Hash :=
  leaf keccak256 (stream.getD i default)

theorem isPowerOfTwo_two_pow (h : Nat) : isPowerOfTwo (2 ^ h) = true := by
  simp [isPowerOfTwo, Nat.log2_two_pow]

theorem getD_drop (stream : List Chunk) (off i : Nat) :
    (stream.drop off).getD i default = stream.getD (off + i) default := by
  simp [List.getD_eq_getElem?_getD]

theorem getD_take {stream : List Chunk} {size i : Nat} (hlt : i < size) :
    (stream.take size).getD i default = stream.getD i default := by
  simp [List.getD_eq_getElem?_getD, hlt]

theorem chunkSubtreeRootLoop_eq {fuel h : Nat} {chunks : List Chunk}
    (hlen : chunks.length = 2 ^ h) (hfuel : h < fuel) :
    chunkSubtreeRootLoop keccak256 fuel chunks =
      .ok (perfectRoot (node keccak256) (chunkLeaves keccak256 chunks) 0 h) := by
  induction fuel generalizing h chunks with
  | zero => omega
  | succ fuel ih =>
      rw [chunkSubtreeRootLoop, if_neg (by simp [hlen, isPowerOfTwo_two_pow])]
      cases h with
      | zero =>
          obtain ⟨chunk, rfl⟩ := List.length_eq_one_iff.mp hlen
          rfl
      | succ h =>
          have hdouble : chunks.length = 2 ^ h + 2 ^ h := by
            rw [hlen]
            ring
          have hpos := Nat.two_pow_pos h
          have hhalf : chunks.length / 2 = 2 ^ h := by omega
          have hleft := @ih h (chunks.take (2 ^ h))
            (by rw [List.length_take]; omega) (by omega)
          have hright := @ih h (chunks.drop (2 ^ h))
            (by rw [List.length_drop]; omega) (by omega)
          have hleftRoot : perfectRoot (node keccak256)
              (chunkLeaves keccak256 (chunks.take (2 ^ h))) 0 h =
                perfectRoot (node keccak256) (chunkLeaves keccak256 chunks) 0 h := by
            apply perfectRoot_congr
            intro i _ hi
            rw [chunkLeaves, getD_take (by omega), chunkLeaves]
          have hrightRoot : perfectRoot (node keccak256)
              (chunkLeaves keccak256 (chunks.drop (2 ^ h))) 0 h =
                perfectRoot (node keccak256) (chunkLeaves keccak256 chunks) (0 + 2 ^ h) h := by
            rw [Nat.zero_add, ← Nat.add_zero (2 ^ h), ← perfectRoot_shift]
            apply perfectRoot_congr
            intro i _ _
            rw [chunkLeaves, Nat.add_zero, getD_drop, chunkLeaves]
          rw [hleftRoot] at hleft
          rw [hrightRoot] at hright
          rw [dif_neg (by omega)]
          simp only [hhalf, hleft, hright, bind, Except.bind, perfectRoot]
          rfl

theorem chunkSubtreeRoot_eq {h : Nat} {chunks : List Chunk} (hlen : chunks.length = 2 ^ h) :
    chunkSubtreeRoot keccak256 chunks =
      .ok (perfectRoot (node keccak256) (chunkLeaves keccak256 chunks) 0 h) :=
  chunkSubtreeRootLoop_eq keccak256 hlen (by rw [hlen]; exact Nat.lt_two_pow_self)

theorem updateSubtreeRootsLoop_eq {leaves : Nat → Hash} {n0 : Nat} {chunks : List Chunk}
    (hleaves : ∀ i, i < chunks.length → leaves (n0 + i) = chunkLeaves keccak256 chunks i)
    {heights : List Nat} {off : Nat} (hfits : off + tileWidth heights ≤ chunks.length) :
    updateSubtreeRootsLoop keccak256 chunks heights off =
      .ok (tileRoots (node keccak256) leaves (n0 + off) heights) := by
  induction heights generalizing off with
  | nil => rfl
  | cons h rest ih =>
      rw [tileWidth_cons] at hfits
      have hslice : slice chunks off (2 ^ h) = .ok ((chunks.drop off).take (2 ^ h)) := by
        rw [slice, if_pos (by omega)]
      have hpart : ((chunks.drop off).take (2 ^ h)).length = 2 ^ h := by
        rw [List.length_take, List.length_drop]
        omega
      have hroot := chunkSubtreeRoot_eq keccak256 hpart
      have hglobal : perfectRoot (node keccak256)
          (chunkLeaves keccak256 ((chunks.drop off).take (2 ^ h))) 0 h =
            perfectRoot (node keccak256) leaves (n0 + off) h := by
        rw [← Nat.add_zero (n0 + off), ← perfectRoot_shift]
        apply perfectRoot_congr
        intro i _ hi
        rw [chunkLeaves, getD_take (by omega), getD_drop, Nat.add_assoc, hleaves (off + i) (by omega),
          chunkLeaves]
      rw [hglobal] at hroot
      have htail := @ih (off + 2 ^ h) (by omega)
      simp only [updateSubtreeRootsLoop, hslice, hroot, htail, bind, Except.bind, tileRoots,
        Nat.add_assoc]
      rfl

/-- The declared roots are the honest tile roots of the appended leaves. -/
theorem updateSubtreeRoots_eq {leaves : Nat → Hash} {n0 : Nat} {chunks : List Chunk}
    (hne : chunks ≠ []) (hbound : n0 + chunks.length < 2 ^ 64)
    (hleaves : ∀ i, i < chunks.length → leaves (n0 + i) = chunkLeaves keccak256 chunks i) :
    updateSubtreeRoots keccak256 n0 chunks =
      .ok (tileRoots (node keccak256) leaves n0 (updateHeights n0 chunks.length)) := by
  have hpos : 1 ≤ chunks.length := List.length_pos_of_ne_nil hne
  have hfits : 0 + tileWidth (updateHeights n0 chunks.length) ≤ chunks.length := by
    rw [updateHeights_width hbound]
    omega
  have hloop := updateSubtreeRootsLoop_eq keccak256 hleaves hfits
  simp only [updateSubtreeRoots, decompose_eq hpos, bind, Except.bind, hloop, Nat.add_zero]

/-! ## States over a chunk stream -/

/-- The state is the mountain range over exactly the stream's chunks. -/
def Mmr.CommitsTo (mmr : Mmr) (stream : List Chunk) : Prop :=
  ∃ range : Range Hash, mmr.Refines range ∧ range.count = stream.length ∧
    range.Commits (node keccak256) (chunkLeaves keccak256 stream)

theorem Mmr.new_commitsTo : Mmr.new.CommitsTo keccak256 [] :=
  ⟨⟨0, fun _ => default⟩, Mmr.new_refines _, rfl, fun h hbit => by simp at hbit⟩

theorem Mmr.CommitsTo.leafCount_eq {mmr : Mmr} {stream : List Chunk}
    (hcommits : mmr.CommitsTo keccak256 stream) : mmr.leafCount = stream.length := by
  obtain ⟨range, hrefines, hcount, _⟩ := hcommits
  rw [hrefines.count, hcount]

/-- A stream has only one state. -/
theorem Mmr.CommitsTo.unique {first second : Mmr} {stream : List Chunk}
    (hfirst : first.CommitsTo keccak256 stream) (hsecond : second.CommitsTo keccak256 stream) :
    first = second := by
  obtain ⟨range, hrefines, hcount, hcommits⟩ := hfirst
  obtain ⟨other, hrefines', hcount', hcommits'⟩ := hsecond
  have hsame : range.count = other.count := by rw [hcount, hcount']
  apply Mmr.eq_of_refines hrefines hrefines' hsame
  intro h hbit
  rw [hcommits h hbit, hcommits' h (by rw [← hsame]; exact hbit), hsame]

/-- The canonical peaks over a stream: the perfect roots at the set bits of its
length, tallest first. -/
def streamPeaks (stream : List Chunk) : List Hash :=
  leafPeaks (node keccak256) 64 (chunkLeaves keccak256 stream) stream.length

theorem Mmr.CommitsTo.peakList_eq {mmr : Mmr} {stream : List Chunk}
    (hcommits : mmr.CommitsTo keccak256 stream) (hbound : stream.length < 2 ^ 64) :
    mmr.peakList = streamPeaks keccak256 stream := by
  obtain ⟨range, hrefines, hcount, hrange⟩ := hcommits
  rw [Mmr.peakList_of_refines hrefines (by omega), range.peaks_of_commits _ 64 hrange, hcount]
  rfl

/-- The canonical peaks rehydrate to the state over the stream. -/
theorem Mmr.fromState_streamPeaks {stream : List Chunk} (hbound : stream.length < 2 ^ 64) :
    ∃ mmr, Mmr.fromState stream.length (streamPeaks keccak256 stream) = .ok mmr ∧
      mmr.CommitsTo keccak256 stream := by
  let range : Range Hash := ⟨stream.length, fun h => perfectRoot (node keccak256)
    (chunkLeaves keccak256 stream) (blockStart stream.length (h + 1)) h⟩
  obtain ⟨mmr, hmmr, hrefines⟩ := Mmr.fromState_refines range rfl hbound
  exact ⟨mmr, hmmr, range, hrefines, rfl, fun _ _ => rfl⟩

theorem chunkLeaves_append_left (stream chunks : List Chunk) {i : Nat} (hi : i < stream.length) :
    chunkLeaves keccak256 (stream ++ chunks) i = chunkLeaves keccak256 stream i := by
  simp only [chunkLeaves, List.getD_eq_getElem?_getD, List.getElem?_append_left hi]

theorem chunkLeaves_append_right (stream chunks : List Chunk) (i : Nat) :
    chunkLeaves keccak256 (stream ++ chunks) (stream.length + i) =
      chunkLeaves keccak256 chunks i := by
  simp only [chunkLeaves, List.getD_eq_getElem?_getD,
    List.getElem?_append_right (Nat.le_add_right _ _), Nat.add_sub_cancel_left]

/-- A range over a stream is the same range over any extension of the stream. -/
theorem commits_append {range : Range Hash} {stream : List Chunk}
    (hcount : range.count = stream.length)
    (hcommits : range.Commits (node keccak256) (chunkLeaves keccak256 stream))
    (chunks : List Chunk) :
    range.Commits (node keccak256) (chunkLeaves keccak256 (stream ++ chunks)) := by
  intro h hbit
  rw [hcommits h hbit]
  have hle := blockStart_succ_add_le hbit
  apply perfectRoot_congr
  intro i _ hi
  exact (chunkLeaves_append_left keccak256 stream chunks (by omega)).symm

/-- One update by the declared roots of the next chunks extends the stream. -/
theorem Mmr.CommitsTo.applyUpdate {mmr : Mmr} {stream chunks : List Chunk}
    (hcommits : mmr.CommitsTo keccak256 stream) (hne : chunks ≠ [])
    (hbound : stream.length + chunks.length < 2 ^ 64) :
    ∃ roots next, updateSubtreeRoots keccak256 stream.length chunks = .ok roots ∧
      mmr.applyUpdate keccak256 roots chunks.length = .ok next ∧
      next.CommitsTo keccak256 (stream ++ chunks) := by
  obtain ⟨range, hrefines, hcount, hrange⟩ := hcommits
  have hpos : 1 ≤ chunks.length := List.length_pos_of_ne_nil hne
  have hroots := updateSubtreeRoots_eq keccak256 hne hbound
    fun i _ => chunkLeaves_append_right keccak256 stream chunks i
  have hlen : (tileRoots (node keccak256) (chunkLeaves keccak256 (stream ++ chunks)) stream.length
      (updateHeights stream.length chunks.length)).length =
        (updateHeights range.count chunks.length).length := by
    rw [tileRoots_length, hcount]
  obtain ⟨next, happly, hnext⟩ :=
    mmr.applyUpdate_refines keccak256 hrefines hpos (by omega) hlen
  refine ⟨_, next, hroots, happly, _, hnext, ?_, ?_⟩
  · rw [Range.pushAll_count _ _ _ _ hlen, updateHeights_width (by omega), hcount,
      List.length_append]
  · rw [← hcount]
    exact range.pushAll_commits _ (commits_append keccak256 hcount hrange chunks)
      (updateHeights_tiles (by omega))

theorem updateHeights_one {n : Nat} (hbound : n + 1 < 2 ^ 64) : updateHeights n 1 = [0] := by
  have hlog := nextHeight_le_log n (Nat.one_pos) (by omega)
  have hzero : nextHeight n 1 = 0 := by
    rw [show Nat.log2 1 = 0 from rfl] at hlog
    omega
  rw [updateHeights, decomposeLoop_succ (by omega) hbound, hzero]
  rfl

/-- Appending one leaf is the update by that chunk alone. -/
theorem Mmr.CommitsTo.appendLeaf {mmr : Mmr} {stream : List Chunk}
    (hcommits : mmr.CommitsTo keccak256 stream) (chunk : Chunk)
    (hbound : stream.length + 1 < 2 ^ 64) :
    ∃ next, mmr.appendLeaf keccak256 chunk = .ok next ∧
      next.CommitsTo keccak256 (stream ++ [chunk]) := by
  obtain ⟨roots, next, hroots, happly, hnext⟩ :=
    hcommits.applyUpdate keccak256 (List.cons_ne_nil chunk []) hbound
  have hleaf := updateSubtreeRoots_eq keccak256 (List.cons_ne_nil chunk []) hbound
    fun i _ => chunkLeaves_append_right keccak256 stream [chunk] i
  rw [List.length_singleton, updateHeights_one hbound] at hleaf
  have hvalue : chunkLeaves keccak256 (stream ++ [chunk]) stream.length = leaf keccak256 chunk := by
    have h := chunkLeaves_append_right keccak256 stream [chunk] 0
    rwa [Nat.add_zero] at h
  simp only [tileRoots, perfectRoot, hvalue] at hleaf
  have hsame : roots = [leaf keccak256 chunk] := by
    rw [hroots] at hleaf
    exact Except.ok.inj hleaf
  rw [hsame] at happly
  refine ⟨next, ?_, hnext⟩
  change mmr.applyUpdate keccak256 [leaf keccak256 chunk] 1 = .ok next at happly
  rw [Mmr.appendLeaf, happly]

/-- `append_leaf` over a chunk list. -/
def Mmr.appendLeaves (mmr : Mmr) (chunks : List Chunk) : Except Fault Mmr :=
  chunks.foldlM (fun state chunk => state.appendLeaf keccak256 chunk) mmr

/-- Consecutive updates, each by the declared roots of its own chunks. -/
def Mmr.applyBatches (mmr : Mmr) (batches : List (List Chunk)) : Except Fault Mmr :=
  batches.foldlM (fun state chunks => do
    let roots ← updateSubtreeRoots keccak256 state.leafCount chunks
    state.applyUpdate keccak256 roots chunks.length) mmr

theorem Mmr.CommitsTo.appendLeaves {mmr : Mmr} {stream : List Chunk}
    (hcommits : mmr.CommitsTo keccak256 stream) (chunks : List Chunk)
    (hbound : stream.length + chunks.length < 2 ^ 64) :
    ∃ next, mmr.appendLeaves keccak256 chunks = .ok next ∧
      next.CommitsTo keccak256 (stream ++ chunks) := by
  induction chunks generalizing mmr stream with
  | nil => exact ⟨mmr, rfl, by simpa using hcommits⟩
  | cons chunk rest ih =>
      rw [List.length_cons] at hbound
      obtain ⟨middle, hstep, hmiddle⟩ := hcommits.appendLeaf keccak256 chunk (by omega)
      obtain ⟨next, hrest, hnext⟩ := ih hmiddle (by
        rw [List.length_append, List.length_singleton]
        omega)
      refine ⟨next, ?_, by simpa using hnext⟩
      simp only [Mmr.appendLeaves, List.foldlM_cons, hstep, bind, Except.bind]
      exact hrest

theorem Mmr.CommitsTo.applyBatches {mmr : Mmr} {stream : List Chunk}
    (hcommits : mmr.CommitsTo keccak256 stream) {batches : List (List Chunk)}
    (hne : ∀ chunks ∈ batches, chunks ≠ [])
    (hbound : stream.length + batches.flatten.length < 2 ^ 64) :
    ∃ next, mmr.applyBatches keccak256 batches = .ok next ∧
      next.CommitsTo keccak256 (stream ++ batches.flatten) := by
  induction batches generalizing mmr stream with
  | nil => exact ⟨mmr, rfl, by simpa using hcommits⟩
  | cons chunks rest ih =>
      rw [List.flatten_cons, List.length_append] at hbound
      obtain ⟨roots, middle, hroots, hstep, hmiddle⟩ :=
        hcommits.applyUpdate keccak256 (hne chunks List.mem_cons_self) (by omega)
      obtain ⟨next, hrest, hnext⟩ := ih hmiddle
        (fun later hmem => hne later (List.mem_cons_of_mem _ hmem)) (by
          rw [List.length_append]
          omega)
      refine ⟨next, ?_, by simpa using hnext⟩
      simp only [Mmr.applyBatches, List.foldlM_cons, hcommits.leafCount_eq, hroots, hstep, bind,
        Except.bind]
      exact hrest

/-- An update by declared roots reaches the state of the single appends, with the
same count and the canonical peaks; and the way a stream is split does not matter. -/
theorem batched_append_eq_leafwise :
    (∀ stream chunks : List Chunk, chunks ≠ [] → stream.length + chunks.length < 2 ^ 64 →
      ∃ mmr roots next, Mmr.new.appendLeaves keccak256 stream = .ok mmr ∧
        updateSubtreeRoots keccak256 stream.length chunks = .ok roots ∧
        mmr.applyUpdate keccak256 roots chunks.length = .ok next ∧
        mmr.appendLeaves keccak256 chunks = .ok next ∧
        next.leafCount = stream.length + chunks.length ∧
        next.peakList = (peakHeights (stream.length + chunks.length)).map (fun h =>
          perfectRoot (node keccak256) (chunkLeaves keccak256 (stream ++ chunks))
            (blockStart (stream.length + chunks.length) (h + 1)) h)) ∧
    (∀ first second : List (List Chunk), (∀ chunks ∈ first, chunks ≠ []) →
      (∀ chunks ∈ second, chunks ≠ []) → first.flatten = second.flatten →
      first.flatten.length < 2 ^ 64 →
      ∃ mmr, Mmr.new.applyBatches keccak256 first = .ok mmr ∧
        Mmr.new.applyBatches keccak256 second = .ok mmr ∧
        mmr.leafCount = first.flatten.length ∧
        mmr.peakList = (peakHeights first.flatten.length).map (fun h =>
          perfectRoot (node keccak256) (chunkLeaves keccak256 first.flatten)
            (blockStart first.flatten.length (h + 1)) h)) := by
  constructor
  · intro stream chunks hne hbound
    obtain ⟨mmr, hmmr, hcommits⟩ :=
      (Mmr.new_commitsTo keccak256).appendLeaves keccak256 stream (by simp; omega)
    rw [List.nil_append] at hcommits
    obtain ⟨roots, next, hroots, happly, hnext⟩ := hcommits.applyUpdate keccak256 hne hbound
    obtain ⟨other, hother, hcommits'⟩ := hcommits.appendLeaves keccak256 chunks hbound
    have hsame := hnext.unique keccak256 hcommits'
    subst hsame
    refine ⟨mmr, roots, next, hmmr, hroots, happly, hother, ?_, ?_⟩
    · rw [hnext.leafCount_eq, List.length_append]
    · rw [hnext.peakList_eq keccak256 (by rw [List.length_append]; exact hbound), streamPeaks,
        leafPeaks, List.length_append, peakHeights_eq]
  · intro first second hfirst hsecond hflat hbound
    obtain ⟨mmr, hmmr, hcommits⟩ :=
      (Mmr.new_commitsTo keccak256).applyBatches keccak256 hfirst (by simpa using hbound)
    obtain ⟨other, hother, hcommits'⟩ :=
      (Mmr.new_commitsTo keccak256).applyBatches keccak256 hsecond
        (by rw [← hflat]; simpa using hbound)
    rw [List.nil_append] at hcommits hcommits'
    rw [← hflat] at hcommits'
    have hsame := hcommits.unique keccak256 hcommits'
    subst hsame
    refine ⟨mmr, hmmr, hother, hcommits.leafCount_eq, ?_⟩
    rw [hcommits.peakList_eq keccak256 hbound, streamPeaks, leafPeaks, peakHeights_eq]

end

/-- Two chunks after one, at once and one by one; and three chunks split two ways. -/
theorem batched_append_eq_leafwise_three :
    (∃ mmr roots next,
      Mmr.new.appendLeaves Keccak.keccak256 [beWord 31 1] = .ok mmr ∧
        updateSubtreeRoots Keccak.keccak256 1 [beWord 31 2, beWord 31 3] = .ok roots ∧
        mmr.applyUpdate Keccak.keccak256 roots 2 = .ok next ∧
        mmr.appendLeaves Keccak.keccak256 [beWord 31 2, beWord 31 3] = .ok next) ∧
      ∃ mmr,
        Mmr.new.applyBatches Keccak.keccak256 [[beWord 31 1], [beWord 31 2, beWord 31 3]] = .ok mmr ∧
        Mmr.new.applyBatches Keccak.keccak256 [[beWord 31 1, beWord 31 2], [beWord 31 3]] =
          .ok mmr := by
  obtain ⟨hbatch, hsplit⟩ := batched_append_eq_leafwise Keccak.keccak256
  obtain ⟨mmr, roots, next, hmmr, hroots, happly, hleaves, -, -⟩ :=
    hbatch [beWord 31 1] [beWord 31 2, beWord 31 3] (by decide) (by decide)
  obtain ⟨whole, hfirst, hsecond, -, -⟩ :=
    hsplit [[beWord 31 1], [beWord 31 2, beWord 31 3]] [[beWord 31 1, beWord 31 2], [beWord 31 3]]
      (by decide) (by decide) (by decide) (by decide)
  exact ⟨⟨mmr, roots, next, hmmr, hroots, happly, hleaves⟩, whole, hfirst, hsecond⟩

end Blobsitter.Reference
