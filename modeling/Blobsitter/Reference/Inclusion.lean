import Blobsitter.Library.Keccak
import Blobsitter.Reference.Subtrees
import Blobsitter.Reference.Verify
import Mathlib.Tactic.IntervalCases

/-!
# Exactness of inclusion proofs

Against the peaks of a chunk list a leaf verifies with one chunk and one path only, the
list's own; and a bagged root stands for one leaf count and one list of peaks.
-/

namespace Blobsitter.Reference

open Library

section

variable (keccak256 : ByteString → Hash)

/-- The strings hashed for the leaves and nodes over the first `n` chunks. -/
def streamPreimages (stream : Nat → Chunk) (n : Nat) : Set ByteString :=
  {x | (∃ i < n, x = leafPreimage (stream i)) ∨
    ∃ pos level, pos + 2 ^ (level + 1) ≤ n ∧ x = nodePreimage
      (perfectRoot (node keccak256) (fun i => leaf keccak256 (stream i)) pos level)
      (perfectRoot (node keccak256) (fun i => leaf keccak256 (stream i)) (pos + 2 ^ level) level)}

/-- First leaf of the subtree over a leaf. -/
def coveringStart (i n : Nat) : Nat :=
  match locate i n with
  | .ok (_, start, _) => start
  | .error _ => 0

/-- The strings hashed by `verify`. -/
def verifyPreimages (chunk : Chunk) (i : Nat) (path : List Hash) (n : Nat) : Set ByteString :=
  {x | x = leafPreimage chunk ∨
    ∃ pair ∈ climbPairs (node keccak256) (i - coveringStart i n) (leaf keccak256 chunk) path,
      x = nodePreimage pair.1 pair.2}

section

variable {keccak256} {stream : Nat → Chunk} {chunk : Chunk} {i n : Nat} {path : List Hash}

/-- The peak over a leaf is the perfect root of the leaf's block. -/
theorem leafPeaks_getElem? {leaves : Nat → Hash} {k start h : Nat} (hcovers : Covers n i k start h) :
    (leafPeaks (node keccak256) 64 leaves n)[k]? =
      some (perfectRoot (node keccak256) leaves start h) := by
  have hindex := hcovers.index
  rw [peakHeights_eq] at hindex
  rw [leafPeaks, List.getElem?_map, hindex, hcovers.startEq]
  rfl

/-- What verifies against the peaks of a stream is its own chunk and its own path. -/
theorem verify_sound (hn : n < 2 ^ 64)
    (hverify : verify keccak256 chunk i path n
      (leafPeaks (node keccak256) 64 (fun i => leaf keccak256 (stream i)) n) = .ok true)
    (hfree : NoCollision keccak256 (streamPreimages keccak256 stream n)
      (verifyPreimages keccak256 chunk i path n)) :
    i < n ∧ chunk = stream i ∧ path = honestPath keccak256 stream i n := by
  have hi : i < n := by
    by_contra hge
    rw [verify_of_le keccak256 chunk path _ (Nat.le_of_not_lt hge)] at hverify
    cases hverify
  obtain ⟨k, start, h, hlocate, hcovers, hspec⟩ := verify_spec keccak256 chunk path
    (leafPeaks (node keccak256) 64 (fun i => leaf keccak256 (stream i)) n) hi hn
  rw [hspec] at hverify
  obtain ⟨hlen, _, hpeak⟩ := of_decide_eq_true (Except.ok.inj hverify)
  rw [leafPeaks_getElem? hcovers] at hpeak
  have hlower := hcovers.lower
  have hupper := hcovers.upper
  have hblock := hcovers.block_le
  have hstart : coveringStart i n = start := by rw [coveringStart, hlocate]
  have hclimbs : ClimbsWithoutCollision (node keccak256) (fun i => leaf keccak256 (stream i))
      start (start + 2 ^ (0 + path.length)) (i - start) (leaf keccak256 chunk) path := by
    intro pos level _ hend pair hmem heq
    rw [Nat.zero_add, hlen] at hend
    have hsame := hfree _ (Or.inr ⟨pos, level, by omega, rfl⟩) _
      (Or.inr ⟨pair, by rw [hstart]; exact hmem, rfl⟩) heq
    obtain ⟨hleft, hright⟩ := nodePreimage_inj hsame
    exact Prod.ext hleft hright
  have hroot := Option.some.inj hpeak
  rw [← Nat.zero_add h, ← hlen] at hroot
  obtain ⟨hleaf, hpath⟩ := climb_sound (node keccak256) (by rw [hlen]; omega) hclimbs hroot
  rw [Nat.pow_zero, Nat.mul_one, Nat.add_sub_cancel' hlower] at hleaf
  have hsame := hfree _ (Or.inl ⟨i, hi, rfl⟩) _ (Or.inl rfl) hleaf.symm
  refine ⟨hi, (leafPreimage_inj hsame).symm, ?_⟩
  rw [honestPath_eq keccak256 stream hlocate, ← hlen]
  exact hpath

/-- An honest proof hashes strings of the stream only. -/
theorem verifyPreimages_honest (hi : i < n) (hn : n < 2 ^ 64) :
    verifyPreimages keccak256 (stream i) i (honestPath keccak256 stream i n) n ⊆
      streamPreimages keccak256 stream n := by
  obtain ⟨k, start, h, hlocate, hcovers, _⟩ := verify_spec keccak256 (stream i) [] [] hi hn
  have hlower := hcovers.lower
  have hupper := hcovers.upper
  have hblock := hcovers.block_le
  have hstart : coveringStart i n = start := by rw [coveringStart, hlocate]
  have hleaf : leaf keccak256 (stream i) = perfectRoot (node keccak256)
      (fun i => leaf keccak256 (stream i)) (start + (i - start) * 2 ^ 0) 0 := by
    rw [Nat.pow_zero, Nat.mul_one, Nat.add_sub_cancel' hlower]
    rfl
  rintro x (rfl | ⟨pair, hmem, rfl⟩)
  · exact Or.inl ⟨i, hi, rfl⟩
  · rw [hstart, honestPath_eq keccak256 stream hlocate, hleaf] at hmem
    obtain ⟨pos, height, hend, rfl⟩ := climbPairs_siblingPath _ _ _ (by omega) hmem
    rw [Nat.zero_add] at hend
    exact Or.inr ⟨pos, height, hend.trans hblock, rfl⟩

/-- A new builder produces the honest path of a leaf, and nothing else. -/
theorem prove_iff_honestPath {chunks : List Chunk} (hi : i < chunks.length)
    (hn : chunks.length < 2 ^ 64) :
    (∃ k memo, prove keccak256 (fun i => chunks.getD i default) i chunks.length [] =
        .ok ((k, path), memo)) ↔
      path = honestPath keccak256 (fun i => chunks.getD i default) i chunks.length := by
  obtain ⟨k, start, h, memo, hlocate, _, hprove, _⟩ := prove_spec keccak256
    (fun i => chunks.getD i default) hi hn (Memo.honest_nil keccak256 _)
  rw [hprove, honestPath_eq keccak256 _ hlocate]
  constructor
  · rintro ⟨_, _, heq⟩
    cases heq
    rfl
  · rintro rfl
    exact ⟨k, memo, rfl⟩

end

/-- A verifying proof is the list's own chunk with the path that the builder produces, and
no other state has the root of the list's range. -/
theorem inclusion_proofs_exact {chunks : List Chunk} (hfits : chunks.length < 2 ^ 64) :
    ∃ mmr, Mmr.new.appendLeaves keccak256 chunks = .ok mmr ∧ mmr.leafCount = chunks.length ∧
      (peaksAt keccak256 (fun i => chunks.getD i default) chunks.length []).1 = mmr.peakList ∧
      (∀ chunk i path,
        NoCollision keccak256 (streamPreimages keccak256 (fun i => chunks.getD i default) chunks.length)
          (verifyPreimages keccak256 chunk i path chunks.length) →
        (verify keccak256 chunk i path chunks.length mmr.peakList = .ok true ↔
          i < chunks.length ∧ chunks[i]? = some chunk ∧ ∃ k memo,
            prove keccak256 (fun i => chunks.getD i default) i chunks.length [] =
              .ok ((k, path), memo))) ∧
      ∀ n peaks, n < 2 ^ 64 →
        NoCollision keccak256 {rootPreimage n peaks} {rootPreimage chunks.length mmr.peakList} →
        root keccak256 n peaks = root keccak256 chunks.length mmr.peakList →
        n = chunks.length ∧ peaks = mmr.peakList := by
  obtain ⟨mmr, hmmr, hcommits⟩ := (Mmr.new_commitsTo keccak256).appendLeaves keccak256 chunks
    (by rw [List.length_nil, Nat.zero_add]; exact hfits)
  rw [List.nil_append] at hcommits
  have hpeaks : mmr.peakList = leafPeaks (node keccak256) 64
      (fun i => leaf keccak256 (chunks.getD i default)) chunks.length :=
    hcommits.peakList_eq keccak256 hfits
  refine ⟨mmr, hmmr, hcommits.leafCount_eq keccak256, ?_, ?_, ?_⟩
  · rw [hpeaks, (peaksAt_spec keccak256 _ hfits (Memo.honest_nil keccak256 _)).1]
  · intro chunk i path hfree
    rw [hpeaks]
    constructor
    · intro hverify
      obtain ⟨hi, hchunk, hpath⟩ := @verify_sound _ (fun i => chunks.getD i default) _ _ _ _ hfits
        hverify hfree
      refine ⟨hi, ?_, (prove_iff_honestPath hi hfits).mpr hpath⟩
      rw [hchunk, List.getD_eq_getElem?_getD, List.getElem?_eq_getElem hi, Option.getD_some]
    · rintro ⟨hi, hchunk, hprove⟩
      rw [(prove_iff_honestPath hi hfits).mp hprove]
      have hstream : chunks.getD i default = chunk := by
        rw [List.getD_eq_getElem?_getD, hchunk, Option.getD_some]
      rw [← hstream]
      exact verify_honestPath keccak256 (fun i => chunks.getD i default) hi hfits
  · intro n peaks hn hfree hroot
    exact rootPreimage_inj hn hfits (hfree _ rfl _ rfl hroot)

end

/-- Strings with pairwise different hashes do not collide. -/
theorem noCollision_of_nodup {strings : List ByteString}
    (hnodup : (strings.map keccak256).Nodup) :
    NoCollision keccak256 {x | x ∈ strings} {x | x ∈ strings} :=
  fun _ hx _ hy heq => List.inj_on_of_nodup_map hnodup hx hy heq

/-! ## Three chunks -/

def threeChunks : List Chunk := [Vector.replicate 31 1, Vector.replicate 31 2, Vector.replicate 31 3]

def threeLeaves : List Hash :=
  [beWord 32 0x302bd1d550a41f7d0a66fb7cec78989dafb3d1aa8f165702b43544b2c35577c6,
    beWord 32 0xf8d4c7d7eeae637475ff10ffd11c0aac5de4d00789c650bbd0d0b4c9bf08ec19,
    beWord 32 0xb1b9b7c90c373086a9392fe63f5cba706708b6a2f3d48be46fad1eae66b357c4]

/-- The nodes over two leaves in a row. -/
def threeNodes : List Hash :=
  [beWord 32 0x2430b6e292829b8540a51de4fcb6167eb16cd155ec313be80e3a6d184854473a,
    beWord 32 0x4103ebc3b88cf490ad8778ffa6a3bb4ef08d6de5b2f0a27d5498665731392fc0]

/-- Whatever is hashed over the three chunks is one of five strings. -/
def threeStrings : List ByteString :=
  threeChunks.map leafPreimage ++ List.zipWith nodePreimage threeLeaves threeLeaves.tail

theorem threeStrings_evaluated : List.Forall₂ (fun string hash => Keccak.keccak256 string = hash)
    threeStrings (threeLeaves ++ threeNodes) :=
  .cons (by decide +kernel) (.cons (by decide +kernel) (.cons (by decide +kernel)
    (.cons (by decide +kernel) (.cons (by decide +kernel) .nil))))

theorem threeStrings_hashes : threeStrings.map Keccak.keccak256 = threeLeaves ++ threeNodes :=
  List.forall₂_eq_eq_eq ▸ List.forall₂_map_left_iff.mpr threeStrings_evaluated

theorem threeStrings_nodup : (threeStrings.map Keccak.keccak256).Nodup := by
  rw [threeStrings_hashes]
  decide +kernel

theorem threeChunks_hashes : threeChunks.map (leaf Keccak.keccak256) = threeLeaves ∧
    List.zipWith (node Keccak.keccak256) threeLeaves threeLeaves.tail = threeNodes := by
  have hhashes := threeStrings_hashes
  rw [threeStrings, List.map_append, List.map_map, List.map_zipWith] at hhashes
  exact List.append_inj hhashes (List.length_map _)

theorem threeChunks_leaves : threeChunks.map (leaf Keccak.keccak256) = threeLeaves :=
  threeChunks_hashes.1

theorem threeChunks_nodes :
    List.zipWith (node Keccak.keccak256) threeLeaves threeLeaves.tail = threeNodes :=
  threeChunks_hashes.2

def threeStream (i : Nat) : Chunk := threeChunks.getD i default

theorem threeStream_leaf {i : Nat} (hi : i < 3) :
    leaf Keccak.keccak256 (threeStream i) = threeLeaves.getD i default := by
  rw [← threeChunks_leaves, List.getD_eq_getElem?_getD, List.getElem?_map, threeStream,
    List.getD_eq_getElem?_getD, List.getElem?_eq_getElem (show i < threeChunks.length from hi)]
  rfl

theorem threeStream_strings :
    streamPreimages Keccak.keccak256 threeStream 3 ⊆ {x | x ∈ threeStrings} := by
  have hnode : ∀ pos, pos + 1 < 3 → nodePreimage (leaf Keccak.keccak256 (threeStream pos))
      (leaf Keccak.keccak256 (threeStream (pos + 1))) ∈ threeStrings := by
    intro pos hpos
    rw [threeStream_leaf (Nat.lt_of_succ_lt hpos), threeStream_leaf hpos]
    refine List.mem_append_right _ (List.mem_of_getElem? (i := pos) ?_)
    have hbelow : pos < 2 := Nat.lt_of_succ_lt_succ hpos
    interval_cases pos
    · rfl
    · rfl
  rintro x (⟨i, hi, rfl⟩ | ⟨pos, level, hend, rfl⟩)
  · refine List.mem_append_left _ (List.mem_map_of_mem ?_)
    interval_cases i
    · exact List.mem_cons_self
    · exact List.mem_cons_of_mem _ List.mem_cons_self
    · exact List.mem_cons_of_mem _ (List.mem_cons_of_mem _ List.mem_cons_self)
  · cases level with
    | zero => exact hnode pos hend
    | succ level =>
        have hwide : 2 ^ 2 ≤ 2 ^ (level + 1 + 1) := Nat.pow_le_pow_right Nat.two_pos (by omega)
        omega

/-- The second of three chunks, under its sibling. -/
theorem inclusion_proofs_exact_three :
    ∃ mmr, Mmr.new.appendLeaves Keccak.keccak256 threeChunks = .ok mmr ∧
      mmr.leafCount = 3 ∧ verify Keccak.keccak256 (threeStream 1) 1
        [leaf Keccak.keccak256 (threeStream 0)] 3 mmr.peakList = .ok true := by
  obtain ⟨mmr, hmmr, hcount, _, hverify, _⟩ :=
    @inclusion_proofs_exact Keccak.keccak256 threeChunks (by decide)
  have hpath : honestPath Keccak.keccak256 threeStream 1 3 =
      [leaf Keccak.keccak256 (threeStream 0)] := rfl
  refine ⟨mmr, hmmr, hcount, (hverify (threeStream 1) 1 _ ?_).mpr ⟨?_, rfl, ?_⟩⟩
  · have hhonest := @verifyPreimages_honest Keccak.keccak256 threeStream 1 3 (by decide) (by decide)
    rw [hpath] at hhonest
    exact (noCollision_of_nodup threeStrings_nodup).mono threeStream_strings
      (hhonest.trans threeStream_strings)
  · decide
  · exact (prove_iff_honestPath (show 1 < threeChunks.length by decide) (by decide)).mpr hpath.symm

end Blobsitter.Reference
