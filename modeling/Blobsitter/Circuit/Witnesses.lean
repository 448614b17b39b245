import Blobsitter.Circuit.Custody
import Blobsitter.Library.Keccak
import Blobsitter.Reference.PathBuilder
import Blobsitter.Reference.Subtrees

/-!
# Custody witnesses from a memoized tree

The witness builder of the prover script hashes every node of every peak's tree once and
looks the sibling paths up in the stored levels, where `PathBuilder` hashes a subtree for
each sibling.  Both find the same peaks and the same paths, and the guest accepts the
witness that is built from them.
-/

namespace Blobsitter.Circuit

open Library
open Reference

/-- `testvec::chunk`: byte `b` of chunk `i`, in wrapping 64-bit arithmetic. -/
def patternChunk (i : Nat) : Chunk :=
  Vector.ofFn fun b : Fin 31 => UInt8.ofNat (((31 * i) % 2 ^ 64 + b) % 2 ^ 64 % 256)

/-- The levels of one peak's tree, the leaf hashes first. -/
abbrev Levels := List (List Hash)

/-- `peaks` holds the first leaf and the levels of each peak. -/
structure MemoTree where
  n : Nat
  peaks : List (Nat × Levels)

section

variable (keccak256 : ByteString → Hash)

/-- `chunks_exact(2)`, each pair joined; an odd last node is left out. -/
def joinPairs : List Hash → List Hash
  | left :: right :: rest => node keccak256 left right :: joinPairs rest
  | _ => []

/-- The loop over `0..h` in `MemoTree::build`. -/
def buildLevels (h : Nat) (leaves : List Hash) : Except Fault Levels :=
  (List.range h).foldlM (fun levels lvl => do
    let prev ← elemAt levels lvl
    return levels ++ [joinPairs keccak256 prev]) [leaves]

/-- The loop over the peak heights in `MemoTree::build`. -/
def buildPeaks : List Nat → Nat → Except Fault (List (Nat × Levels))
  | [], _ => .ok []
  | h :: rest, start => do
      let size := 2 ^ h
      let leaves := (List.range' start size).map fun i => leaf keccak256 (patternChunk i)
      let levels ← buildLevels keccak256 h leaves
      let others ← buildPeaks rest (start + size)
      return (start, levels) :: others

namespace MemoTree

def build (n : Nat) : Except Fault MemoTree := do
  let peaks ← buildPeaks keccak256 (peakHeights n) 0
  return ⟨n, peaks⟩

/-- `levels.last().unwrap()[0]`. -/
def top (levels : Levels) : Except Fault Hash :=
  match levels.getLast? with
  | some last => elemAt last 0
  | none => .error (.panic "called `Option::unwrap()` on a `None` value")

/-- `MemoTree::peaks`. -/
def peakList (tree : MemoTree) : Except Fault (List Hash) :=
  tree.peaks.mapM fun peak => top peak.2

def root (tree : MemoTree) : Except Fault Hash := do
  let peaks ← tree.peakList
  return Reference.root keccak256 tree.n peaks

/-- The loop of `path`: the offset is halved at every level. -/
def pathLoop (levels : Levels) : List Nat → Nat → Except Fault (List Hash)
  | [], _ => .ok []
  | lvl :: rest, off => do
      let nodes ← elemAt levels lvl
      let sib ← elemAt nodes (off ^^^ 1)
      let others ← pathLoop levels rest (off >>> 1)
      return sib :: others

def path (tree : MemoTree) (i : Nat) : Except Fault (List Hash) := do
  let (k, start, h) ← locate i tree.n
  let peak ← elemAt tree.peaks k
  pathLoop peak.2 (List.range h) (i - start)

end MemoTree

/-- The samples of `custody_input`, one for each ordinal. -/
def custodySamples (tree : MemoTree) (instanceAddress : Address) (seed : Hash) (n k : Nat) :
    Except Fault (List CustodySample) :=
  (List.range k).mapM fun j => do
    let idx ← custodyIndex keccak256 instanceAddress seed 1 j n
    let path ← tree.path idx
    return ⟨patternChunk idx, path⟩

theorem provider_fits : 1 < 2 ^ 64 := by decide

theorem samples_fit : 16384 < 2 ^ 64 := by decide

/-- A custody witness of provider 1 over the first `n` pattern chunks; `custody_input` and
`fixture_inputs` choose the instance, the seed and the number of samples. -/
def custodyWitness (instanceAddress : Address) (seed : Hash) (n k : Nat) (hn : n < 2 ^ 64)
    (hk : k < 2 ^ 64) : Except Fault CustodyInput := do
  let tree ← MemoTree.build keccak256 n
  let samples ← custodySamples keccak256 tree instanceAddress seed n k
  let root ← tree.root keccak256
  let peaks ← tree.peakList
  return ⟨instanceAddress, 1, seed, root, n, k, peaks, samples, provider_fits, hn, hk⟩

/-- `custody_input`. -/
def custodyInput (n k : Nat) (hn : n < 2 ^ 64) (hk : k < 2 ^ 64) : Except Fault CustodyInput :=
  custodyWitness keccak256 (Vector.replicate 20 0x22) (keccak256 "bench seed".toUTF8.toList) n k
    hn hk

/-- The custody half of `fixture_inputs`, for the instance and leaf count of the fixture. -/
def fixtureCustody (instanceAddress : Address) (n1 : Nat) (hn1 : n1 < 2 ^ 64) :
    Except Fault CustodyInput :=
  custodyWitness keccak256 instanceAddress (keccak256 "fork custody seed".toUTF8.toList) n1 16384
    hn1 samples_fit

end

section

variable (keccak256 : ByteString → Hash)

/-- The leaf hashes of the pattern chunks. -/
def patternLeaves (i : Nat) : Hash := leaf keccak256 (patternChunk i)

/-- The nodes of one level of the tree of height `h` over the leaves from `start`. -/
def levelNodes (start h lvl : Nat) : List Hash :=
  (List.range (2 ^ (h - lvl))).map fun off =>
    perfectRoot (node keccak256) (patternLeaves keccak256) (start + off * 2 ^ lvl) lvl

/-- All levels of the tree of height `h` over the leaves from `start`. -/
def treeLevels (start h : Nat) : Levels :=
  (List.range (h + 1)).map (levelNodes keccak256 start h)

variable {keccak256}

theorem joinPairs_map_range (nodes : Nat → Hash) (count : Nat) :
    joinPairs keccak256 ((List.range (2 * count)).map nodes) =
      (List.range count).map fun off => node keccak256 (nodes (2 * off)) (nodes (2 * off + 1)) := by
  induction count generalizing nodes with
  | zero => rfl
  | succ count ih =>
      have htwo : 2 * (count + 1) = 2 * count + 1 + 1 := by omega
      rw [htwo, List.range_succ_eq_map, List.range_succ_eq_map, List.range_succ_eq_map]
      simp only [List.map_cons, List.map_map, joinPairs]
      refine congrArg (List.cons _) ?_
      exact ih fun off => nodes (off + 1 + 1)

/-- Joining one level gives the next. -/
theorem joinPairs_levelNodes {start h lvl : Nat} (hlvl : lvl < h) :
    joinPairs keccak256 (levelNodes keccak256 start h lvl) =
      levelNodes keccak256 start h (lvl + 1) := by
  have hwidth : 2 ^ (h - lvl) = 2 * 2 ^ (h - (lvl + 1)) := by
    rw [show h - lvl = h - (lvl + 1) + 1 by omega, Nat.pow_succ, Nat.mul_comm]
  rw [levelNodes, hwidth, joinPairs_map_range]
  refine List.map_congr_left fun off _ => ?_
  have hleft : start + 2 * off * 2 ^ lvl = start + off * 2 ^ (lvl + 1) := by ring
  have hright : start + (2 * off + 1) * 2 ^ lvl = start + off * 2 ^ (lvl + 1) + 2 ^ lvl := by ring
  rw [hleft, hright]
  rfl

theorem elemAt_map_range {α : Type} (f : Nat → α) {count i : Nat} (hi : i < count) :
    elemAt ((List.range count).map f) i = .ok (f i) := by
  rw [elemAt, List.getElem?_map, List.getElem?_range hi]
  rfl

theorem buildLevels_steps {start h steps : Nat} (hsteps : steps ≤ h) :
    (List.range steps).foldlM (fun levels lvl => do
        let prev ← elemAt levels lvl
        return levels ++ [joinPairs keccak256 prev]) [levelNodes keccak256 start h 0] =
      (.ok ((List.range (steps + 1)).map (levelNodes keccak256 start h)) : Except Fault Levels) := by
  induction steps with
  | zero => rfl
  | succ steps ih =>
      rw [List.range_succ, List.foldlM_append, ih (by omega), ok_bind]
      simp only [List.foldlM_cons, List.foldlM_nil]
      rw [elemAt_map_range _ (Nat.lt_succ_self steps), ok_bind, joinPairs_levelNodes (by omega),
        List.range_succ (n := steps + 1), List.map_append]
      rfl

/-- The stored levels are those of the tree over the peak's leaves. -/
theorem buildLevels_eq (start h : Nat) :
    buildLevels keccak256 h
        ((List.range' start (2 ^ h)).map fun i => leaf keccak256 (patternChunk i)) =
      .ok (treeLevels keccak256 start h) := by
  have hleaves : (List.range' start (2 ^ h)).map (fun i => leaf keccak256 (patternChunk i)) =
      levelNodes keccak256 start h 0 := by
    rw [List.range'_eq_map_range, List.map_map, levelNodes, Nat.sub_zero]
    refine List.map_congr_left fun off _ => ?_
    rw [Nat.pow_zero, Nat.mul_one]
    rfl
  rw [hleaves]
  exact buildLevels_steps (Nat.le_refl h)

/-- The top level holds the root alone. -/
theorem top_treeLevels (start h : Nat) :
    MemoTree.top (treeLevels keccak256 start h) =
      .ok (perfectRoot (node keccak256) (patternLeaves keccak256) start h) := by
  have hlast : (treeLevels keccak256 start h).getLast? = some (levelNodes keccak256 start h h) := by
    rw [treeLevels, List.range_succ, List.map_append]
    exact List.getLast?_concat
  rw [MemoTree.top, hlast]
  simp only
  rw [levelNodes, Nat.sub_self, Nat.pow_zero, elemAt_map_range _ Nat.one_pos, Nat.zero_mul, Nat.add_zero]

/-- Reading the siblings from the levels gives the honest path. -/
theorem pathLoop_eq {start h lvl steps off : Nat} (hheight : lvl + steps = h)
    (hoff : off < 2 ^ steps) :
    MemoTree.pathLoop (treeLevels keccak256 start h) (List.range' lvl steps) off =
      .ok (siblingPath (node keccak256) (patternLeaves keccak256) start lvl off steps) := by
  induction steps generalizing lvl off with
  | zero => rfl
  | succ steps ih =>
      have hhalf : off / 2 < 2 ^ steps := by
        rw [Nat.pow_succ] at hoff
        omega
      have hsibling : off ^^^ 1 < 2 ^ (h - lvl) := by
        rw [show h - lvl = steps + 1 by omega]
        exact Nat.xor_lt_two_pow hoff (Nat.one_lt_two_pow (Nat.succ_ne_zero steps))
      rw [List.range'_succ, MemoTree.pathLoop, treeLevels, elemAt_map_range _ (by omega), ok_bind,
        levelNodes, elemAt_map_range _ hsibling, ok_bind, ← treeLevels, Nat.shiftRight_one,
        ih (by omega) hhalf, ok_bind, siblingPath, siblingOff_eq_xor]
      rfl

/-! ## The whole tree -/

/-- The blocks under the peaks, each by the height of its set bit. -/
theorem peakBlocks_eq_map (count width : Nat) :
    PathBuilder.peakBlocks (setBits width count).reverse (blockStart count width) =
      (setBits width count).reverse.map fun h => (h, blockStart count (h + 1)) := by
  induction width with
  | zero => rfl
  | succ width ih =>
      rw [setBits_succ_reverse]
      cases hbit : count.testBit width with
      | false =>
          rw [if_neg Bool.false_ne_true, ← blockStart_of_not_testBit hbit]
          exact ih
      | true =>
          rw [if_pos rfl, PathBuilder.peakBlocks, ← blockStart_of_testBit hbit, ih]
          rfl

theorem buildPeaks_eq (heights : List Nat) (start : Nat) :
    buildPeaks keccak256 heights start =
      .ok ((PathBuilder.peakBlocks heights start).map fun block =>
        (block.2, treeLevels keccak256 block.2 block.1)) := by
  induction heights generalizing start with
  | nil => rfl
  | cons h rest ih =>
      rw [buildPeaks, buildLevels_eq, ok_bind, ih, ok_bind]
      rfl

variable (keccak256) in
/-- The tree that `MemoTree::build` returns. -/
def builtTree (n : Nat) : MemoTree :=
  ⟨n, (peakHeights n).map fun h =>
    (blockStart n (h + 1), treeLevels keccak256 (blockStart n (h + 1)) h)⟩

theorem MemoTree.build_eq {n : Nat} (hn : n < 2 ^ 64) :
    MemoTree.build keccak256 n = .ok (builtTree keccak256 n) := by
  rw [MemoTree.build, buildPeaks_eq, ok_bind, PathBuilder.peakHeights_blocks hn, peakBlocks_eq_map,
    ← peakHeights_eq, List.map_map]
  rfl

theorem builtTree_peakList (n : Nat) :
    (builtTree keccak256 n).peakList =
      .ok (leafPeaks (node keccak256) 64 (patternLeaves keccak256) n) := by
  rw [MemoTree.peakList, builtTree, leafPeaks, ← peakHeights_eq]
  rw [mapM_eq_ok_map (g := fun peak => perfectRoot (node keccak256) (patternLeaves keccak256) peak.1
    (peak.2.length - 1)), List.map_map]
  · refine congrArg Except.ok (List.map_congr_left fun h _ => ?_)
    simp [treeLevels]
  · intro peak hmem
    obtain ⟨h, _, rfl⟩ := List.mem_map.mp hmem
    simp only
    rw [top_treeLevels]
    simp [treeLevels]

theorem builtTree_path {i n : Nat} (hi : i < n) (hn : n < 2 ^ 64) :
    (builtTree keccak256 n).path i = .ok (honestPath keccak256 patternChunk i n) := by
  obtain ⟨k, start, h, hlocate, hcovers⟩ := locate_spec hi hn
  have hlower := hcovers.lower
  have hupper := hcovers.upper
  have hpeak : elemAt (builtTree keccak256 n).peaks k =
      .ok (start, treeLevels keccak256 start h) := by
    rw [elemAt, builtTree, List.getElem?_map, hcovers.index, hcovers.startEq]
    rfl
  have hloop := @pathLoop_eq keccak256 start h 0 h (i - start) (Nat.zero_add h) (by omega)
  rw [← List.range_eq_range'] at hloop
  rw [MemoTree.path, show (builtTree keccak256 n).n = n from rfl, hlocate, ok_bind]
  simp only
  rw [hpeak, ok_bind, hloop, honestPath_eq keccak256 patternChunk hlocate]
  rfl

theorem builtTree_path_of_le {i n : Nat} (hi : n ≤ i) :
    (builtTree keccak256 n).path i = .error (.panic "leaf index out of range") := by
  rw [MemoTree.path, show (builtTree keccak256 n).n = n from rfl, locate,
    if_neg (Nat.not_lt.mpr hi)]
  rfl

variable (keccak256) in
/-- The sample of ordinal `j` over the first `n` pattern chunks. -/
def patternSample (instanceAddress : Address) (seed : Hash) (n j : Nat) : CustodySample :=
  let idx := wordNat (keccak256 (custodyPreimage instanceAddress seed 1 j)) % n
  ⟨patternChunk idx, honestPath keccak256 patternChunk idx n⟩

theorem custodySamples_eq {n : Nat} (instanceAddress : Address) (seed : Hash) (k : Nat)
    (hpos : 0 < n) (hn : n < 2 ^ 64) :
    custodySamples keccak256 (builtTree keccak256 n) instanceAddress seed n k =
      .ok ((List.range k).map (patternSample keccak256 instanceAddress seed n)) := by
  refine mapM_eq_ok_map fun j _ => ?_
  have hidx := Nat.mod_lt (wordNat (keccak256 (custodyPreimage instanceAddress seed 1 j))) hpos
  rw [custodyIndex_eq keccak256 instanceAddress seed 1 j hpos hn, ok_bind, builtTree_path hidx hn]
  rfl

/-- The state that `testvec::build` reaches chunk by chunk has the canonical peaks. -/
theorem appendPattern {n : Nat} (hn : n < 2 ^ 64) :
    ∃ mmr, Mmr.new.appendLeaves keccak256 ((List.range n).map patternChunk) = .ok mmr ∧
      mmr.leafCount = n ∧
      mmr.peakList = leafPeaks (node keccak256) 64 (patternLeaves keccak256) n := by
  have hlen : ((List.range n).map patternChunk).length = n := by
    rw [List.length_map, List.length_range]
  obtain ⟨mmr, hmmr, hcommits⟩ := (Mmr.new_commitsTo keccak256).appendLeaves keccak256
    ((List.range n).map patternChunk) (by rw [List.length_nil, Nat.zero_add, hlen]; exact hn)
  rw [List.nil_append] at hcommits
  refine ⟨mmr, hmmr, (hcommits.leafCount_eq keccak256).trans hlen, ?_⟩
  rw [hcommits.peakList_eq keccak256 (by rw [hlen]; exact hn), streamPeaks, hlen]
  refine leafPeaks_congr (node keccak256) 64 fun i hi => ?_
  rw [chunkLeaves, List.getD_eq_getElem?_getD, List.getElem?_map, List.getElem?_range hi]
  rfl

end

/-- The memoized tree has the peaks of the state built chunk by chunk and, at every leaf, the
path that `PathBuilder` finds; and the guest accepts every custody witness taken from it. -/
theorem memoized_witness_proves (keccak256 : ByteString → Hash) {n : Nat} (hn : n < 2 ^ 64) :
    ∃ tree mmr, MemoTree.build keccak256 n = .ok tree ∧
      Mmr.new.appendLeaves keccak256 ((List.range n).map patternChunk) = .ok mmr ∧
      tree.peakList = .ok mmr.peakList ∧ tree.root keccak256 = .ok (mmr.root keccak256) ∧
      (∀ i, i < n → ∃ k path memo, prove keccak256 patternChunk i n [] = .ok ((k, path), memo) ∧
        tree.path i = .ok path) ∧
      (∀ i, n ≤ i → tree.path i = .error (.panic "leaf index out of range")) ∧
      (0 < n → ∀ (instanceAddress : Address) (seed : Hash) (k : Nat) (hk : k < 2 ^ 64),
        ∃ input, custodyWitness keccak256 instanceAddress seed n k hn hk = .ok input ∧
          custody keccak256 input = .ok (custodyPublicValues instanceAddress 1 seed
            (mmr.root keccak256) n k)) := by
  obtain ⟨mmr, hmmr, hcount, hpeaks⟩ := @appendPattern keccak256 n hn
  have htreePeaks : (builtTree keccak256 n).peakList = .ok mmr.peakList := by
    rw [builtTree_peakList, hpeaks]
  have hroot : (builtTree keccak256 n).root keccak256 = .ok (mmr.root keccak256) := by
    rw [MemoTree.root, htreePeaks, ok_bind, Mmr.root, hcount]
    rfl
  refine ⟨builtTree keccak256 n, mmr, MemoTree.build_eq hn, hmmr, htreePeaks, hroot, ?_, ?_, ?_⟩
  · intro i hi
    obtain ⟨k, start, h, memo, hlocate, _, hprove, _⟩ :=
      prove_spec keccak256 patternChunk hi hn (Memo.honest_nil keccak256 _)
    refine ⟨k, _, memo, hprove, ?_⟩
    rw [builtTree_path hi hn, honestPath_eq keccak256 patternChunk hlocate]
  · intro i hi
    exact builtTree_path_of_le hi
  · intro hpos instanceAddress seed k hk
    let samples := (List.range k).map (patternSample keccak256 instanceAddress seed n)
    refine ⟨⟨instanceAddress, 1, seed, mmr.root keccak256, n, k, mmr.peakList, samples,
      provider_fits, hn, hk⟩, ?_, custody_eq_ok.mpr ⟨hpos, ?_, ?_, ?_, rfl⟩⟩
    · rw [custodyWitness, MemoTree.build_eq hn, ok_bind, custodySamples_eq instanceAddress seed k
        hpos hn, ok_bind, hroot, ok_bind, htreePeaks, ok_bind]
      rfl
    · rw [Mmr.root, hcount]
    · rw [List.length_map, List.length_range]
    · intro j sample hsample
      rw [List.getElem?_map, Option.map_eq_some_iff] at hsample
      obtain ⟨ordinal, hordinal, rfl⟩ := hsample
      obtain ⟨_, rfl⟩ := List.getElem?_eq_some_iff.mp hordinal
      rw [List.getElem_range]
      have hidx := Nat.mod_lt
        (wordNat (keccak256 (custodyPreimage instanceAddress seed 1 j))) hpos
      refine ⟨_, custodyIndex_eq keccak256 instanceAddress seed 1 j hpos hn, ?_⟩
      simp only [hpeaks]
      exact verify_honestPath keccak256 patternChunk hidx hn

/-- Eleven chunks, five samples. -/
theorem memoized_witness_proves_eleven : ∃ tree mmr,
    MemoTree.build Keccak.keccak256 11 = .ok tree ∧
      Mmr.new.appendLeaves Keccak.keccak256 ((List.range 11).map patternChunk) = .ok mmr ∧
      ∃ path input, tree.path 9 = .ok path ∧
        custodyWitness Keccak.keccak256 (Vector.replicate 20 0x22) (Vector.replicate 32 7) 11 5
          (by decide) (by decide) = .ok input ∧
        custody Keccak.keccak256 input = .ok (custodyPublicValues (Vector.replicate 20 0x22) 1
          (Vector.replicate 32 7) (mmr.root Keccak.keccak256) 11 5) := by
  obtain ⟨tree, mmr, htree, hmmr, _, _, hpaths, _, hguest⟩ :=
    @memoized_witness_proves Keccak.keccak256 11 (by decide)
  obtain ⟨_, path, _, _, hpath⟩ := hpaths 9 (by decide)
  obtain ⟨input, hinput, hproved⟩ := hguest (by decide) (Vector.replicate 20 0x22)
    (Vector.replicate 32 7) 5 (by decide)
  exact ⟨tree, mmr, htree, hmmr, path, input, hpath, hinput, hproved⟩

end Blobsitter.Circuit
