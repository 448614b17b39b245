import Blobsitter.Reference.Verify

/-!
# Building proofs from a source with effects

`PathBuilder` reads its chunks through a closure, which may keep a state of its own: a
position, a parked error.  As long as the closure ends in a sound state, everything it
gave out was honest, and the builder has done what it does on the chunks themselves.
-/

namespace Blobsitter.Reference

open Library

/-- `FnMut(u64) -> Chunk`. -/
abbrev ChunkSource (σ : Type) := Nat → σ → Chunk × σ

/-- The memo, and the state that the source is in. -/
structure PathBuilder (σ : Type) where
  memo : Memo
  source : σ

namespace PathBuilder

variable {σ : Type}

section

variable (keccak256 : ByteString → Hash) (chunkAt : ChunkSource σ)

/-- `PathBuilder::subtree_root`. -/
def subtreeRoot : Nat → Nat → PathBuilder σ → Hash × PathBuilder σ
  | 0, start, self =>
      let read := chunkAt start self.source
      (leaf keccak256 read.1, ⟨self.memo, read.2⟩)
  | h + 1, start, self =>
      let cached := if h + 1 ≥ memoMinHeight then self.memo.lookup (start, h + 1) else none
      match cached with
      | some root => (root, self)
      | none =>
          let left := subtreeRoot h start self
          let right := subtreeRoot h (start + 2 ^ h) left.2
          let out := node keccak256 left.1 right.1
          (out, ⟨if h + 1 ≥ memoMinHeight then ((start, h + 1), out) :: right.2.memo
            else right.2.memo, right.2.source⟩)

/-- The loop of `peaks_at` over the heights that are left. -/
def peaksAtLoop : List Nat → Nat → PathBuilder σ → List Hash × PathBuilder σ
  | [], _, self => ([], self)
  | h :: rest, start, self =>
      let root := subtreeRoot keccak256 chunkAt h start self
      let others := peaksAtLoop rest (start + 2 ^ h) root.2
      (root.1 :: others.1, others.2)

/-- `PathBuilder::peaks_at`. -/
def peaksAt (n : Nat) (self : PathBuilder σ) : List Hash × PathBuilder σ :=
  peaksAtLoop keccak256 chunkAt (peakHeights n) 0 self

/-- The loop of `prove` over the levels still to climb. -/
def proveLoop (start off : Nat) : List Nat → PathBuilder σ → List Hash × PathBuilder σ
  | [], self => ([], self)
  | lvl :: rest, self =>
      let width := 2 ^ lvl
      let sibOff := (off >>> lvl) ^^^ 1
      let sibling := subtreeRoot keccak256 chunkAt lvl (start + sibOff * width) self
      let others := proveLoop start off rest sibling.2
      (sibling.1 :: others.1, others.2)

/-- `PathBuilder::prove`. -/
def prove (i n : Nat) (self : PathBuilder σ) :
    Except Fault ((Nat × List Hash) × PathBuilder σ) := do
  let (k, start, h) ← locate i n
  let path := proveLoop keccak256 chunkAt start (i - start) (List.range h) self
  return ((k, path.1), path.2)

end

/-- Below `n` the source gives out the chunks of the stream, unless it ends in a state
that is not sound, and from such a state it does not recover. -/
structure SoundSource (stream : Nat → Chunk) (n : Nat) (sound : σ → Prop)
    (chunkAt : ChunkSource σ) : Prop where
  back : ∀ i < n, ∀ s, sound (chunkAt i s).2 → sound s
  value : ∀ i < n, ∀ s, sound (chunkAt i s).2 → (chunkAt i s).1 = stream i

/-- What every read below `n` keeps between its state and the next, whole runs keep. -/
structure Carries (n : Nat) (R : σ → σ → Prop) (chunkAt : ChunkSource σ) : Prop where
  refl : ∀ s, R s s
  trans : ∀ {first second third}, R first second → R second third → R first third
  read : ∀ i < n, ∀ s, R s (chunkAt i s).2

theorem SoundSource.carries {stream : Nat → Chunk} {n : Nat} {sound : σ → Prop}
    {chunkAt : ChunkSource σ} (hsource : SoundSource stream n sound chunkAt) :
    Carries n (fun before after => sound after → sound before) chunkAt where
  refl := fun _ hsound => hsound
  trans := fun hfirst hsecond hsound => hfirst (hsecond hsound)
  read := hsource.back

section

variable {keccak256 : ByteString → Hash} {chunkAt : ChunkSource σ}
variable {stream : Nat → Chunk} {n : Nat} {sound : σ → Prop}

theorem subtreeRoot_carries {R : σ → σ → Prop} (hcarries : Carries n R chunkAt) {h start : Nat}
    (hfits : start + 2 ^ h ≤ n) (self : PathBuilder σ) :
    R self.source (subtreeRoot keccak256 chunkAt h start self).2.source := by
  induction h generalizing start self with
  | zero => exact hcarries.read start (by omega) _
  | succ h ih =>
      rw [Nat.pow_succ] at hfits
      rw [subtreeRoot]
      cases hcached : (if h + 1 ≥ memoMinHeight then self.memo.lookup (start, h + 1) else none) with
      | some root => exact hcarries.refl _
      | none =>
          have hleft := @ih start (by omega) self
          exact hcarries.trans hleft (ih (by omega) _)

/-- A builder that ends in a sound state began in one. -/
theorem subtreeRoot_back (hsource : SoundSource stream n sound chunkAt) {h start : Nat}
    (hfits : start + 2 ^ h ≤ n) {self : PathBuilder σ}
    (hend : sound (subtreeRoot keccak256 chunkAt h start self).2.source) : sound self.source :=
  subtreeRoot_carries hsource.carries hfits self hend

/-- A sound run returns the root over the stream, and remembers only such roots. -/
theorem subtreeRoot_sound (hsource : SoundSource stream n sound chunkAt) {h start : Nat}
    (hfits : start + 2 ^ h ≤ n) {self : PathBuilder σ} (hself : self.memo.Honest keccak256 stream)
    (hend : sound (subtreeRoot keccak256 chunkAt h start self).2.source) :
    (subtreeRoot keccak256 chunkAt h start self).1 =
        perfectRoot (node keccak256) (fun i => leaf keccak256 (stream i)) start h ∧
      (subtreeRoot keccak256 chunkAt h start self).2.memo.Honest keccak256 stream := by
  induction h generalizing start self with
  | zero =>
      refine ⟨?_, hself⟩
      change leaf keccak256 (chunkAt start self.source).1 = _
      rw [hsource.value start (by omega) _ hend]
      rfl
  | succ h ih =>
      rw [Nat.pow_succ] at hfits
      rw [subtreeRoot] at hend ⊢
      cases hcached : (if h + 1 ≥ memoMinHeight then self.memo.lookup (start, h + 1) else none) with
      | some root =>
          by_cases htall : h + 1 ≥ memoMinHeight
          · rw [if_pos htall] at hcached
            exact ⟨hself start (h + 1) root hcached, hself⟩
          · rw [if_neg htall] at hcached
            cases hcached
      | none =>
          simp only [hcached] at hend
          have hmiddle := subtreeRoot_back hsource (by omega) hend
          obtain ⟨hleft, hleftMemo⟩ := ih (by omega) hself hmiddle
          obtain ⟨hright, hrightMemo⟩ := ih (by omega) hleftMemo hend
          simp only
          rw [hleft, hright, perfectRoot]
          refine ⟨rfl, ?_⟩
          split
          · exact hrightMemo.remember
          · exact hrightMemo

/-- Roots of subtrees, each given by its height and first leaf. -/
def subtreeRoots (keccak256 : ByteString → Hash) (chunkAt : ChunkSource σ) :
    List (Nat × Nat) → PathBuilder σ → List Hash × PathBuilder σ
  | [], self => ([], self)
  | block :: rest, self =>
      let root := subtreeRoot keccak256 chunkAt block.1 block.2 self
      let others := subtreeRoots keccak256 chunkAt rest root.2
      (root.1 :: others.1, others.2)

/-- The blocks under the peaks, from the leaf `start` on. -/
def peakBlocks : List Nat → Nat → List (Nat × Nat)
  | [], _ => []
  | h :: rest, start => (h, start) :: peakBlocks rest (start + 2 ^ h)

/-- The blocks beside the path of the leaf at `off`. -/
def siblingBlocks (start off : Nat) (lvls : List Nat) : List (Nat × Nat) :=
  lvls.map fun lvl => (lvl, start + ((off >>> lvl) ^^^ 1) * 2 ^ lvl)

theorem peaksAtLoop_eq (heights : List Nat) (start : Nat) (self : PathBuilder σ) :
    peaksAtLoop keccak256 chunkAt heights start self =
      subtreeRoots keccak256 chunkAt (peakBlocks heights start) self := by
  induction heights generalizing start self with
  | nil => rfl
  | cons h rest ih => simp only [peaksAtLoop, peakBlocks, subtreeRoots, ih]

theorem proveLoop_eq (start off : Nat) (lvls : List Nat) (self : PathBuilder σ) :
    proveLoop keccak256 chunkAt start off lvls self =
      subtreeRoots keccak256 chunkAt (siblingBlocks start off lvls) self := by
  induction lvls generalizing self with
  | nil => rfl
  | cons lvl rest ih =>
      rw [siblingBlocks, List.map_cons, ← siblingBlocks]
      simp only [proveLoop, subtreeRoots, ih]

theorem subtreeRoots_carries {R : σ → σ → Prop} (hcarries : Carries n R chunkAt)
    {blocks : List (Nat × Nat)} (hfits : ∀ block ∈ blocks, block.2 + 2 ^ block.1 ≤ n)
    (self : PathBuilder σ) :
    R self.source (subtreeRoots keccak256 chunkAt blocks self).2.source := by
  induction blocks generalizing self with
  | nil => exact hcarries.refl _
  | cons block rest ih =>
      have hfirst := @subtreeRoot_carries _ keccak256 _ _ _ hcarries _ _
        (hfits block List.mem_cons_self) self
      exact hcarries.trans hfirst (ih (fun other hmem => hfits other (List.mem_cons_of_mem _ hmem)) _)

theorem subtreeRoots_sound (hsource : SoundSource stream n sound chunkAt)
    {blocks : List (Nat × Nat)} (hfits : ∀ block ∈ blocks, block.2 + 2 ^ block.1 ≤ n)
    {self : PathBuilder σ} (hself : self.memo.Honest keccak256 stream)
    (hend : sound (subtreeRoots keccak256 chunkAt blocks self).2.source) :
    (subtreeRoots keccak256 chunkAt blocks self).1 = blocks.map (fun block =>
        perfectRoot (node keccak256) (fun i => leaf keccak256 (stream i)) block.2 block.1) ∧
      (subtreeRoots keccak256 chunkAt blocks self).2.memo.Honest keccak256 stream := by
  induction blocks generalizing self with
  | nil => exact ⟨rfl, hself⟩
  | cons block rest ih =>
      have hrest : ∀ other ∈ rest, other.2 + 2 ^ other.1 ≤ n :=
        fun other hmem => hfits other (List.mem_cons_of_mem _ hmem)
      have hmiddle := subtreeRoots_carries hsource.carries hrest _ hend
      obtain ⟨hroot, hmemo⟩ :=
        subtreeRoot_sound hsource (hfits block List.mem_cons_self) hself hmiddle
      obtain ⟨hothers, hlast⟩ := ih hrest hmemo hend
      refine ⟨?_, hlast⟩
      rw [List.map_cons, ← hroot, ← hothers]
      rfl

/-! ## Peaks and paths -/

/-- The peak blocks lie below the leaf count, and their roots are the canonical peaks. -/
theorem peakBlocks_spec (leaves : Nat → Hash) (count width : Nat) :
    (∀ block ∈ peakBlocks (setBits width count).reverse (blockStart count width),
        block.2 + 2 ^ block.1 ≤ count) ∧
      (peakBlocks (setBits width count).reverse (blockStart count width)).map (fun block =>
        perfectRoot (node keccak256) leaves block.2 block.1) =
          leafPeaks (node keccak256) width leaves count := by
  induction width with
  | zero =>
      refine ⟨fun block hmem => ?_, rfl⟩
      cases hmem
  | succ width ih =>
      unfold leafPeaks
      rw [setBits_succ_reverse]
      cases hbit : count.testBit width with
      | false =>
          rw [if_neg Bool.false_ne_true, ← blockStart_of_not_testBit hbit]
          exact ih
      | true =>
          obtain ⟨hfits, hroots⟩ := ih
          rw [if_pos rfl, peakBlocks, ← blockStart_of_testBit hbit, List.map_cons, List.map_cons,
            hroots]
          refine ⟨fun block hmem => ?_, rfl⟩
          rcases List.mem_cons.mp hmem with rfl | hrest
          · exact blockStart_succ_add_le hbit
          · exact hfits block hrest

/-- The sibling blocks lie in the covering block, and their roots are the honest path. -/
theorem siblingBlocks_spec (leaves : Nat → Hash) (start off : Nat) {lvl steps : Nat}
    (hoff : off < 2 ^ (lvl + steps)) :
    (∀ block ∈ siblingBlocks start off (List.range' lvl steps),
        block.2 + 2 ^ block.1 ≤ start + 2 ^ (lvl + steps)) ∧
      (siblingBlocks start off (List.range' lvl steps)).map (fun block =>
        perfectRoot (node keccak256) leaves block.2 block.1) =
          siblingPath (node keccak256) leaves start lvl (off / 2 ^ lvl) steps := by
  induction steps generalizing lvl with
  | zero =>
      refine ⟨fun block hmem => ?_, rfl⟩
      cases hmem
  | succ steps ih =>
      have hsame : lvl + (steps + 1) = lvl + 1 + steps := by omega
      rw [hsame] at hoff ⊢
      obtain ⟨hfits, hroots⟩ := ih hoff
      rw [List.range'_succ, siblingBlocks, List.map_cons, ← siblingBlocks, List.map_cons,
        siblingPath, hroots, div_two_pow_succ, siblingOff_eq_xor, Nat.shiftRight_eq_div_pow]
      refine ⟨fun block hmem => ?_, rfl⟩
      rcases List.mem_cons.mp hmem with rfl | hrest
      · have hhalf : off / 2 ^ lvl < 2 ^ (steps + 1) := by
          rw [Nat.div_lt_iff_lt_mul (Nat.two_pow_pos lvl), ← Nat.pow_add, Nat.add_comm, hsame]
          exact hoff
        have hsibling : siblingOff (off / 2 ^ lvl) < 2 ^ (steps + 1) := by
          rw [← siblingOff_eq_xor]
          exact Nat.xor_lt_two_pow hhalf (Nat.one_lt_two_pow (Nat.succ_ne_zero steps))
        have hend : (siblingOff (off / 2 ^ lvl) + 1) * 2 ^ lvl ≤ 2 ^ (steps + 1) * 2 ^ lvl :=
          Nat.mul_le_mul_right _ hsibling
        rw [← Nat.pow_add, Nat.add_comm (steps + 1), hsame, Nat.succ_mul] at hend
        simp only
        omega
      · exact hfits block hrest

theorem peakHeights_blocks {n : Nat} (hn : n < 2 ^ 64) :
    peakBlocks (peakHeights n) 0 = peakBlocks (setBits 64 n).reverse (blockStart n 64) := by
  rw [peakHeights_eq, blockStart_width hn]

/-- A sound run of `peaks_at` returns the canonical peaks. -/
theorem peaksAt_sound (hsource : SoundSource stream n sound chunkAt) (hn : n < 2 ^ 64)
    {self : PathBuilder σ} (hself : self.memo.Honest keccak256 stream)
    (hend : sound (peaksAt keccak256 chunkAt n self).2.source) :
    sound self.source ∧
      (peaksAt keccak256 chunkAt n self).1 =
        leafPeaks (node keccak256) 64 (fun i => leaf keccak256 (stream i)) n ∧
      (peaksAt keccak256 chunkAt n self).2.memo.Honest keccak256 stream := by
  obtain ⟨hfits, hroots⟩ :=
    @peakBlocks_spec keccak256 (fun i => leaf keccak256 (stream i)) n 64
  rw [peaksAt, peaksAtLoop_eq, peakHeights_blocks hn] at hend ⊢
  obtain ⟨hpeaks, hmemo⟩ := subtreeRoots_sound hsource hfits hself hend
  exact ⟨subtreeRoots_carries hsource.carries hfits _ hend, hpeaks.trans hroots, hmemo⟩

theorem peaksAt_carries {R : σ → σ → Prop} (hcarries : Carries n R chunkAt) (hn : n < 2 ^ 64)
    (self : PathBuilder σ) : R self.source (peaksAt keccak256 chunkAt n self).2.source := by
  obtain ⟨hfits, _⟩ := @peakBlocks_spec keccak256 (fun _ => default) n 64
  rw [peaksAt, peaksAtLoop_eq, peakHeights_blocks hn]
  exact subtreeRoots_carries hcarries hfits self

/-- Below the leaf count `prove` never panics, keeps what every read keeps, and a sound run
returns the honest path. -/
theorem prove_spec {i : Nat} (hi : i < n) (hn : n < 2 ^ 64) (self : PathBuilder σ) :
    ∃ k path next, prove keccak256 chunkAt i n self = .ok ((k, path), next) ∧
      (∀ R, Carries n R chunkAt → R self.source next.source) ∧
      (SoundSource stream n sound chunkAt → self.memo.Honest keccak256 stream →
        sound next.source → next.memo.Honest keccak256 stream ∧
          path = honestPath keccak256 stream i n) := by
  obtain ⟨k, start, h, hlocate, hcovers⟩ := locate_spec hi hn
  have hlower := hcovers.lower
  have hupper := hcovers.upper
  have hblock := hcovers.block_le
  obtain ⟨hfits, hroots⟩ := @siblingBlocks_spec keccak256 (fun i => leaf keccak256 (stream i)) start
    (i - start) 0 h (by rw [Nat.zero_add]; omega)
  rw [Nat.zero_add, ← List.range_eq_range'] at hfits
  rw [← List.range_eq_range', Nat.pow_zero, Nat.div_one] at hroots
  have hbelow : ∀ block ∈ siblingBlocks start (i - start) (List.range h),
      block.2 + 2 ^ block.1 ≤ n := fun block hmem => (hfits block hmem).trans hblock
  have hprove : prove keccak256 chunkAt i n self =
      .ok ((k, (subtreeRoots keccak256 chunkAt (siblingBlocks start (i - start) (List.range h))
        self).1), (subtreeRoots keccak256 chunkAt (siblingBlocks start (i - start) (List.range h))
        self).2) := by
    rw [prove, hlocate, ok_bind]
    simp only [proveLoop_eq]
    rfl
  refine ⟨k, _, _, hprove, ?_, ?_⟩
  · exact fun R hcarries => subtreeRoots_carries hcarries hbelow self
  · intro hsource hself hend
    obtain ⟨hpath, hmemo⟩ := subtreeRoots_sound hsource hbelow hself hend
    refine ⟨hmemo, ?_⟩
    rw [hpath, hroots, honestPath_eq keccak256 stream hlocate]

/-- A builder after calls within the first `n` chunks. -/
inductive Called (keccak256 : ByteString → Hash) (chunkAt : ChunkSource σ) (n : Nat) :
    PathBuilder σ → Prop
  | new (source : σ) : Called keccak256 chunkAt n ⟨[], source⟩
  | subtreeRoot {self : PathBuilder σ} {h start : Nat} (hcalled : Called keccak256 chunkAt n self)
      (hfits : start + 2 ^ h ≤ n) :
      Called keccak256 chunkAt n (subtreeRoot keccak256 chunkAt h start self).2
  | peaksAt {self : PathBuilder σ} {count : Nat} (hcalled : Called keccak256 chunkAt n self)
      (hcount : count ≤ n) : Called keccak256 chunkAt n (peaksAt keccak256 chunkAt count self).2
  | prove {self next : PathBuilder σ} {i count k : Nat} {path : List Hash}
      (hcalled : Called keccak256 chunkAt n self) (hi : i < count) (hcount : count ≤ n)
      (hprove : prove keccak256 chunkAt i count self = .ok ((k, path), next)) :
      Called keccak256 chunkAt n next

theorem SoundSource.mono (hsource : SoundSource stream n sound chunkAt) {count : Nat}
    (hcount : count ≤ n) : SoundSource stream count sound chunkAt :=
  ⟨fun i hi => hsource.back i (hi.trans_le hcount), fun i hi => hsource.value i (hi.trans_le hcount)⟩

/-- A sound builder remembers only roots of the stream, whatever it was called for. -/
theorem Called.memo_honest (hn : n < 2 ^ 64) (hsource : SoundSource stream n sound chunkAt)
    {self : PathBuilder σ} (hcalled : Called keccak256 chunkAt n self)
    (hself : sound self.source) : self.memo.Honest keccak256 stream := by
  induction hcalled with
  | new source => exact Memo.honest_nil keccak256 stream
  | subtreeRoot _ hfits ih =>
      have hbefore := ih (subtreeRoot_back hsource hfits hself)
      exact (subtreeRoot_sound hsource hfits hbefore hself).2
  | @peaksAt before count _ hcount ih =>
      have hcountSource := hsource.mono hcount
      have hwide := hcount.trans_lt hn
      have hback := @peaksAt_carries _ keccak256 _ _ _ hcountSource.carries hwide before hself
      exact (peaksAt_sound hcountSource hwide (ih hback) hself).2.2
  | @prove before next i count k path _ hi hcount hprove ih =>
      have hcountSource := hsource.mono hcount
      obtain ⟨_, _, _, hrun, hcarries, hsound⟩ := @prove_spec _ keccak256 chunkAt stream count sound i
        hi (hcount.trans_lt hn) before
      rw [hprove] at hrun
      cases hrun
      have hback := hcarries _ hcountSource.carries hself
      exact (hsound hcountSource (ih hback) hself).1

/-- The memo never changes a root, whatever calls came before. -/
theorem Called.subtreeRoot_eq (hn : n < 2 ^ 64) (hsource : SoundSource stream n sound chunkAt)
    {self : PathBuilder σ} (hcalled : Called keccak256 chunkAt n self) {h start : Nat}
    (hfits : start + 2 ^ h ≤ n)
    (hend : sound (PathBuilder.subtreeRoot keccak256 chunkAt h start self).2.source) :
    (PathBuilder.subtreeRoot keccak256 chunkAt h start self).1 =
      perfectRoot (node keccak256) (fun i => leaf keccak256 (stream i)) start h := by
  have hself := subtreeRoot_back hsource hfits hend
  exact (subtreeRoot_sound hsource hfits (hcalled.memo_honest hn hsource hself) hend).1

end

end PathBuilder

end Blobsitter.Reference
