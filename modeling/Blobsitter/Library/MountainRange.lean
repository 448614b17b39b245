import Blobsitter.Library.BitPositions

/-!
# Mountain ranges over a binary counter

A mountain range keeps one perfect tree for every set bit of its leaf count.
Pushing an aligned perfect tree is binary addition: the pushed root is joined to
the peak of its own height while there is one, and the join is carried upward.
The node operation and the leaves are arbitrary.
-/

namespace Blobsitter.Library

universe u

variable {α : Type u} (node : α → α → α)

/-- Root of the perfect tree of height `h` over the leaves from `start`. -/
def perfectRoot (leaves : Nat → α) : Nat → Nat → α
  | start, 0 => leaves start
  | start, h + 1 => node (perfectRoot leaves start h) (perfectRoot leaves (start + 2 ^ h) h)

/-- A perfect root reads only the leaves of its own block. -/
theorem perfectRoot_congr {first second : Nat → α} {start h : Nat}
    (hsame : ∀ i, start ≤ i → i < start + 2 ^ h → first i = second i) :
    perfectRoot node first start h = perfectRoot node second start h := by
  induction h generalizing start with
  | zero => exact hsame start (Nat.le_refl _) (by simp)
  | succ h ih =>
      have hpow : 2 ^ (h + 1) = 2 ^ h + 2 ^ h := by ring
      have hleft := @ih start fun i hlo hhi => hsame i hlo (by omega)
      have hright := @ih (start + 2 ^ h) fun i hlo hhi => hsame i (by omega) (by omega)
      simp only [perfectRoot, hleft, hright]

/-- A perfect root over shifted leaves is the perfect root at the shifted start. -/
theorem perfectRoot_shift (leaves : Nat → α) (shift start h : Nat) :
    perfectRoot node (fun i => leaves (shift + i)) start h =
      perfectRoot node leaves (shift + start) h := by
  induction h generalizing start with
  | zero => rfl
  | succ h ih => simp only [perfectRoot, ih, Nat.add_assoc]

/-- No join inside the block of one tree equals the other tree's join at the same place without
having the same operands. -/
def JoinsApart (first second : Nat → α) (start stop : Nat) : Prop :=
  ∀ pos level, start ≤ pos → pos + 2 ^ (level + 1) ≤ stop →
    node (perfectRoot node first pos level) (perfectRoot node first (pos + 2 ^ level) level) =
      node (perfectRoot node second pos level) (perfectRoot node second (pos + 2 ^ level) level) →
    perfectRoot node first pos level = perfectRoot node second pos level ∧
      perfectRoot node first (pos + 2 ^ level) level = perfectRoot node second (pos + 2 ^ level) level

/-- Without such a join, a perfect root determines every leaf of its block. -/
theorem perfectRoot_inj {first second : Nat → α} {start h : Nat}
    (hapart : JoinsApart node first second start (start + 2 ^ h))
    (hroot : perfectRoot node first start h = perfectRoot node second start h) :
    ∀ i, start ≤ i → i < start + 2 ^ h → first i = second i := by
  induction h generalizing start with
  | zero =>
      intro i hlo hhi
      obtain rfl : i = start := by
        rw [Nat.pow_zero] at hhi
        omega
      exact hroot
  | succ h ih =>
      have hpow : 2 ^ (h + 1) = 2 ^ h + 2 ^ h := by ring
      have hpositive := Nat.two_pow_pos h
      obtain ⟨hleft, hright⟩ := hapart start h (Nat.le_refl _) (Nat.le_refl _) hroot
      have hapartLeft : JoinsApart node first second start (start + 2 ^ h) :=
        fun pos level hlo hhi => hapart pos level hlo (by omega)
      have hapartRight : JoinsApart node first second (start + 2 ^ h) (start + 2 ^ h + 2 ^ h) :=
        fun pos level hlo hhi => hapart pos level (by omega) (by omega)
      intro i hlo hhi
      by_cases hside : i < start + 2 ^ h
      · exact ih hapartLeft hleft i hlo hside
      · exact ih hapartRight hright i (Nat.le_of_not_lt hside) (by omega)

/-- A leaf count with a root for each height; the root at `h` means something
exactly when bit `h` of the count is set. -/
structure Range (α : Type u) where
  count : Nat
  peak : Nat → α

/-- Joins an incoming root with the peaks met while the counter bits are set. -/
def carry (count : Nat) (peak : Nat → α) (h : Nat) (root : α) : Nat × α :=
  if hbit : count.testBit h then carry count peak (h + 1) (node (peak h) root) else (h, root)
termination_by count / 2 ^ h
decreasing_by exact div_succ_lt_of_testBit hbit

/-- Adds one perfect tree of the given height at the right end of the range. -/
def Range.push (range : Range α) (height : Nat) (root : α) : Range α :=
  let top := carry node range.count range.peak height root
  ⟨range.count + 2 ^ height, Function.update range.peak top.1 top.2⟩

def Range.pushAll (range : Range α) (trees : List (Nat × α)) : Range α :=
  trees.foldl (fun current tree => current.push node tree.1 tree.2) range

@[simp]
theorem Range.pushAll_nil (range : Range α) : range.pushAll node [] = range := rfl

@[simp]
theorem Range.pushAll_cons (range : Range α) (tree : Nat × α) (rest : List (Nat × α)) :
    range.pushAll node (tree :: rest) = (range.push node tree.1 tree.2).pushAll node rest := rfl

@[simp]
theorem Range.push_count (range : Range α) (height : Nat) (root : α) :
    (range.push node height root).count = range.count + 2 ^ height := rfl

/-- A carry stops at the first clear bit; the count it stands for is unchanged. -/
theorem carry_stops (count : Nat) (peak : Nat → α) (h total : Nat) (root : α)
    (htotal : total = (count / 2 ^ h + 1) * 2 ^ h) :
    count.testBit (carry node count peak h root).1 = false ∧
      h ≤ (carry node count peak h root).1 ∧
      total = (count / 2 ^ (carry node count peak h root).1 + 1) *
        2 ^ (carry node count peak h root).1 := by
  induction h, root using carry.induct node count peak with
  | case1 h root hbit ih =>
      have hodd := (testBit_iff_div count h).mp hbit
      have hhalf : count / 2 ^ h + 1 = (count / 2 ^ (h + 1) + 1) * 2 := by
        rw [div_two_pow_succ]
        omega
      have hnext : total = (count / 2 ^ (h + 1) + 1) * 2 ^ (h + 1) := by
        rw [htotal, hhalf]
        ring
      obtain ⟨hclear, hle, heq⟩ := ih hnext
      rw [carry, dif_pos hbit]
      exact ⟨hclear, by omega, heq⟩
  | case2 h root hbit =>
      rw [carry, dif_neg hbit]
      exact ⟨by simpa using hbit, Nat.le_refl _, htotal⟩

theorem add_aligned {count height : Nat} (hdvd : 2 ^ height ∣ count) :
    count + 2 ^ height = (count / 2 ^ height + 1) * 2 ^ height := by
  rw [Nat.add_mul, Nat.div_mul_cancel hdvd, Nat.one_mul]

/-- The height at which a pushed tree comes to rest. -/
def Range.restHeight (range : Range α) (height : Nat) (root : α) : Nat :=
  (carry node range.count range.peak height root).1

theorem Range.restHeight_clear (range : Range α) {height : Nat} (root : α)
    (hdvd : 2 ^ height ∣ range.count) :
    range.count.testBit (range.restHeight node height root) = false :=
  (carry_stops node range.count range.peak height _ root (add_aligned hdvd)).1

/-- Bits of the count after an aligned push. -/
theorem Range.push_testBit (range : Range α) {height : Nat} (root : α)
    (hdvd : 2 ^ height ∣ range.count) (k : Nat) :
    (range.push node height root).count.testBit k =
      if k < range.restHeight node height root then false
      else if k = range.restHeight node height root then true
      else range.count.testBit k := by
  obtain ⟨hclear, _, htotal⟩ :=
    carry_stops node range.count range.peak height _ root (add_aligned hdvd)
  exact testBit_of_carried hclear htotal k

/-- The peaks still standing after an aligned push are the rest point and the old
peaks above it. -/
theorem Range.push_peak_of_testBit (range : Range α) {height : Nat} (root : α)
    (hdvd : 2 ^ height ∣ range.count) {k : Nat}
    (hbit : (range.push node height root).count.testBit k = true) :
    (k = range.restHeight node height root ∧
        (range.push node height root).peak k =
          (carry node range.count range.peak height root).2) ∨
      (range.restHeight node height root < k ∧ range.count.testBit k = true ∧
        (range.push node height root).peak k = range.peak k) := by
  rw [range.push_testBit node root hdvd] at hbit
  by_cases hlt : k < range.restHeight node height root
  · rw [if_pos hlt] at hbit
    cases hbit
  · rw [if_neg hlt] at hbit
    by_cases heq : k = range.restHeight node height root
    · refine Or.inl ⟨heq, ?_⟩
      rw [heq]
      exact Function.update_self ..
    · rw [if_neg heq] at hbit
      exact Or.inr ⟨by omega, hbit, Function.update_of_ne heq ..⟩

/-! ## Ranges that commit to a leaf sequence -/

/-- Every standing peak is the perfect root over its own block of leaves. -/
def Range.Commits (range : Range α) (leaves : Nat → α) : Prop :=
  ∀ h, range.count.testBit h = true →
    range.peak h = perfectRoot node leaves (blockStart range.count (h + 1)) h

/-- The root a carry brings to rest is the perfect root over the joined block. -/
theorem carry_commits {leaves : Nat → α} (range : Range α)
    (hcommits : range.Commits node leaves) (h : Nat) (root : α)
    (hroot : root = perfectRoot node leaves (blockStart range.count h) h) :
    (carry node range.count range.peak h root).2 =
      perfectRoot node leaves
        (blockStart range.count (carry node range.count range.peak h root).1)
        (carry node range.count range.peak h root).1 := by
  induction h, root using carry.induct node range.count range.peak with
  | case1 h root hbit ih =>
      rw [carry, dif_pos hbit]
      apply ih
      rw [perfectRoot, hcommits h hbit, hroot, blockStart_of_testBit hbit]
  | case2 h root hbit =>
      rw [carry, dif_neg hbit]
      exact hroot

/-- Pushing the honest root of the next aligned block keeps the commitment. -/
theorem Range.push_commits {leaves : Nat → α} (range : Range α)
    (hcommits : range.Commits node leaves) {height : Nat} (hdvd : 2 ^ height ∣ range.count) :
    (range.push node height (perfectRoot node leaves range.count height)).Commits node leaves := by
  intro k hbit
  have hroot : perfectRoot node leaves range.count height =
      perfectRoot node leaves (blockStart range.count height) height := by
    rw [blockStart_of_dvd hdvd]
  have hrest := carry_commits node range hcommits height _ hroot
  obtain ⟨hclear, _, htotal⟩ := carry_stops node range.count range.peak height _
    (perfectRoot node leaves range.count height) (add_aligned hdvd)
  have hdiv : ∀ j, range.restHeight node height (perfectRoot node leaves range.count height) ≤ j →
      blockStart (range.count + 2 ^ height) (j + 1) = blockStart range.count (j + 1) := by
    intro j hle
    have hbits : (range.count + 2 ^ height) / 2 ^ (j + 1) = range.count / 2 ^ (j + 1) := by
      apply Nat.eq_of_testBit_eq
      intro i
      rw [Nat.testBit_div_two_pow, Nat.testBit_div_two_pow,
        testBit_of_carried hclear htotal, if_neg, if_neg]
      · unfold Range.restHeight at hle
        omega
      · unfold Range.restHeight at hle
        omega
    unfold blockStart
    rw [hbits]
  rcases range.push_peak_of_testBit node _ hdvd hbit with ⟨rfl, hpeak⟩ | ⟨hlt, hold, hpeak⟩
  · rw [hpeak, hrest, Range.push_count, hdiv _ (Nat.le_refl _)]
    exact congrArg (perfectRoot node leaves · _) (blockStart_of_not_testBit hclear)
  · rw [hpeak, hcommits k hold, Range.push_count, hdiv k (Nat.le_of_lt hlt)]

/-- Heights of perfect trees that sit, one after another, on aligned positions. -/
def Tiles : Nat → List Nat → Prop
  | _, [] => True
  | pos, h :: rest => 2 ^ h ∣ pos ∧ Tiles (pos + 2 ^ h) rest

/-- Number of leaves that the trees of the given heights cover. -/
def tileWidth (heights : List Nat) : Nat := (heights.map (2 ^ ·)).sum

@[simp]
theorem tileWidth_nil : tileWidth [] = 0 := rfl

@[simp]
theorem tileWidth_cons (h : Nat) (rest : List Nat) :
    tileWidth (h :: rest) = 2 ^ h + tileWidth rest := by
  simp [tileWidth]

/-- The honest roots of consecutive tiles. -/
def tileRoots (leaves : Nat → α) : Nat → List Nat → List α
  | _, [] => []
  | pos, h :: rest => perfectRoot node leaves pos h :: tileRoots leaves (pos + 2 ^ h) rest

@[simp]
theorem tileRoots_length (leaves : Nat → α) (pos : Nat) (heights : List Nat) :
    (tileRoots node leaves pos heights).length = heights.length := by
  induction heights generalizing pos with
  | nil => rfl
  | cons h rest ih => simp only [tileRoots, List.length_cons, ih]

theorem Range.pushAll_count (range : Range α) (heights : List Nat) (roots : List α)
    (hlen : roots.length = heights.length) :
    (range.pushAll node (heights.zip roots)).count = range.count + tileWidth heights := by
  induction heights generalizing range roots with
  | nil => simp
  | cons h rest ih =>
      cases roots with
      | nil => simp at hlen
      | cons root roots =>
          rw [List.zip_cons_cons, pushAll_cons, ih _ roots (by simpa using hlen), push_count,
            tileWidth_cons, Nat.add_assoc]

/-- Pushing the honest tile roots keeps the commitment. -/
theorem Range.pushAll_commits {leaves : Nat → α} (range : Range α)
    (hcommits : range.Commits node leaves) {heights : List Nat}
    (htiles : Tiles range.count heights) :
    (range.pushAll node
      (heights.zip (tileRoots node leaves range.count heights))).Commits node leaves := by
  induction heights generalizing range with
  | nil => exact hcommits
  | cons h rest ih =>
      obtain ⟨hdvd, hrest⟩ := htiles
      have hstep := range.push_commits node hcommits hdvd
      exact ih _ hstep hrest

/-- Peaks from the tallest to the shortest, one for each set bit. -/
def Range.peaks (width : Nat) (range : Range α) : List α :=
  (setBits width range.count).reverse.map range.peak

/-- A list of the right length is the peak list of some range. -/
theorem exists_peak [Inhabited α] {heights : List Nat} (hnodup : heights.Nodup) {peaks : List α}
    (hlen : peaks.length = heights.length) : ∃ peak : Nat → α, peaks = heights.map peak := by
  induction heights generalizing peaks with
  | nil => exact ⟨fun _ => default, List.eq_nil_of_length_eq_zero hlen⟩
  | cons h heights ih =>
      cases peaks with
      | nil => cases hlen
      | cons p peaks =>
          obtain ⟨hnew, hrest⟩ := List.nodup_cons.mp hnodup
          obtain ⟨peak, hpeaks⟩ := ih hrest (Nat.succ.inj hlen)
          refine ⟨Function.update peak h p, ?_⟩
          rw [List.map_cons, Function.update_self, hpeaks]
          congr 1
          apply List.map_congr_left
          intro k hmem
          rw [Function.update_of_ne]
          rintro rfl
          exact hnew hmem

/-- The peak list that the first `n` leaves determine. -/
def leafPeaks (width : Nat) (leaves : Nat → α) (n : Nat) : List α :=
  (setBits width n).reverse.map fun h => perfectRoot node leaves (blockStart n (h + 1)) h

@[simp]
theorem leafPeaks_length (width : Nat) (leaves : Nat → α) (n : Nat) :
    (leafPeaks node width leaves n).length = (setBits width n).length := by
  simp [leafPeaks]

theorem Range.peaks_of_commits {leaves : Nat → α} (width : Nat) (range : Range α)
    (hcommits : range.Commits node leaves) :
    range.peaks width = leafPeaks node width leaves range.count := by
  unfold Range.peaks leafPeaks
  apply List.map_congr_left
  intro h hmem
  exact hcommits h (mem_setBits.mp (List.mem_reverse.mp hmem)).2

/-- The peak list at `n` reads only the first `n` leaves. -/
theorem leafPeaks_congr (width : Nat) {first second : Nat → α} {n : Nat}
    (hsame : ∀ i, i < n → first i = second i) :
    leafPeaks node width first n = leafPeaks node width second n := by
  unfold leafPeaks
  apply List.map_congr_left
  intro h hmem
  have hbit := (mem_setBits.mp (List.mem_reverse.mp hmem)).2
  have hle := blockStart_succ_add_le hbit
  exact perfectRoot_congr node fun i _ hhi => hsame i (by omega)

end Blobsitter.Library
