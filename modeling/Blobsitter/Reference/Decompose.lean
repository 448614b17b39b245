import Blobsitter.Library.GreedyTiling
import Blobsitter.Reference.Hashing

/-!
# Update decomposition of the reference crate

An update of `m` leaves after leaf count `n` is split into maximal aligned perfect
subtrees.  Sixty-four-bit counters are natural numbers; the additions wrap.
-/

namespace Blobsitter.Reference

open Library

/-- `u64::trailing_zeros`. -/
def trailingZeros (x : Nat) : Nat := ((List.range 64).find? (bitSet x)).getD 64

/-- `u64::leading_zeros`. -/
def leadingZeros (x : Nat) : Nat := if x = 0 then 64 else 63 - Nat.log2 x

/-- Peak heights at leaf count `n`: the set bits of `n`, tallest first. -/
def peakHeights (n : Nat) : List Nat := (List.range 64).reverse.filter (bitSet n)

/-- The greedy height at position `pos` with `remaining` leaves to place. -/
def nextHeight (pos remaining : Nat) : Nat :=
  let hAlign := if pos == 0 then 63 else trailingZeros pos
  let hSize := 63 - leadingZeros remaining
  min hAlign hSize

/-- The loop of `decompose`; each pass places at least one leaf, so `remaining`
passes are enough. -/
def decomposeLoop : Nat → Nat → Nat → List Nat
  | 0, _, _ => []
  | fuel + 1, pos, remaining =>
      if remaining > 0 then
        let h := nextHeight pos remaining
        h :: decomposeLoop fuel ((pos + 2 ^ h) % 2 ^ 64) (remaining - 2 ^ h)
      else []

def decompose (n m : Nat) : Except Fault (List Nat) :=
  if m ≥ 1 then .ok (decomposeLoop m n m)
  else .error (.panic "update must append at least one chunk")

theorem trailingZeros_spec {x : Nat} (hpos : x ≠ 0) (hx : x < 2 ^ 64) :
    x.testBit (trailingZeros x) = true ∧ ∀ k < trailingZeros x, x.testBit k = false := by
  obtain ⟨i, hi⟩ := Nat.exists_testBit_of_ne_zero hpos
  have hi64 := lt_of_testBit_lt hx hi
  unfold trailingZeros
  cases hfind : (List.range 64).find? (bitSet x) with
  | none =>
      rw [List.find?_eq_none] at hfind
      exact absurd hi (by simpa using hfind i (List.mem_range.mpr hi64))
  | some t =>
      rw [List.find?_range_eq_some] at hfind
      obtain ⟨hbit, _, hbelow⟩ := hfind
      exact ⟨by simpa using hbit, fun k hk => by simpa using hbelow k hk⟩

/-- Trailing zeros are alignment. -/
theorem dvd_of_trailing {x t : Nat} (hbelow : ∀ k < t, x.testBit k = false) : 2 ^ t ∣ x := by
  apply Nat.dvd_of_mod_eq_zero
  apply Nat.eq_of_testBit_eq
  intro i
  rw [Nat.testBit_mod_two_pow, Nat.zero_testBit]
  by_cases hi : i < t
  · simp [hbelow i hi]
  · simp [hi]

theorem trailingZeros_dvd {x : Nat} (hpos : x ≠ 0) (hx : x < 2 ^ 64) : 2 ^ trailingZeros x ∣ x :=
  dvd_of_trailing (trailingZeros_spec hpos hx).2

theorem log_of_leadingZeros {x : Nat} (hpos : x ≠ 0) (hx : x < 2 ^ 64) :
    63 - leadingZeros x = Nat.log2 x := by
  have hlog : Nat.log2 x < 64 := (Nat.log2_lt hpos).mpr hx
  rw [leadingZeros, if_neg hpos]
  omega

theorem nextHeight_le_log (pos : Nat) {remaining : Nat} (hrem : 0 < remaining)
    (hrem64 : remaining < 2 ^ 64) : nextHeight pos remaining ≤ Nat.log2 remaining := by
  unfold nextHeight
  rw [log_of_leadingZeros (by omega) hrem64]
  exact Nat.min_le_right _ _

/-- The chosen subtree fits into the remaining leaves. -/
theorem two_pow_nextHeight_le (pos : Nat) {remaining : Nat} (hrem : 0 < remaining)
    (hrem64 : remaining < 2 ^ 64) : 2 ^ nextHeight pos remaining ≤ remaining :=
  Nat.le_trans (Nat.pow_le_pow_right (by omega) (nextHeight_le_log pos hrem hrem64))
    (Nat.log2_self_le (by omega))

/-- The chosen subtree starts on an index divisible by its size. -/
theorem two_pow_nextHeight_dvd {pos : Nat} (remaining : Nat) (hpos64 : pos < 2 ^ 64) :
    2 ^ nextHeight pos remaining ∣ pos := by
  by_cases hpos : pos = 0
  · rw [hpos]
    exact Nat.dvd_zero _
  · have hle : nextHeight pos remaining ≤ trailingZeros pos := by
      simp [nextHeight, hpos]
    exact Nat.dvd_trans (Nat.pow_dvd_pow 2 hle) (trailingZeros_dvd hpos hpos64)

theorem decomposeLoop_succ {fuel pos remaining : Nat} (hrem : 0 < remaining)
    (hbound : pos + remaining < 2 ^ 64) :
    decomposeLoop (fuel + 1) pos remaining =
      nextHeight pos remaining :: decomposeLoop fuel (pos + 2 ^ nextHeight pos remaining)
        (remaining - 2 ^ nextHeight pos remaining) := by
  have hle := two_pow_nextHeight_le pos hrem (by omega)
  rw [decomposeLoop, if_pos hrem]
  simp only
  rw [Nat.mod_eq_of_lt (by omega)]

/-- The heights tile the update: aligned, and covering exactly its leaves. -/
theorem decomposeLoop_tiles {fuel pos remaining : Nat} (hfuel : remaining ≤ fuel)
    (hbound : pos + remaining < 2 ^ 64) :
    Tiles pos (decomposeLoop fuel pos remaining) ∧
      tileWidth (decomposeLoop fuel pos remaining) = remaining := by
  induction fuel generalizing pos remaining with
  | zero =>
      have hzero : remaining = 0 := by omega
      subst hzero
      exact ⟨True.intro, rfl⟩
  | succ fuel ih =>
      by_cases hrem : 0 < remaining
      · have hle := two_pow_nextHeight_le pos hrem (by omega)
        have hpos := Nat.two_pow_pos (nextHeight pos remaining)
        rw [decomposeLoop_succ hrem hbound]
        obtain ⟨htiles, hwidth⟩ := @ih (pos + 2 ^ nextHeight pos remaining)
          (remaining - 2 ^ nextHeight pos remaining) (by omega) (by omega)
        exact ⟨⟨two_pow_nextHeight_dvd remaining (by omega), htiles⟩, by
          rw [tileWidth_cons, hwidth]
          omega⟩
      · have hzero : remaining = 0 := by omega
        subst hzero
        exact ⟨True.intro, rfl⟩

/-- Heights of an update that the crate accepts. -/
def updateHeights (n m : Nat) : List Nat := decomposeLoop m n m

theorem decompose_eq {n m : Nat} (hm : 1 ≤ m) : decompose n m = .ok (updateHeights n m) := by
  rw [decompose, if_pos hm, updateHeights]

theorem updateHeights_tiles {n m : Nat} (hbound : n + m < 2 ^ 64) : Tiles n (updateHeights n m) :=
  (decomposeLoop_tiles (Nat.le_refl m) hbound).1

theorem updateHeights_width {n m : Nat} (hbound : n + m < 2 ^ 64) :
    tileWidth (updateHeights n m) = m :=
  (decomposeLoop_tiles (Nat.le_refl m) hbound).2

/-! ## The greedy choice -/

theorem le_trailingZeros {x j : Nat} (hpos : x ≠ 0) (hx : x < 2 ^ 64) (hdvd : 2 ^ j ∣ x) :
    j ≤ trailingZeros x := by
  by_contra hlt
  obtain ⟨q, rfl⟩ := hdvd
  have hbit := (trailingZeros_spec hpos hx).1
  rw [Nat.testBit_two_pow_mul, decide_eq_false (by omega), Bool.false_and] at hbit
  cases hbit

theorem log2_le_63 {x : Nat} (hpos : 0 < x) (hx : x < 2 ^ 64) : Nat.log2 x ≤ 63 := by
  have hlog := (Nat.log2_lt (Nat.pos_iff_ne_zero.mp hpos)).mpr hx
  omega

theorem nextHeight_eq_min (pos : Nat) {remaining : Nat} (hrem : 0 < remaining)
    (hrem64 : remaining < 2 ^ 64) :
    nextHeight pos remaining =
      min (if pos = 0 then 63 else trailingZeros pos) (Nat.log2 remaining) := by
  simp only [nextHeight, log_of_leadingZeros (Nat.pos_iff_ne_zero.mp hrem) hrem64, beq_iff_eq]

/-- Each pass takes the largest height that is aligned and fits. -/
theorem nextHeight_isGreatest {pos remaining : Nat} (hrem : 0 < remaining)
    (hbound : pos + remaining < 2 ^ 64) :
    IsGreatest {k | 2 ^ k ∣ pos ∧ 2 ^ k ≤ remaining} (nextHeight pos remaining) := by
  constructor
  · exact ⟨two_pow_nextHeight_dvd remaining (by omega),
      two_pow_nextHeight_le pos hrem (by omega)⟩
  · rintro k ⟨hdvd, hle⟩
    have hlog : k ≤ Nat.log2 remaining := (Nat.le_log2 (by omega)).mpr hle
    rw [nextHeight_eq_min pos hrem (by omega)]
    apply Nat.le_min_of_le_of_le _ hlog
    by_cases hpos : pos = 0
    · rw [if_pos hpos]
      exact hlog.trans (log2_le_63 hrem (by omega))
    · rw [if_neg hpos]
      exact le_trailingZeros hpos (by omega) hdvd

theorem decomposeLoop_greedy {fuel pos remaining : Nat} (hfuel : remaining ≤ fuel)
    (hbound : pos + remaining < 2 ^ 64) : Greedy pos (decomposeLoop fuel pos remaining) := by
  induction fuel generalizing pos remaining with
  | zero => exact Greedy.nil pos
  | succ fuel ih =>
      by_cases hrem : 0 < remaining
      · have hlargest := nextHeight_isGreatest hrem hbound
        have hwidth := (decomposeLoop_tiles hfuel hbound).2
        have hle := hlargest.1.2
        have hpos := Nat.two_pow_pos (nextHeight pos remaining)
        rw [decomposeLoop_succ hrem hbound] at hwidth ⊢
        refine Greedy.cons ?_ (ih (by omega) (by omega))
        rw [hwidth]
        exact hlargest
      · rw [decomposeLoop, if_neg hrem]
        exact Greedy.nil pos

theorem updateHeights_greedy {n m : Nat} (hbound : n + m < 2 ^ 64) :
    Greedy n (updateHeights n m) :=
  decomposeLoop_greedy (Nat.le_refl m) hbound

theorem updateHeights_length_le_clog {n m : Nat} (hbound : n + m < 2 ^ 64) :
    (updateHeights n m).length ≤ 2 * Nat.clog 2 (m + 1) := by
  have hlen := (updateHeights_greedy hbound).length_le_clog
  rw [updateHeights_width hbound] at hlen
  exact hlen

theorem clog_le_64 {m : Nat} (hm : m < 2 ^ 64) : Nat.clog 2 (m + 1) ≤ 64 :=
  Nat.clog_le_of_le_pow hm

theorem updateHeights_length_le {n m : Nat} (hbound : n + m < 2 ^ 64) :
    (updateHeights n m).length ≤ 128 := by
  have hlen := updateHeights_length_le_clog hbound
  have hclog := clog_le_64 (show m < 2 ^ 64 by omega)
  omega

/-- The values of `pos` and `remaining` before each pass, and after the last one. -/
inductive DecomposeReaches (n m : Nat) : Nat → Nat → Prop where
  | start : DecomposeReaches n m n m
  | pass {pos remaining : Nat} (hreach : DecomposeReaches n m pos remaining)
      (hrem : 0 < remaining) :
      DecomposeReaches n m ((pos + 2 ^ nextHeight pos remaining) % 2 ^ 64)
        (remaining - 2 ^ nextHeight pos remaining)

/-- At these values the loop of `decompose` goes on. -/
theorem DecomposeReaches.goes_on {n m pos remaining : Nat}
    (hreach : DecomposeReaches n m pos remaining) (hbound : n + m < 2 ^ 64) :
    ∃ placed fuel, remaining ≤ fuel ∧ pos + remaining = n + m ∧
      updateHeights n m = placed ++ decomposeLoop fuel pos remaining := by
  induction hreach with
  | start => exact ⟨[], m, Nat.le_refl m, rfl, rfl⟩
  | @pass pos remaining _ hrem ih =>
      obtain ⟨placed, fuel, hfuel, hsum, hheights⟩ := ih
      have hle := two_pow_nextHeight_le pos hrem (by omega)
      have hpos := Nat.two_pow_pos (nextHeight pos remaining)
      obtain ⟨fuel, rfl⟩ := Nat.exists_eq_succ_of_ne_zero (show fuel ≠ 0 by omega)
      rw [decomposeLoop_succ hrem (by omega)] at hheights
      rw [Nat.mod_eq_of_lt (by omega)]
      refine ⟨placed ++ [nextHeight pos remaining], fuel, by omega, by omega, ?_⟩
      rw [List.append_assoc]
      exact hheights

theorem peakHeights_eq (n : Nat) : peakHeights n = (setBits 64 n).reverse := by
  rw [peakHeights, setBits, List.filter_reverse]

example : decompose 5 7 = .ok [0, 1, 2] := by decide

end Blobsitter.Reference
