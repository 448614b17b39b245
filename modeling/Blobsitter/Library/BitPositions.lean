import Mathlib.Data.Nat.BitIndices
import Mathlib.Data.List.Sort
import Mathlib.Tactic.Ring

/-!
# Bit positions of a counter

A binary counter is read by shift-and-mask tests, by trailing-zero counts and by
floor logarithms.  This module relates those readings to `Nat.testBit` and to
division by powers of two, and computes the bits of a counter to which one
aligned power of two is added.
-/

namespace Blobsitter.Library

/-- Bit `h` of `n`, as shift-and-mask code reads it. -/
def bitSet (n h : Nat) : Bool := (n >>> h) &&& 1 == 1

@[simp]
theorem bitSet_eq_testBit (n h : Nat) : bitSet n h = n.testBit h := by
  unfold bitSet
  rw [Nat.and_one_is_mod, Nat.shiftRight_eq_div_pow, Nat.testBit_eq_decide_div_mod_eq]
  rfl

theorem testBit_iff_div (n h : Nat) : n.testBit h = true ↔ n / 2 ^ h % 2 = 1 := by
  rw [Nat.testBit_eq_decide_div_mod_eq, decide_eq_true_iff]

theorem testBit_false_iff_div (n h : Nat) : n.testBit h = false ↔ n / 2 ^ h % 2 = 0 := by
  rw [Nat.testBit_eq_decide_div_mod_eq, decide_eq_false_iff_not]
  omega

theorem div_two_pow_succ (n h : Nat) : n / 2 ^ (h + 1) = n / 2 ^ h / 2 := by
  rw [Nat.pow_succ, Nat.div_div_eq_div_mul]

/-- The quotient read at a set bit shrinks at the next bit. -/
theorem div_succ_lt_of_testBit {n h : Nat} (hbit : n.testBit h = true) :
    n / 2 ^ (h + 1) < n / 2 ^ h := by
  have hodd := (testBit_iff_div n h).mp hbit
  rw [div_two_pow_succ]
  exact Nat.div_lt_self (Nat.pos_of_ne_zero fun hzero => by simp [hzero] at hodd) (by omega)

theorem lt_of_testBit_lt {n h w : Nat} (hn : n < 2 ^ w) (hbit : n.testBit h = true) : h < w := by
  by_contra hle
  have hbig : n < 2 ^ h := Nat.lt_of_lt_of_le hn (Nat.pow_le_pow_right (by omega) (by omega))
  rw [Nat.testBit_lt_two_pow hbig] at hbit
  cases hbit

/-- First index of the aligned block of width `2 ^ h` that contains `n`. -/
def blockStart (n h : Nat) : Nat := n / 2 ^ h * 2 ^ h

theorem blockStart_le (n h : Nat) : blockStart n h ≤ n := Nat.div_mul_le_self _ _

theorem blockStart_of_dvd {n h : Nat} (hdvd : 2 ^ h ∣ n) : blockStart n h = n :=
  Nat.div_mul_cancel hdvd

/-- A set bit puts the block in the right half of the block above it. -/
theorem blockStart_of_testBit {n h : Nat} (hbit : n.testBit h = true) :
    blockStart n h = blockStart n (h + 1) + 2 ^ h := by
  have hodd := (testBit_iff_div n h).mp hbit
  have hhalf : n / 2 ^ h = 2 * (n / 2 ^ h / 2) + 1 := by omega
  unfold blockStart
  rw [div_two_pow_succ, Nat.pow_succ]
  conv => lhs; rw [hhalf]
  ring

/-- A clear bit puts the block in the left half of the block above it. -/
theorem blockStart_of_not_testBit {n h : Nat} (hbit : n.testBit h = false) :
    blockStart n h = blockStart n (h + 1) := by
  have heven := (testBit_false_iff_div n h).mp hbit
  have hhalf : n / 2 ^ h = 2 * (n / 2 ^ h / 2) := by omega
  unfold blockStart
  rw [div_two_pow_succ, Nat.pow_succ]
  conv => lhs; rw [hhalf]
  ring

theorem blockStart_succ_add_le {n h : Nat} (hbit : n.testBit h = true) :
    blockStart n (h + 1) + 2 ^ h ≤ n := by
  rw [← blockStart_of_testBit hbit]
  exact blockStart_le n h

/-- After the run of set bits from `low` to `high` is cleared, bit `high` is set
and the bits above it are the old ones. -/
theorem testBit_of_carried {n total high : Nat} (hclear : n.testBit high = false)
    (htotal : total = (n / 2 ^ high + 1) * 2 ^ high) (k : Nat) :
    total.testBit k = if k < high then false else if k = high then true else n.testBit k := by
  have heven := (testBit_false_iff_div n high).mp hclear
  rcases Nat.lt_trichotomy k high with hlt | rfl | hgt
  · rw [if_pos hlt, testBit_false_iff_div, htotal]
    obtain ⟨d, rfl⟩ := Nat.exists_eq_add_of_lt hlt
    have hsplit : (n / 2 ^ (k + d + 1) + 1) * 2 ^ (k + d + 1) =
        2 ^ k * ((n / 2 ^ (k + d + 1) + 1) * 2 ^ d * 2) := by ring
    rw [hsplit, Nat.mul_div_cancel_left _ (Nat.two_pow_pos k), Nat.mul_mod_left]
  · rw [if_neg (Nat.lt_irrefl k), if_pos rfl, testBit_iff_div, htotal,
      Nat.mul_div_cancel _ (Nat.two_pow_pos k)]
    omega
  · rw [if_neg (by omega), if_neg (by omega)]
    obtain ⟨d, rfl⟩ := Nat.exists_eq_add_of_lt hgt
    have hdiv : total / 2 ^ (high + d + 1) = n / 2 ^ (high + d + 1) := by
      have hpow : 2 ^ (high + d + 1) = 2 ^ high * 2 * 2 ^ d := by ring
      rw [hpow, ← Nat.div_div_eq_div_mul, ← Nat.div_div_eq_div_mul, ← Nat.div_div_eq_div_mul,
        ← Nat.div_div_eq_div_mul, htotal, Nat.mul_div_cancel _ (Nat.two_pow_pos high)]
      congr 1
      omega
    rw [Nat.testBit_eq_decide_div_mod_eq, Nat.testBit_eq_decide_div_mod_eq, hdiv]

/-- Ascending set bits below a width, as a filter over the bit positions. -/
def setBits (width n : Nat) : List Nat := (List.range width).filter (bitSet n)

theorem mem_setBits {width n h : Nat} : h ∈ setBits width n ↔ h < width ∧ n.testBit h = true := by
  simp [setBits]

theorem setBits_pairwise (width n : Nat) : (setBits width n).Pairwise (· < ·) :=
  List.Pairwise.filter _ List.pairwise_lt_range

theorem setBits_nodup (width n : Nat) : (setBits width n).Nodup :=
  (setBits_pairwise width n).imp Nat.ne_of_lt

/-- Below the width the filtered list is the library's list of set bits. -/
theorem setBits_eq_bitIndices {width n : Nat} (hn : n < 2 ^ width) :
    setBits width n = n.bitIndices := by
  refine List.Perm.eq_of_pairwise (fun a b _ _ hab hba => absurd hab (Nat.lt_asymm hba))
    (setBits_pairwise width n) Nat.bitIndices_sorted.pairwise ?_
  rw [List.perm_ext_iff_of_nodup (setBits_nodup width n) Nat.bitIndices_nodup]
  intro h
  rw [mem_setBits, Nat.mem_bitIndices]
  exact ⟨And.right, fun hbit => ⟨lt_of_testBit_lt hn hbit, hbit⟩⟩

/-- One more position puts its bit in front of the descending list. -/
theorem setBits_succ_reverse (width n : Nat) :
    (setBits (width + 1) n).reverse =
      if n.testBit width then width :: (setBits width n).reverse else (setBits width n).reverse := by
  rw [setBits, List.range_succ, List.filter_append, List.reverse_append, ← setBits]
  cases hbit : n.testBit width with
  | false => simp [hbit]
  | true => simp [hbit]

end Blobsitter.Library
