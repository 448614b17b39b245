import Mathlib.Algebra.BigOperators.Group.List.Basic
import Mathlib.Tactic.Ring

/-!
# Pro-rata payouts from what is left

Holders of weights leave one after the other, and each takes the rounded-down share of
its weight in what is left.  Rounding leaves a surplus to the later ones: nobody gets
less than the rounded share of the whole, the surplus grows by less than one unit a
payout, and the last one takes everything.
-/

namespace Blobsitter.Library

/-- The payouts in the order of leaving, from a balance and the sum of the weights. -/
def proRata : Nat → Nat → List Nat → List Nat
  | _, _, [] => []
  | balance, total, weight :: rest =>
      let payout := balance * weight / total
      payout :: proRata (balance - payout) (total - weight) rest

/-- What is left after some payouts is worth no less per unit of weight than the whole
was, and exceeds its part of the whole by at most one unit for each payout. -/
structure FairlyLeft (balance total count left leftTotal : Nat) : Prop where
  enough : balance * leftTotal ≤ left * total
  surplus : left * total ≤ balance * leftTotal + count * total

theorem FairlyLeft.start (balance total : Nat) : FairlyLeft balance total 0 balance total :=
  ⟨le_rfl, Nat.le_add_right _ _⟩

section

variable {balance total count left leftTotal weight : Nat}

theorem share_le (hweight : weight ≤ leftTotal) : left * weight / leftTotal ≤ left :=
  Nat.div_le_of_le_mul (by
    rw [Nat.mul_comm]
    exact Nat.mul_le_mul_right _ hweight)

/-- A payout is at least the rounded share of the whole. -/
theorem FairlyLeft.le_payout (hfair : FairlyLeft balance total count left leftTotal)
    (htotal : 0 < total) (hpositive : 0 < leftTotal) :
    balance * weight / total ≤ left * weight / leftTotal := by
  rw [Nat.le_div_iff_mul_le hpositive]
  have hshare := Nat.div_mul_le_self (balance * weight) total
  have hscaled : balance * weight / total * leftTotal * total ≤ left * weight * total := by
    calc balance * weight / total * leftTotal * total
        = balance * weight / total * total * leftTotal := by ring
      _ ≤ balance * weight * leftTotal := Nat.mul_le_mul_right _ hshare
      _ = balance * leftTotal * weight := by ring
      _ ≤ left * total * weight := Nat.mul_le_mul_right _ hfair.enough
      _ = left * weight * total := by ring
  exact Nat.le_of_mul_le_mul_right hscaled htotal

/-- And it exceeds the exact share of the whole by at most one unit for each payout before. -/
theorem FairlyLeft.payout_le (hfair : FairlyLeft balance total count left leftTotal)
    (hpositive : 0 < leftTotal) (hweight : weight ≤ leftTotal) :
    left * weight / leftTotal * total ≤ balance * weight + count * total := by
  have hshare := Nat.div_mul_le_self (left * weight) leftTotal
  have hscaled : left * weight / leftTotal * total * leftTotal ≤
      (balance * weight + count * total) * leftTotal := by
    calc left * weight / leftTotal * total * leftTotal
        = left * weight / leftTotal * leftTotal * total := by ring
      _ ≤ left * weight * total := Nat.mul_le_mul_right _ hshare
      _ = left * total * weight := by ring
      _ ≤ (balance * leftTotal + count * total) * weight := Nat.mul_le_mul_right _ hfair.surplus
      _ = balance * weight * leftTotal + count * total * weight := by ring
      _ ≤ balance * weight * leftTotal + count * total * leftTotal :=
        Nat.add_le_add_left (Nat.mul_le_mul_left _ hweight) _
      _ = (balance * weight + count * total) * leftTotal := by ring
  exact Nat.le_of_mul_le_mul_right hscaled hpositive

/-- A payout leaves the rest fair. -/
theorem FairlyLeft.pay (hfair : FairlyLeft balance total count left leftTotal)
    (htotal : 0 < total) (hpositive : 0 < leftTotal) (hweight : weight ≤ leftTotal) :
    FairlyLeft balance total (count + 1) (left - left * weight / leftTotal)
      (leftTotal - weight) := by
  have hpaid : left * weight / leftTotal ≤ left := share_le hweight
  have hshare := Nat.div_mul_le_self (left * weight) leftTotal
  refine ⟨?_, ?_⟩
  · have hkept : left * (leftTotal - weight) ≤
        (left - left * weight / leftTotal) * leftTotal := by
      rw [Nat.mul_sub, Nat.sub_mul]
      exact Nat.sub_le_sub_left hshare _
    have hscaled : balance * (leftTotal - weight) * leftTotal ≤
        (left - left * weight / leftTotal) * total * leftTotal := by
      calc balance * (leftTotal - weight) * leftTotal
          = balance * leftTotal * (leftTotal - weight) := by ring
        _ ≤ left * total * (leftTotal - weight) := Nat.mul_le_mul_right _ hfair.enough
        _ = left * (leftTotal - weight) * total := by ring
        _ ≤ (left - left * weight / leftTotal) * leftTotal * total :=
          Nat.mul_le_mul_right _ hkept
        _ = (left - left * weight / leftTotal) * total * leftTotal := by ring
    exact Nat.le_of_mul_le_mul_right hscaled hpositive
  · have hlower : balance * weight / total ≤ left * weight / leftTotal :=
      hfair.le_payout htotal hpositive
    have hrounded : balance * weight ≤ left * weight / leftTotal * total + total := by
      have hdivision := Nat.div_add_mod (balance * weight) total
      have hremainder := Nat.mod_lt (balance * weight) htotal
      have hscaled := Nat.mul_le_mul_left total hlower
      rw [Nat.mul_comm total (left * weight / leftTotal)] at hscaled
      omega
    have hsurplus := hfair.surplus
    have hpart : balance * weight ≤ balance * leftTotal := Nat.mul_le_mul_left _ hweight
    rw [Nat.sub_mul, Nat.mul_sub, Nat.add_mul, Nat.one_mul]
    omega

end

/-- Every payout of a round lies between the rounded share of the whole and the exact
share plus one unit for each payout before it. -/
theorem proRata_fair {balance total count left leftTotal : Nat} {weights : List Nat}
    (hfair : FairlyLeft balance total count left leftTotal) (htotal : 0 < total)
    (hweights : ∀ weight ∈ weights, 0 < weight) (hsum : weights.sum ≤ leftTotal) {j weight payout : Nat}
    (hweight : weights[j]? = some weight)
    (hpayout : (proRata left leftTotal weights)[j]? = some payout) :
    balance * weight / total ≤ payout ∧ payout * total ≤ balance * weight + (count + j) * total := by
  induction weights generalizing count left leftTotal j with
  | nil => cases hweight
  | cons first rest ih =>
      rw [List.sum_cons] at hsum
      have hfirst := hweights first List.mem_cons_self
      have hpositive : 0 < leftTotal := by omega
      have hle : first ≤ leftTotal := by omega
      cases j with
      | zero =>
          cases hweight
          cases hpayout
          exact ⟨hfair.le_payout htotal hpositive, hfair.payout_le hpositive hle⟩
      | succ j =>
          have hrest := ih (hfair.pay htotal hpositive hle)
            (fun later hmem => hweights later (List.mem_cons_of_mem _ hmem)) (by omega) hweight
            hpayout
          rwa [Nat.add_assoc, Nat.add_comm 1 j] at hrest

/-- When all weights leave, everything is paid out. -/
theorem proRata_sum {balance total : Nat} {weights : List Nat} (hsome : weights ≠ [])
    (hweights : ∀ weight ∈ weights, 0 < weight) (hsum : weights.sum = total) :
    (proRata balance total weights).sum = balance := by
  induction weights generalizing balance total with
  | nil => exact absurd rfl hsome
  | cons first rest ih =>
      rw [List.sum_cons] at hsum
      have hfirst := hweights first List.mem_cons_self
      rw [proRata, List.sum_cons]
      by_cases hlast : rest = []
      · subst hlast
        rw [List.sum_nil, Nat.add_zero] at hsum
        rw [hsum, Nat.mul_div_cancel _ (hsum ▸ hfirst)]
        rfl
      · have hle : balance * first / total ≤ balance := share_le (by omega)
        rw [ih hlast (fun later hmem => hweights later (List.mem_cons_of_mem _ hmem)) (by omega)]
        omega

end Blobsitter.Library
