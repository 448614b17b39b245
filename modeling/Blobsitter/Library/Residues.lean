import Blobsitter.Library.Barycentric
import Blobsitter.Library.PrimeCertificate
import Mathlib.FieldTheory.Finite.Basic

/-!
# Field arithmetic by remainders

Loops over natural numbers that reduce after every multiplication compute in the
integers modulo `p`: each is the cast of the loop in the field.
-/

namespace Blobsitter.Library

section

variable {p : Nat}

/-- Two reduced numbers are the same in the field only if they are the same. -/
theorem natCast_inj_of_lt {a b : Nat} (ha : a < p) (hb : b < p) :
    (a : ZMod p) = (b : ZMod p) ↔ a = b := by
  rw [ZMod.natCast_eq_natCast_iff', Nat.mod_eq_of_lt ha, Nat.mod_eq_of_lt hb]

theorem natCast_mulMod (a b : Nat) : ((a * b % p : Nat) : ZMod p) = a * b := by
  rw [ZMod.natCast_mod, Nat.cast_mul]

/-- Subtraction that stays positive by adding the modulus first. -/
theorem natCast_subMod {a b : Nat} (hb : b ≤ p) :
    (((p + a - b) % p : Nat) : ZMod p) = a - b := by
  rw [ZMod.natCast_mod, Nat.cast_sub (by omega), Nat.cast_add, ZMod.natCast_self, zero_add]

theorem natCast_powMod (base : Nat) {width exponent : Nat} (hwidth : exponent < 2 ^ width) :
    ((powMod p base width exponent : Nat) : ZMod p) = (base : ZMod p) ^ exponent := by
  rw [powMod_eq p base hwidth, ZMod.natCast_mod, Nat.cast_pow]

/-- Fermat's inversion. -/
theorem natCast_powMod_inverse [Fact p.Prime] {a width : Nat} (hwidth : p ≤ 2 ^ width)
    (ha : (a : ZMod p) ≠ 0) : ((powMod p a width (p - 2) : Nat) : ZMod p) = (a : ZMod p)⁻¹ := by
  have htwo : 2 ≤ p := (Fact.out : p.Prime).two_le
  rw [natCast_powMod a (by omega)]
  apply eq_inv_of_mul_eq_one_left
  rw [← pow_succ, show p - 2 + 1 = p - 1 by omega, ZMod.pow_card_sub_one_eq_one ha]

/-- Running products, reduced at every step. -/
def prefixProducts (p : Nat) (xs : List Nat) (start : Nat) : List Nat :=
  xs.scanl (fun last x => last * x % p) start

theorem map_natCast_prefixProducts (xs : List Nat) (start : Nat) :
    (prefixProducts p xs start).map (Nat.cast : Nat → ZMod p) =
      (xs.map (Nat.cast : Nat → ZMod p)).scanl (· * ·) (start : ZMod p) := by
  induction xs generalizing start with
  | nil => rfl
  | cons x rest ih =>
      rw [prefixProducts, List.scanl_cons, List.map_cons, List.map_cons, List.scanl_cons,
        ← natCast_mulMod start x, ← ih]
      rfl

/-- One step of the backward pass of a batch inversion, reduced. -/
def inverseStepMod (p : Nat) (pair : Nat × Nat) (done : List Nat × Nat) : List Nat × Nat :=
  (pair.1 * done.2 % p :: done.1, done.2 * pair.2 % p)

/-- Inverses from running products, given the inverse of the whole product. -/
def batchInverseMod (p : Nat) (denoms : List Nat) (inverse : Nat) : List Nat :=
  (((prefixProducts p denoms 1).zip denoms).foldr (inverseStepMod p) ([], inverse)).1

theorem map_natCast_foldr_inverseStepMod [Fact p.Prime] (pairs : List (Nat × Nat)) (inverse : Nat) :
    Prod.map (List.map (Nat.cast : Nat → ZMod p)) (Nat.cast : Nat → ZMod p)
        (pairs.foldr (inverseStepMod p) ([], inverse)) =
      (pairs.map (Prod.map (Nat.cast : Nat → ZMod p) (Nat.cast : Nat → ZMod p))).foldr inverseStep
        ([], (inverse : ZMod p)) := by
  induction pairs with
  | nil => rfl
  | cons pair rest ih =>
      rw [List.foldr_cons, List.map_cons, List.foldr_cons, ← ih]
      simp only [inverseStepMod, inverseStep, Prod.map, List.map_cons, natCast_mulMod]

theorem map_natCast_batchInverseMod [Fact p.Prime] (denoms : List Nat) (inverse : Nat) :
    (batchInverseMod p denoms inverse).map (Nat.cast : Nat → ZMod p) =
      batchInverse (denoms.map (Nat.cast : Nat → ZMod p)) (inverse : ZMod p) := by
  have hpass := congrArg Prod.fst
    (map_natCast_foldr_inverseStepMod (p := p) ((prefixProducts p denoms 1).zip denoms) inverse)
  have hzip : ((prefixProducts p denoms 1).zip denoms).map
      (Prod.map (Nat.cast : Nat → ZMod p) (Nat.cast : Nat → ZMod p)) =
        ((denoms.map (Nat.cast : Nat → ZMod p)).scanl (· * ·) 1).zip
          (denoms.map (Nat.cast : Nat → ZMod p)) := by
    have hproducts := map_natCast_prefixProducts (p := p) denoms 1
    rw [Nat.cast_one] at hproducts
    rw [← hproducts, List.zip_map]
  rw [hzip] at hpass
  exact hpass

/-- A sum of products along three lists, reduced at every step. -/
theorem natCast_foldl_productsMod (terms : List (Nat × Nat × Nat)) (start : Nat) :
    ((terms.foldl (fun acc term => (acc + term.1 * term.2.1 % p * term.2.2) % p) start : Nat) :
        ZMod p) =
      (terms.map (Prod.map (Nat.cast : Nat → ZMod p)
        (Prod.map (Nat.cast : Nat → ZMod p) (Nat.cast : Nat → ZMod p)))).foldl
          (fun acc term => acc + term.1 * term.2.1 * term.2.2) (start : ZMod p) := by
  induction terms generalizing start with
  | nil => rfl
  | cons term rest ih =>
      rw [List.foldl_cons, ih, List.map_cons, List.foldl_cons]
      simp only [Prod.map, ZMod.natCast_mod, Nat.cast_add, Nat.cast_mul]

end

end Blobsitter.Library
