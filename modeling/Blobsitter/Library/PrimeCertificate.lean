import Mathlib.NumberTheory.LucasPrimality
import Mathlib.Data.List.Prime

/-!
# Primality from a primitive root

Lucas's test with the exponentiations carried out by repeated squaring, so that the
kernel evaluates them for numbers of a few hundred bits.
-/

namespace Blobsitter.Library

/-- `base ^ exponent` modulo `modulus`, for exponents of at most `width` bits. -/
def powMod (modulus base : Nat) : Nat → Nat → Nat
  | 0, _ => 1 % modulus
  | width + 1, exponent =>
      let half := powMod modulus base width (exponent / 2)
      if exponent % 2 = 0 then half * half % modulus else half * half % modulus * base % modulus

theorem powMod_eq (modulus base : Nat) {width exponent : Nat} (hwidth : exponent < 2 ^ width) :
    powMod modulus base width exponent = base ^ exponent % modulus := by
  induction width generalizing exponent with
  | zero =>
      have hzero : exponent = 0 := by simpa using hwidth
      rw [hzero, powMod, pow_zero]
  | succ width ih =>
      have hhalf : exponent / 2 < 2 ^ width := by
        rw [Nat.pow_succ] at hwidth
        omega
      have hsquare : base ^ (exponent / 2) * base ^ (exponent / 2) = base ^ (exponent / 2 * 2) := by
        rw [← pow_add, Nat.mul_two]
      rw [powMod, ih hhalf, ← Nat.mul_mod, hsquare]
      split
      · rename_i heven
        rw [Nat.div_mul_cancel (Nat.dvd_of_mod_eq_zero heven)]
      · rename_i hodd
        have hsucc : exponent = exponent / 2 * 2 + 1 := by omega
        conv_rhs => rw [hsucc, pow_succ]
        rw [Nat.mod_mul_mod]

theorem natCast_pow_eq_one {p base exponent : Nat} (hp : 2 ≤ p) :
    (base : ZMod p) ^ exponent = 1 ↔ base ^ exponent % p = 1 := by
  rw [← Nat.cast_pow, ← Nat.cast_one, ZMod.natCast_eq_natCast_iff', Nat.one_mod_eq_one.mpr (by omega)]

/-- A number is prime when the order of `base` modulo it is full; `factors` are the
prime factors of the order, repeated. -/
theorem prime_of_primitiveRoot {p base width : Nat} (factors : List Nat) (hp : 2 ≤ p)
    (hwidth : p ≤ 2 ^ width) (hprime : ∀ q ∈ factors, q.Prime) (hprod : factors.prod = p - 1)
    (hfull : powMod p base width (p - 1) = 1)
    (hproper : ∀ q ∈ factors, powMod p base width ((p - 1) / q) ≠ 1) : p.Prime := by
  have hfits : ∀ e ≤ p - 1, e < 2 ^ width := by
    intro e he
    omega
  refine lucas_primality p base ?_ ?_
  · rw [natCast_pow_eq_one hp, ← powMod_eq p base (hfits _ le_rfl)]
    exact hfull
  · intro q hq hdvd
    rw [← hprod] at hdvd
    obtain ⟨factor, hmem, hqf⟩ := (Prime.dvd_prod_iff hq.prime).mp hdvd
    obtain rfl := (Nat.prime_dvd_prime_iff_eq hq (hprime factor hmem)).mp hqf
    rw [Ne, natCast_pow_eq_one hp, ← powMod_eq p base (hfits _ (Nat.div_le_self _ _))]
    exact hproper q hmem

end Blobsitter.Library
