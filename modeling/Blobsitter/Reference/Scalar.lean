import Blobsitter.Library.PrimeCertificate
import Blobsitter.Reference.Hashing
import Mathlib.RingTheory.RootsOfUnity.PrimitiveRoots
import Mathlib.Tactic.NormNum.Prime

/-!
# The scalar field of BLS12-381

Blob polynomials live in this field.  The external scalar type computes in the
integers modulo `r`; that they are a field, and that the evaluation domain consists of
all 4096 roots of unity, is certified here from the constants of the source.
-/

namespace Blobsitter.Reference

open Library

/-- `R_BLS_HEX`. -/
def rBls : Nat := 0x73eda753299d7d483339d80809a1d80553bda402fffe5bfeffffffff00000001

/-- The prime factors of `r - 1`, repeated. -/
def rBlsFactors : List Nat :=
  List.replicate 32 2 ++ [3, 11, 19, 10177, 125527, 859267, 906349, 906349, 2508409, 2529403,
    52437899, 254760293, 254760293]

theorem rBlsFactors_prime : ∀ q ∈ rBlsFactors, q.Prime := by
  intro q hmem
  rcases List.mem_append.mp hmem with htwo | hodd
  · rw [List.eq_of_mem_replicate htwo]
    exact Nat.prime_two
  · simp only [List.mem_cons, List.not_mem_nil, or_false] at hodd
    rcases hodd with rfl | rfl | rfl | rfl | rfl | rfl | rfl | rfl | rfl | rfl | rfl | rfl | rfl
      <;> norm_num

theorem powMod_seven_full : powMod rBls 7 255 (rBls - 1) = 1 := by decide +kernel

theorem powMod_seven_proper : ∀ q ∈ rBlsFactors, powMod rBls 7 255 ((rBls - 1) / q) ≠ 1 := by
  decide +kernel

theorem rBlsFactors_prod : rBlsFactors.prod = rBls - 1 := by norm_num [rBls, rBlsFactors]

theorem one_lt_rBls : 1 < rBls := by norm_num [rBls]

theorem rBls_lt : rBls < 2 ^ 255 := by norm_num [rBls]

theorem rBls_prime : rBls.Prime :=
  prime_of_primitiveRoot rBlsFactors one_lt_rBls rBls_lt.le rBlsFactors_prime rBlsFactors_prod
    powMod_seven_full powMod_seven_proper

instance : Fact rBls.Prime := ⟨rBls_prime⟩

/-- `bls12_381::Scalar`. -/
abbrev Scalar := ZMod rBls

/-- `Scalar::from_bytes` of the reversed bytes; only canonical encodings are accepted. -/
def fromBe (b : Hash) : Except Fault Scalar :=
  if wordNat b < rBls then .ok (wordNat b : Scalar)
  else .error (.panic "input is a canonical field element")

def toBe (s : Scalar) : Hash := beWord 32 s.val

/-! ## The evaluation domain -/

/-- The number with these little-endian 64-bit limbs. -/
def limbsNat (limbs : List Nat) : Nat := limbs.foldr (fun limb high => limb + 2 ^ 64 * high) 0

/-- `w = 7^((r−1)/4096)`. -/
def domainRoot : Scalar :=
  7 ^ limbsNat [0xbfeffffffff00000, 0x80553bda402fffe5, 0xd483339d80809a1d, 0x00073eda753299d7]

theorem limbsNat_root :
    limbsNat [0xbfeffffffff00000, 0x80553bda402fffe5, 0xd483339d80809a1d, 0x00073eda753299d7] *
      4096 = rBls - 1 := by
  norm_num [limbsNat, rBls]

theorem seven_pow_eq_one {e : Nat} (he : e < 2 ^ 255) :
    (7 : Scalar) ^ e = 1 ↔ powMod rBls 7 255 e = 1 := by
  have hcast := @natCast_pow_eq_one rBls 7 e one_lt_rBls
  rw [powMod_eq rBls 7 he, ← hcast]
  rfl

/-- The domain's generator is a primitive 4096th root of unity. -/
theorem domainRoot_primitive : IsPrimitiveRoot domainRoot 4096 := by
  have hbits : rBls - 1 < 2 ^ 255 := Nat.lt_of_le_of_lt (Nat.sub_le rBls 1) rBls_lt
  have hfull : domainRoot ^ 2 ^ (11 + 1) = 1 := by
    rw [domainRoot, ← pow_mul, show 2 ^ (11 + 1) = 4096 from rfl, limbsNat_root,
      seven_pow_eq_one hbits]
    exact powMod_seven_full
  have hhalf : ¬domainRoot ^ 2 ^ 11 = 1 := by
    have hexponent : limbsNat [0xbfeffffffff00000, 0x80553bda402fffe5, 0xd483339d80809a1d,
        0x00073eda753299d7] * 2 ^ 11 = (rBls - 1) / 2 := by
      norm_num [limbsNat, rBls]
    rw [domainRoot, ← pow_mul, hexponent,
      seven_pow_eq_one (Nat.lt_of_le_of_lt (Nat.div_le_self _ 2) hbits)]
    exact powMod_seven_proper 2 (List.mem_append_left _ (List.mem_replicate.mpr ⟨by decide, rfl⟩))
  have horder := orderOf_eq_prime_pow hhalf hfull
  have hprimitive := IsPrimitiveRoot.orderOf domainRoot
  rw [horder] at hprimitive
  exact hprimitive

/-- `powers`: the powers of the generator, by repeated multiplication. -/
def powersFrom (acc : Scalar) : Nat → List Scalar
  | 0 => []
  | count + 1 => acc :: powersFrom (acc * domainRoot) count

theorem powersFrom_getElem? {acc : Scalar} {count i : Nat} (hi : i < count) :
    (powersFrom acc count)[i]? = some (acc * domainRoot ^ i) := by
  induction count generalizing acc i with
  | zero => omega
  | succ count ih =>
      cases i with
      | zero => simp [powersFrom]
      | succ i =>
          rw [powersFrom, List.getElem?_cons_succ, ih (Nat.lt_of_succ_lt_succ hi), pow_succ', mul_assoc]

/-- `reverse_bits` of a number of `width` bits. -/
def reverseBits : Nat → Nat → Nat
  | 0, _ => 0
  | width + 1, n => n % 2 * 2 ^ width + reverseBits width (n / 2)

theorem reverseBits_lt (width n : Nat) : reverseBits width n < 2 ^ width := by
  induction width generalizing n with
  | zero => exact Nat.one_pos
  | succ width ih =>
      have hrest := ih (n / 2)
      have hbit : n % 2 * 2 ^ width ≤ 1 * 2 ^ width :=
        Nat.mul_le_mul_right _ (Nat.le_of_lt_succ (Nat.mod_lt _ Nat.two_pos))
      rw [reverseBits, Nat.pow_succ]
      omega

theorem reverseBits_zero (width : Nat) : reverseBits width 0 = 0 := by
  induction width with
  | zero => rfl
  | succ width ih => rw [reverseBits, Nat.zero_div, ih, Nat.zero_mod, Nat.zero_mul]

theorem reverseBits_add {width n : Nat} (extra : Nat) (hn : n < 2 ^ width) :
    reverseBits (width + extra) n = reverseBits width n * 2 ^ extra := by
  induction width generalizing n with
  | zero =>
      obtain rfl : n = 0 := Nat.lt_one_iff.mp hn
      rw [reverseBits_zero, reverseBits_zero, Nat.zero_mul]
  | succ width ih =>
      have hhalf : n / 2 < 2 ^ width := by
        rw [Nat.pow_succ] at hn
        omega
      rw [show width + 1 + extra = width + extra + 1 by omega, reverseBits, reverseBits, ih hhalf,
        Nat.add_mul, Nat.mul_assoc, ← pow_add]

theorem reverseBits_inj {width first second : Nat} (hfirst : first < 2 ^ width)
    (hsecond : second < 2 ^ width) (heq : reverseBits width first = reverseBits width second) :
    first = second := by
  induction width generalizing first second with
  | zero =>
      rw [pow_zero, Nat.lt_one_iff] at hfirst hsecond
      rw [hfirst, hsecond]
  | succ width ih =>
      rw [Nat.pow_succ] at hfirst hsecond
      rw [reverseBits, reverseBits] at heq
      have hlow := reverseBits_lt width (first / 2)
      have hlow' := reverseBits_lt width (second / 2)
      have hbit : first % 2 = second % 2 := by
        have hdiv := congrArg (· / 2 ^ width) heq
        simp only [Nat.mul_comm _ (2 ^ width), Nat.mul_add_div (Nat.two_pow_pos width),
          Nat.div_eq_of_lt hlow, Nat.div_eq_of_lt hlow', Nat.add_zero] at hdiv
        exact hdiv
      rw [hbit] at heq
      have hrest := ih (by omega) (by omega) (Nat.add_left_cancel heq)
      omega

/-- `(i as u16).reverse_bits() as usize >> 4`. -/
def domainOrder (i : Nat) : Nat := reverseBits 16 (i % 2 ^ 16) >>> 4

theorem domainOrder_eq {i : Nat} (hi : i < 4096) : domainOrder i = reverseBits 12 i := by
  have hwide : i < 2 ^ 12 := hi
  rw [domainOrder, Nat.mod_eq_of_lt (hwide.trans (by decide)), reverseBits_add 4 hwide,
    Nat.shiftRight_eq_div_pow, Nat.mul_div_cancel _ (by decide)]

theorem domainOrder_lt {i : Nat} (hi : i < 4096) : domainOrder i < 4096 := by
  rw [domainOrder_eq hi]
  exact reverseBits_lt 12 i

theorem domainOrder_injOn : Set.InjOn domainOrder (Finset.range 4096) := by
  intro i hi j hj heq
  have hi' := Finset.mem_range.mp hi
  have hj' := Finset.mem_range.mp hj
  rw [domainOrder_eq hi', domainOrder_eq hj'] at heq
  exact reverseBits_inj hi' hj' heq

/-- The bit-reversed evaluation domain. -/
def domain : List Scalar :=
  (List.range 4096).map fun i => (powersFrom 1 4096).getD (domainOrder i) 0

theorem domain_eq : domain = (List.range 4096).map fun i => domainRoot ^ domainOrder i := by
  apply List.map_congr_left
  intro i hmem
  rw [List.getD_eq_getElem?_getD, powersFrom_getElem? (domainOrder_lt (List.mem_range.mp hmem)),
    Option.getD_some, one_mul]

end Blobsitter.Reference
