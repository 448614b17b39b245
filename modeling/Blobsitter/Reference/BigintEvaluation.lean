import Blobsitter.Library.Residues
import Blobsitter.Reference.Evaluation

/-!
# The cross-check backend

The same evaluation over unbounded integers, reduced by hand.  Cast into the field it is
the production backend step by step, so both return the value of the polynomial.
-/

namespace Blobsitter.Reference

open Library Finset Polynomial

/-- The powers of the generator, reduced. -/
def bigintPowersFrom (root acc : Nat) : Nat → List Nat
  | 0 => []
  | count + 1 => acc :: bigintPowersFrom root (acc * root % rBls) count

def bitReversedDomain : List Nat :=
  let root := powMod rBls 7 255 ((rBls - 1) / 4096)
  (List.range fieldElementsPerBlob).map fun i =>
    (bigintPowersFrom root 1 fieldElementsPerBlob).getD (domainOrder i) 0

/-- Right-aligned big-endian bytes; a longer number underflows the slice bound. -/
def to32 (x : Nat) : Except Fault Hash :=
  if x < 2 ^ 256 then .ok (beWord 32 x) else .error (.panic "attempt to subtract with overflow")

/-- All denominators and the width. -/
def bigintDenoms (z : Nat) : List Nat :=
  bitReversedDomain.map (fun w => (rBls + z - w) % rBls) ++ [4096]

def barycentricEvalBigint (elements : List Hash) (z : Hash) : Except Fault Hash := do
  if elements.length ≠ fieldElementsPerBlob then
    throw (.panic "assertion failed: elements.len() == FIELD_ELEMENTS_PER_BLOB")
  let z := wordNat z % rBls
  let els := elements.map wordNat
  match bitReversedDomain.findIdx? (· == z) with
  | some i => to32 (els.getD i 0)
  | none =>
      let denoms := bigintDenoms z
      let inverse := powMod rBls (((prefixProducts rBls denoms 1).getLast?).getD 1) 255 (rBls - 2)
      let inverses := batchInverseMod rBls denoms inverse
      let invWidth := inverses.getLastD 0
      let acc := (els.zip (bitReversedDomain.zip inverses.dropLast)).foldl
        (fun acc term => (acc + term.1 * term.2.1 % rBls * term.2.2) % rBls) 0
      let zPow := powMod rBls z 255 4096
      let factor := (rBls + zPow - 1) % rBls * invWidth % rBls
      to32 (acc * factor % rBls)

theorem bigintPowersFrom_getElem? {root acc count i : Nat} (hi : i < count) (hacc : acc < rBls) :
    ∃ power < rBls, (bigintPowersFrom root acc count)[i]? = some power ∧
      (power : Scalar) = acc * (root : Scalar) ^ i := by
  induction count generalizing acc i with
  | zero => omega
  | succ count ih =>
      cases i with
      | zero => exact ⟨acc, hacc, rfl, by rw [pow_zero, mul_one]⟩
      | succ i =>
          obtain ⟨power, hlt, hget, hcast⟩ := ih (Nat.lt_of_succ_lt_succ hi)
            (Nat.mod_lt (acc * root) rBls_prime.pos)
          refine ⟨power, hlt, hget, ?_⟩
          rw [hcast, natCast_mulMod, pow_succ', mul_assoc]

theorem limbsNat_root_eq :
    limbsNat [0xbfeffffffff00000, 0x80553bda402fffe5, 0xd483339d80809a1d, 0x00073eda753299d7] =
      (rBls - 1) / 4096 := by
  norm_num [limbsNat, rBls]

/-- The generator of the domain, with the exponent of the specification. -/
theorem domainRoot_eq : domainRoot = 7 ^ ((rBls - 1) / 4096) := by
  rw [domainRoot, limbsNat_root_eq]

theorem natCast_bigintRoot :
    ((powMod rBls 7 255 ((rBls - 1) / 4096) : Nat) : Scalar) = domainRoot := by
  rw [natCast_powMod 7 (by norm_num [rBls]), domainRoot_eq]
  rfl

theorem bitReversedDomain_spec {i : Nat} (hi : i < 4096) :
    ∃ point < rBls, bitReversedDomain[i]? = some point ∧
      (point : Scalar) = domainRoot ^ domainOrder i := by
  obtain ⟨power, hlt, hget, hcast⟩ := @bigintPowersFrom_getElem?
    (powMod rBls 7 255 ((rBls - 1) / 4096)) 1 4096 _ (domainOrder_lt hi)
    one_lt_rBls
  refine ⟨power, hlt, ?_, ?_⟩
  · have hrange : (List.range fieldElementsPerBlob)[i]? = some i := List.getElem?_range hi
    rw [bitReversedDomain, List.getElem?_map, hrange, Option.map_some]
    simp only [fieldElementsPerBlob, List.getD_eq_getElem?_getD, hget, Option.getD_some]
  · rw [hcast, natCast_bigintRoot, Nat.cast_one, one_mul]

theorem bitReversedDomain_length : bitReversedDomain.length = 4096 := by
  rw [bitReversedDomain, List.length_map, List.length_range]
  rfl

theorem map_natCast_bitReversedDomain :
    bitReversedDomain.map (Nat.cast : Nat → Scalar) = domain := by
  apply List.ext_getElem?
  intro i
  rw [List.getElem?_map]
  rcases Nat.lt_or_ge i 4096 with hlt | hge
  · obtain ⟨point, _, hget, hcast⟩ := bitReversedDomain_spec hlt
    rw [hget, Option.map_some, hcast, domain_getElem? hlt]
  · rw [List.getElem?_eq_none (bitReversedDomain_length.trans_le hge),
      List.getElem?_eq_none (domain_length.trans_le hge)]
    rfl

theorem bitReversedDomain_lt {point : Nat} (hmem : point ∈ bitReversedDomain) : point < rBls := by
  obtain ⟨i, hi, rfl⟩ := List.mem_iff_getElem.mp hmem
  obtain ⟨point, hlt, hget, _⟩ := bitReversedDomain_spec (bitReversedDomain_length ▸ hi)
  rw [List.getElem?_eq_getElem hi, Option.some.injEq] at hget
  rw [hget]
  exact hlt

/-- A reduced point is found at the same place in both domains. -/
theorem bitReversedDomain_findIdx? {z : Nat} (hz : z < rBls) :
    bitReversedDomain.findIdx? (· == z) = domain.findIdx? (· == (z : Scalar)) := by
  have hmap : ∀ points : List Nat, (∀ point ∈ points, point < rBls) →
      points.findIdx? (· == z) =
        (points.map (Nat.cast : Nat → Scalar)).findIdx? (· == (z : Scalar)) := by
    intro points hlt
    induction points with
    | nil => rfl
    | cons point rest ih =>
        have hsame : (point == z) = ((point : Scalar) == (z : Scalar)) := by
          rw [Bool.eq_iff_iff, beq_iff_eq, beq_iff_eq,
            natCast_inj_of_lt (hlt point List.mem_cons_self) hz]
        rw [List.map_cons, List.findIdx?_cons, List.findIdx?_cons, hsame,
          ih fun later hmem => hlt later (List.mem_cons_of_mem _ hmem)]
  rw [hmap _ fun _ => bitReversedDomain_lt, map_natCast_bitReversedDomain]

/-! ## Off the domain -/

theorem map_natCast_bigintDenoms (z : Nat) :
    (bigintDenoms z).map (Nat.cast : Nat → Scalar) =
      domain.map ((z : Scalar) - ·) ++ [((4096 : Nat) : Scalar)] := by
  have hpoints : (bitReversedDomain.map fun w => (rBls + z - w) % rBls).map
      (Nat.cast : Nat → Scalar) = domain.map ((z : Scalar) - ·) := by
    rw [← map_natCast_bitReversedDomain, List.map_map, List.map_map]
    apply List.map_congr_left
    intro point hmem
    exact natCast_subMod (bitReversedDomain_lt hmem).le
  rw [bigintDenoms, List.map_append, hpoints]
  rfl

/-- The last running product is the product of the denominators. -/
theorem natCast_prefixProducts_last (z : Nat) :
    ((((prefixProducts rBls (bigintDenoms z) 1).getLast?).getD 1 : Nat) : Scalar) =
      (domain.map ((z : Scalar) - ·) ++ [((4096 : Nat) : Scalar)]).prod := by
  have hproducts := map_natCast_prefixProducts (p := rBls) (bigintDenoms z) 1
  rw [map_natCast_bigintDenoms, Nat.cast_one] at hproducts
  have hlast := congrArg List.getLast? hproducts
  rw [List.getLast?_map, List.getLast?_scanl] at hlast
  obtain ⟨last, hget, hcast⟩ := Option.map_eq_some_iff.mp hlast
  rw [hget, Option.getD_some, hcast, List.prod_eq_foldl]

theorem natCast_getLastD (xs : List Nat) :
    ((xs.getLastD 0 : Nat) : Scalar) = (xs.map (Nat.cast : Nat → Scalar)).getLastD 0 := by
  rw [List.getLastD_eq_getLast?, List.getLastD_eq_getLast?, List.getLast?_map]
  cases xs.getLast? with
  | none => exact Nat.cast_zero
  | some last => rfl

/-- A reduced number is the encoding of its class. -/
theorem to32_eq {x : Nat} (hx : x < rBls) : to32 x = .ok (toBe (x : Scalar)) := by
  rw [to32, if_pos (hx.trans (rBls_lt.trans (by norm_num))), toBe, ZMod.val_natCast, Nat.mod_eq_of_lt hx]

section

variable {elements : List Hash} {z : Hash}

/-- Off the domain the hand-reduced sum is the sum in the field. -/
theorem natCast_bigint_sum (hlen : elements.length = fieldElementsPerBlob)
    (hmissing : domain.findIdx? (· == (wordNat z : Scalar)) = none) :
    (((((elements.map wordNat).zip (bitReversedDomain.zip
        (batchInverseMod rBls (bigintDenoms (wordNat z))
          (powMod rBls (((prefixProducts rBls (bigintDenoms (wordNat z)) 1).getLast?).getD 1) 255
            (rBls - 2))).dropLast)).foldl
              (fun acc term => (acc + term.1 * term.2.1 % rBls * term.2.2) % rBls) 0 *
        ((rBls + powMod rBls (wordNat z) 255 4096 - 1) % rBls *
          (batchInverseMod rBls (bigintDenoms (wordNat z))
            (powMod rBls (((prefixProducts rBls (bigintDenoms (wordNat z)) 1).getLast?).getD 1) 255
              (rBls - 2))).getLastD 0 % rBls) % rBls : Nat) : Scalar)) =
      (blobPolynomial (elements.map fun e => (wordNat e : Scalar))).eval (wordNat z : Scalar) := by
  have hels : (elements.map fun e => (wordNat e : Scalar)).length = 4096 := by
    rw [List.length_map]
    exact hlen
  obtain ⟨hnonzero, heval⟩ := eval_off_domain hels hmissing
  have hinverse : ((powMod rBls (((prefixProducts rBls (bigintDenoms (wordNat z)) 1).getLast?).getD 1)
      255 (rBls - 2) : Nat) : Scalar) =
        (domain.map ((wordNat z : Scalar) - ·) ++ [((4096 : Nat) : Scalar)]).prod⁻¹ := by
    rw [natCast_powMod_inverse (by norm_num [rBls]) (by rw [natCast_prefixProducts_last]; exact hnonzero),
      natCast_prefixProducts_last]
  have hinverses := map_natCast_batchInverseMod (p := rBls) (bigintDenoms (wordNat z))
    (powMod rBls (((prefixProducts rBls (bigintDenoms (wordNat z)) 1).getLast?).getD 1) 255 (rBls - 2))
  rw [hinverse, map_natCast_bigintDenoms] at hinverses
  have hterms : ∀ inverses : List Nat, ((elements.map wordNat).zip
      (bitReversedDomain.zip inverses.dropLast)).map (Prod.map (Nat.cast : Nat → Scalar)
        (Prod.map (Nat.cast : Nat → Scalar) (Nat.cast : Nat → Scalar))) =
      (elements.map fun e => (wordNat e : Scalar)).zip
        (domain.zip (inverses.map (Nat.cast : Nat → Scalar)).dropLast) := by
    intro inverses
    rw [← List.zip_map, ← List.zip_map, List.map_map, map_natCast_bitReversedDomain,
      List.map_dropLast]
    rfl
  rw [natCast_mulMod, natCast_foldl_productsMod, natCast_mulMod, natCast_subMod rBls_prime.one_le,
    natCast_getLastD, natCast_powMod _ (by norm_num), hterms, hinverses, ← heval]
  simp only [Nat.cast_zero, Nat.cast_one]
  ring

/-- The cross-check backend evaluates the polynomial too. -/
theorem barycentricEvalBigint_eq (hlen : elements.length = fieldElementsPerBlob)
    (hcanonical : ∀ e ∈ elements, wordNat e < rBls) (hz : wordNat z < rBls) :
    barycentricEvalBigint elements z = .ok (toBe ((blobPolynomial
      (elements.map fun e => (wordNat e : Scalar))).eval (wordNat z : Scalar))) := by
  rw [barycentricEvalBigint, if_neg (not_not_intro hlen), Nat.mod_eq_of_lt hz]
  simp only [bitReversedDomain_findIdx? hz]
  cases hfound : domain.findIdx? (· == (wordNat z : Scalar)) with
  | some i =>
      obtain ⟨hbound, _⟩ := List.findIdx?_eq_some_iff_getElem.mp hfound
      have hlt : i < elements.length := by
        rw [hlen, ← show domain.length = fieldElementsPerBlob from domain_length]
        exact hbound
      have hget : elements[i]? = some elements[i] := List.getElem?_eq_getElem hlt
      have helement := hcanonical elements[i] (List.getElem_mem hlt)
      simp only [eval_on_domain hfound, List.getD_eq_getElem?_getD, List.getElem?_map, hget,
        Option.map_some, Option.getD_some]
      exact to32_eq helement
  | none =>
      have hsum := natCast_bigint_sum hlen hfound
      rw [← hsum]
      exact to32_eq (Nat.mod_lt _ rBls_prime.pos)

end

/-- The polynomial of degree below 4096 whose value at the point of element `i`,
`w^bitrev12(i)` for `w = 7^((r-1)/4096)`, is that element. -/
structure StoredIn (P : Polynomial Scalar) (elements : List Hash) : Prop where
  degree : P.degree < 4096
  values : ∀ i e, elements[i]? = some e →
    P.eval (((7 : Scalar) ^ ((rBls - 1) / 4096)) ^ reverseBits 12 i) = (wordNat e : Scalar)

theorem blobPolynomial_storedIn_iff {elements : List Hash}
    (hlen : elements.length = fieldElementsPerBlob) {P : Polynomial Scalar} :
    StoredIn P elements ↔ P = blobPolynomial (elements.map fun e => (wordNat e : Scalar)) := by
  have hpoints := rootsOfUnity_injOn domainRoot_primitive (fun i => domainOrder_lt) domainOrder_injOn
  have hvalue : ∀ i e, elements[i]? = some e →
      (elements.map fun e => (wordNat e : Scalar)).getD i 0 = (wordNat e : Scalar) := by
    intro i e hget
    rw [List.getD_eq_getElem?_getD, List.getElem?_map, hget, Option.map_some, Option.getD_some]
  rw [blobPolynomial, ← Lagrange.eq_interpolate_iff _ hpoints, card_range]
  constructor
  · rintro ⟨hdegree, hvalues⟩
    refine ⟨hdegree, ?_⟩
    intro i hi
    have hlt : i < elements.length := (mem_range.mp hi).trans_eq hlen.symm
    have hget : elements[i]? = some elements[i] := List.getElem?_eq_getElem hlt
    rw [hvalue i _ hget, domainRoot_eq, domainOrder_eq (mem_range.mp hi)]
    exact hvalues i _ hget
  · rintro ⟨hdegree, hvalues⟩
    refine ⟨hdegree, ?_⟩
    intro i e hget
    obtain ⟨hlt, _⟩ := List.getElem?_eq_some_iff.mp hget
    have hi : i < 4096 := hlt.trans_eq hlen
    have hat := hvalues i (mem_range.mpr hi)
    rw [hvalue i e hget, domainRoot_eq, domainOrder_eq hi] at hat
    exact hat

/-- Both backends return the value at `z` of the one polynomial that the blob stores, and
neither ever inverts zero. -/
theorem barycentric_eval_is_polynomial_evaluation {elements : List Hash} {z : Hash}
    (hlen : elements.length = fieldElementsPerBlob)
    (hcanonical : ∀ e ∈ elements, wordNat e < rBls) (hz : wordNat z < rBls) :
    ∃ P : Polynomial Scalar, StoredIn P elements ∧ (∀ Q, StoredIn Q elements → Q = P) ∧
      barycentricEval elements z = .ok (toBe (P.eval (wordNat z : Scalar))) ∧
      barycentricEvalBigint elements z = .ok (toBe (P.eval (wordNat z : Scalar))) ∧
      (domain.findIdx? (· == (wordNat z : Scalar)) = none →
        ((domain.map ((wordNat z : Scalar) - ·) ++ [((4096 : Nat) : Scalar)]).scanl
          (· * ·) 1).getLast?.getD 1 ≠ 0 ∧
        (prefixProducts rBls (bigintDenoms (wordNat z)) 1).getLast?.getD 1 % rBls ≠ 0) := by
  refine ⟨_, (blobPolynomial_storedIn_iff hlen).mpr rfl,
    fun Q => (blobPolynomial_storedIn_iff hlen).mp, barycentricEval_eq hlen hcanonical hz,
    barycentricEvalBigint_eq hlen hcanonical hz, ?_⟩
  intro hmissing
  have hels : (elements.map fun e => (wordNat e : Scalar)).length = 4096 := by
    rw [List.length_map]
    exact hlen
  obtain ⟨hnonzero, _⟩ := eval_off_domain hels hmissing
  constructor
  · rw [List.getLast?_scanl, Option.getD_some, ← List.prod_eq_foldl]
    exact hnonzero
  · intro hzero
    rw [← Nat.dvd_iff_mod_eq_zero, ← ZMod.natCast_eq_zero_iff, natCast_prefixProducts_last] at hzero
    exact hnonzero hzero

/-- The blob whose elements are the points of the domain themselves. -/
def pointBlob : List Hash := domain.map toBe

theorem wordNat_toBe (s : Scalar) : wordNat (toBe s) = s.val :=
  wordNat_beWord ((ZMod.val_lt s).trans (rBls_lt.trans (by norm_num)))

theorem pointBlob_storedIn : StoredIn Polynomial.X pointBlob where
  degree := by
    rw [Polynomial.degree_X]
    norm_num
  values := by
    intro i e hget
    obtain ⟨point, hpoint, rfl⟩ := Option.map_eq_some_iff.mp (List.getElem?_map.symm.trans hget)
    obtain ⟨hlt, _⟩ := List.getElem?_eq_some_iff.mp hpoint
    have hi : i < 4096 := hlt.trans_eq domain_length
    have hroot := domain_getElem? hi
    rw [hpoint] at hroot
    rw [Polynomial.eval_X, wordNat_toBe, ZMod.natCast_val, ZMod.cast_id, Option.some.inj hroot,
      domainRoot_eq, domainOrder_eq hi]

theorem one_mem_domain : (1 : Scalar) ∈ domain := by
  have hfirst := domain_getElem? (show 0 < 4096 by decide)
  rw [domainOrder_eq (show 0 < 4096 by decide), show reverseBits 12 0 = 0 from rfl, pow_zero] at hfirst
  exact List.mem_of_getElem? hfirst

/-- The points of the domain are roots of unity, and seven is none. -/
theorem seven_not_mem_domain : (7 : Scalar) ∉ domain := by
  intro hmem
  rw [domain_eq] at hmem
  obtain ⟨i, _, hpoint⟩ := List.mem_map.mp hmem
  have hone : (7 : Scalar) ^ 4096 = 1 := by
    rw [← hpoint, ← pow_mul, Nat.mul_comm, pow_mul, domainRoot_primitive.pow_eq_one, one_pow]
  have hvalue := (seven_pow_eq_one (by norm_num)).mp hone
  revert hvalue
  decide +kernel

/-- The blob of the domain's points at seven, off the domain, and at one, on it. -/
theorem barycentric_eval_is_polynomial_evaluation_points :
    (7 : Scalar) ∉ domain ∧ barycentricEval pointBlob (toBe 7) = .ok (toBe 7) ∧
      barycentricEvalBigint pointBlob (toBe 7) = .ok (toBe 7) ∧
      (1 : Scalar) ∈ domain ∧ barycentricEval pointBlob (toBe 1) = .ok (toBe 1) ∧
      barycentricEvalBigint pointBlob (toBe 1) = .ok (toBe 1) := by
  have hlen : pointBlob.length = fieldElementsPerBlob := by
    rw [pointBlob, List.length_map]
    exact domain_length
  have hcanonical : ∀ e ∈ pointBlob, wordNat e < rBls := by
    intro e hmem
    obtain ⟨point, _, rfl⟩ := List.mem_map.mp hmem
    rw [wordNat_toBe]
    exact ZMod.val_lt point
  have hvalue : ∀ z : Scalar, barycentricEval pointBlob (toBe z) = .ok (toBe z) ∧
      barycentricEvalBigint pointBlob (toBe z) = .ok (toBe z) := by
    intro z
    obtain ⟨P, _, hunique, heval, hbigint, _⟩ := barycentric_eval_is_polynomial_evaluation hlen
      hcanonical ((wordNat_toBe z).trans_lt (ZMod.val_lt z))
    rw [← hunique _ pointBlob_storedIn, wordNat_toBe, ZMod.natCast_val, ZMod.cast_id,
      Polynomial.eval_X] at heval hbigint
    exact ⟨heval, hbigint⟩
  exact ⟨seven_not_mem_domain, (hvalue 7).1, (hvalue 7).2, one_mem_domain, (hvalue 1).1,
    (hvalue 1).2⟩

end Blobsitter.Reference
