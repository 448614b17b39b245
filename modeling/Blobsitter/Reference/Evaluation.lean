import Blobsitter.Library.Barycentric
import Blobsitter.Reference.Blob
import Blobsitter.Reference.Scalar

/-!
# Evaluation of a blob

A blob stores a polynomial by its values on the 4096th roots of unity, in bit-reversed
order.  The barycentric evaluation, with its one inversion, is the evaluation of that
polynomial, on the domain and off it.
-/

namespace Blobsitter.Reference

open Library Finset Polynomial

/-- `Scalar::invert` and the `expect` on its result. -/
def invertScalar (s : Scalar) : Except Fault Scalar :=
  if s = 0 then .error (.panic "nonzero: z is off-domain and the width is nonzero") else .ok s⁻¹

def barycentricEval (elements : List Hash) (z : Hash) : Except Fault Hash := do
  if elements.length ≠ fieldElementsPerBlob then
    throw (.panic "assertion failed: elements.len() == FIELD_ELEMENTS_PER_BLOB")
  let z ← fromBe z
  let els ← elements.mapM fromBe
  -- on the domain the evaluation is stored directly
  match domain.findIdx? (· == z) with
  | some i => return toBe (els.getD i 0)
  | none =>
      let denoms := domain.map (z - ·) ++ [((4096 : Nat) : Scalar)]
      let inverse ← invertScalar (((denoms.scanl (· * ·) 1).getLast?).getD 1)
      let inverses := batchInverse denoms inverse
      let invWidth := inverses.getLastD 0
      let sum := (els.zip (domain.zip inverses.dropLast)).foldl
        (fun total term => total + term.1 * term.2.1 * term.2.2) 0
      return toBe (sum * (z ^ 4096 - 1) * invWidth)

/-- The polynomial with these values on the domain. -/
noncomputable def blobPolynomial (els : List Scalar) : Polynomial Scalar :=
  Lagrange.interpolate (range 4096) (fun i => domainRoot ^ domainOrder i) fun i => els.getD i 0

theorem domain_length : domain.length = 4096 := by
  rw [domain, List.length_map, List.length_range]

theorem domain_getElem? {i : Nat} (hi : i < 4096) :
    domain[i]? = some (domainRoot ^ domainOrder i) := by
  rw [domain_eq, List.getElem?_map, List.getElem?_range hi, Option.map_some]

theorem four_thousand_ne_zero : ((4096 : Nat) : Scalar) ≠ 0 := by
  rw [Ne, ZMod.natCast_eq_zero_iff]
  exact Nat.not_dvd_of_pos_of_lt (by decide) (by norm_num [rBls])

/-- On the domain the polynomial takes the stored value. -/
theorem eval_on_domain {els : List Scalar} {z : Scalar} {i : Nat}
    (hfound : domain.findIdx? (· == z) = some i) : (blobPolynomial els).eval z = els.getD i 0 := by
  obtain ⟨hbound, hz, _⟩ := List.findIdx?_eq_some_iff_getElem.mp hfound
  have hlt : i < 4096 := by
    rw [← domain_length]
    exact hbound
  have hpoint := domain_getElem? hlt
  rw [List.getElem?_eq_getElem hbound, Option.some.injEq] at hpoint
  rw [hpoint, beq_iff_eq] at hz
  rw [← hz]
  exact eval_interpolate_at_rootOfUnity domainRoot_primitive (fun i => domainOrder_lt)
    domainOrder_injOn (fun i => els.getD i 0) hlt

/-- Off the domain one inversion and one sum evaluate the polynomial. -/
theorem eval_off_domain {els : List Scalar} {z : Scalar} (hels : els.length = 4096)
    (hmissing : domain.findIdx? (· == z) = none) :
    (domain.map (z - ·) ++ [((4096 : Nat) : Scalar)]).prod ≠ 0 ∧
      (els.zip (domain.zip (batchInverse (domain.map (z - ·) ++ [((4096 : Nat) : Scalar)])
          (domain.map (z - ·) ++ [((4096 : Nat) : Scalar)]).prod⁻¹).dropLast)).foldl
            (fun total term => total + term.1 * term.2.1 * term.2.2) 0 * (z ^ 4096 - 1) *
          (batchInverse (domain.map (z - ·) ++ [((4096 : Nat) : Scalar)])
            (domain.map (z - ·) ++ [((4096 : Nat) : Scalar)]).prod⁻¹).getLastD 0 =
        (blobPolynomial els).eval z := by
  have hoff : ∀ i < 4096, z ≠ domainRoot ^ domainOrder i := by
    intro i hi heq
    have hmem := List.mem_of_getElem? (domain_getElem? hi)
    have hno := List.findIdx?_eq_none_iff.mp hmissing _ hmem
    rw [← heq, beq_self_eq_true] at hno
    cases hno
  exact eval_interpolate_batch (by decide) domainRoot_primitive (fun i => domainOrder_lt)
    domainOrder_injOn hels domain_eq four_thousand_ne_zero hoff

/-- The evaluation of a canonical blob is that of its polynomial. -/
theorem barycentricEval_eq {elements : List Hash} {z : Hash}
    (hlen : elements.length = fieldElementsPerBlob)
    (hcanonical : ∀ e ∈ elements, wordNat e < rBls) (hz : wordNat z < rBls) :
    barycentricEval elements z = .ok (toBe ((blobPolynomial
      (elements.map fun e => (wordNat e : Scalar))).eval (wordNat z : Scalar))) := by
  have hels : (elements.map fun e => (wordNat e : Scalar)).length = 4096 := by
    rw [List.length_map]
    exact hlen
  have hmap : elements.mapM fromBe = .ok (elements.map fun e => (wordNat e : Scalar)) :=
    mapM_eq_ok_map fun e hmem => if_pos (hcanonical e hmem)
  have hpoint : fromBe z = .ok (wordNat z : Scalar) := if_pos hz
  rw [barycentricEval, if_neg (not_not_intro hlen), hpoint, hmap]
  simp only [ok_bind]
  cases hfound : domain.findIdx? (· == (wordNat z : Scalar)) with
  | some i =>
      simp only [eval_on_domain hfound]
      rfl
  | none =>
      obtain ⟨hnonzero, heval⟩ := eval_off_domain hels hfound
      have hlast : ∀ denoms : List Scalar, (denoms.scanl (· * ·) 1).getLast?.getD 1 = denoms.prod := by
        intro denoms
        rw [List.getLast?_scanl, Option.getD_some, List.prod_eq_foldl]
      simp only [hlast, invertScalar, if_neg hnonzero, ok_bind, heval]
      rfl

end Blobsitter.Reference
