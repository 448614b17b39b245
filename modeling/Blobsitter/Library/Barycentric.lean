import Mathlib.LinearAlgebra.Lagrange
import Mathlib.RingTheory.Polynomial.Cyclotomic.Basic

/-!
# Evaluating a polynomial from its values on roots of unity

A polynomial of degree below `n` is given by its values on the `n`-th roots of unity,
in any order.  Away from these points one sum over the values evaluates it; its
denominators are inverted together, with a single inversion.
-/

namespace Blobsitter.Library

open Polynomial Finset

universe u

section

variable {F : Type u} [Field F]

/-- One step of the backward pass: the inverse of the last denominator, and of the
product of those before it. -/
def inverseStep (pair : F × F) (done : List F × F) : List F × F :=
  (pair.1 * done.2 :: done.1, done.2 * pair.2)

/-- Inverses from running products, given the inverse of the whole product. -/
def batchInverse (denoms : List F) (inverse : F) : List F :=
  (((denoms.scanl (· * ·) 1).zip denoms).foldr inverseStep ([], inverse)).1

theorem foldr_inverseStep {denoms : List F} {start : F} (hstart : start ≠ 0)
    (hdenoms : ∀ d ∈ denoms, d ≠ 0) :
    ((denoms.scanl (· * ·) start).zip denoms).foldr inverseStep ([], (start * denoms.prod)⁻¹) =
      (denoms.map (·⁻¹), start⁻¹) := by
  induction denoms generalizing start with
  | nil => simp
  | cons d rest ih =>
      have hd := hdenoms d List.mem_cons_self
      have hrest := @ih (start * d) (mul_ne_zero hstart hd)
        fun later hmem => hdenoms later (List.mem_cons_of_mem _ hmem)
      rw [List.scanl_cons, List.prod_cons, ← mul_assoc, List.zip_cons_cons, List.foldr_cons, hrest]
      refine Prod.ext ?_ ?_
      · change start * (start * d)⁻¹ :: rest.map (·⁻¹) = d⁻¹ :: rest.map (·⁻¹)
        rw [mul_inv, mul_inv_cancel_left₀ hstart]
      · change (start * d)⁻¹ * d = start⁻¹
        rw [mul_inv, inv_mul_cancel_right₀ hd]

theorem batchInverse_eq {denoms : List F} (hdenoms : ∀ d ∈ denoms, d ≠ 0) :
    batchInverse denoms denoms.prod⁻¹ = denoms.map (·⁻¹) := by
  have hpass := foldr_inverseStep one_ne_zero hdenoms
  rw [one_mul] at hpass
  rw [batchInverse, hpass]

/-- A sum of products accumulated along three lists of the same length. -/
theorem foldl_zip_products {n : Nat} {values points inverses : List F} (start : F)
    (hvalues : values.length = n) (hpoints : points.length = n) (hinverses : inverses.length = n) :
    (values.zip (points.zip inverses)).foldl
        (fun total term => total + term.1 * term.2.1 * term.2.2) start =
      start + ∑ i ∈ range n, values.getD i 0 * points.getD i 0 * inverses.getD i 0 := by
  induction n generalizing values points inverses start with
  | zero =>
      obtain rfl := List.eq_nil_of_length_eq_zero hvalues
      simp
  | succ n ih =>
      obtain ⟨value, values, rfl⟩ := List.exists_cons_of_length_eq_add_one hvalues
      obtain ⟨point, points, rfl⟩ := List.exists_cons_of_length_eq_add_one hpoints
      obtain ⟨inverse, inverses, rfl⟩ := List.exists_cons_of_length_eq_add_one hinverses
      rw [List.zip_cons_cons, List.zip_cons_cons, List.foldl_cons,
        ih _ (Nat.succ.inj hvalues) (Nat.succ.inj hpoints) (Nat.succ.inj hinverses),
        sum_range_succ']
      simp only [List.getD_cons_succ, List.getD_cons_zero]
      ring

variable {n : Nat} {ω : F} {order : Nat → Nat}

theorem rootsOfUnity_injOn (hω : IsPrimitiveRoot ω n) (hlt : ∀ i < n, order i < n)
    (hinj : Set.InjOn order (range n)) : Set.InjOn (fun i => ω ^ order i) (range n) := by
  intro i hi j hj heq
  have hi' := hlt i (mem_range.mp hi)
  have hj' := hlt j (mem_range.mp hj)
  exact hinj hi hj (hω.pow_inj hi' hj' heq)

/-- The roots of unity in a given order vanish exactly where `z ^ n = 1`. -/
theorem nodal_rootsOfUnity (hpos : 0 < n) (hω : IsPrimitiveRoot ω n)
    (hlt : ∀ i < n, order i < n) (hinj : Set.InjOn order (range n)) :
    Lagrange.nodal (range n) (fun i => ω ^ order i) = X ^ n - 1 := by
  classical
  have hpoints := rootsOfUnity_injOn hω hlt hinj
  have himage : (range n).image (fun i => ω ^ order i) = nthRootsFinset n (1 : F) := by
    refine eq_of_subset_of_card_le ?_ ?_
    · intro point hmem
      obtain ⟨i, _, rfl⟩ := mem_image.mp hmem
      rw [mem_nthRootsFinset hpos, ← pow_mul, mul_comm, pow_mul, hω.pow_eq_one, one_pow]
    · rw [hω.card_nthRootsFinset, card_image_of_injOn hpoints, card_range]
  rw [X_pow_sub_one_eq_prod hpos hω, ← himage, prod_image hpoints, Lagrange.nodal_eq]

theorem nodalWeight_rootsOfUnity (hpos : 0 < n) (hω : IsPrimitiveRoot ω n)
    (hlt : ∀ i < n, order i < n) (hinj : Set.InjOn order (range n)) {i : Nat} (hi : i ∈ range n) :
    Lagrange.nodalWeight (range n) (fun i => ω ^ order i) i = ω ^ order i * (n : F)⁻¹ := by
  classical
  have hroot : (ω ^ order i) ^ n = 1 := by
    rw [← pow_mul, mul_comm, pow_mul, hω.pow_eq_one, one_pow]
  have hpred : (ω ^ order i) ^ (n - 1) = (ω ^ order i)⁻¹ := by
    apply eq_inv_of_mul_eq_one_left
    rw [← pow_succ, Nat.sub_add_cancel hpos, hroot]
  rw [Lagrange.nodalWeight_eq_eval_derivative_nodal hi, nodal_rootsOfUnity hpos hω hlt hinj]
  simp only [derivative_sub, derivative_X_pow, derivative_one, sub_zero, eval_mul, eval_pow, eval_X,
    map_natCast, eval_natCast]
  rw [hpred, mul_inv, inv_inv, mul_comm]

/-- At a root of unity the polynomial takes the given value. -/
theorem eval_interpolate_at_rootOfUnity (hω : IsPrimitiveRoot ω n) (hlt : ∀ i < n, order i < n)
    (hinj : Set.InjOn order (range n)) (values : Nat → F) {i : Nat} (hi : i < n) :
    eval (ω ^ order i) (Lagrange.interpolate (range n) (fun i => ω ^ order i) values) = values i := by
  have hat := Lagrange.eval_interpolate_at_node (i := i) values (rootsOfUnity_injOn hω hlt hinj)
    (mem_range.mpr hi)
  exact hat

/-- Barycentric evaluation away from the roots of unity. -/
theorem eval_interpolate_rootsOfUnity (hpos : 0 < n) (hω : IsPrimitiveRoot ω n)
    (hlt : ∀ i < n, order i < n) (hinj : Set.InjOn order (range n)) (values : Nat → F) {z : F}
    (hz : ∀ i < n, z ≠ ω ^ order i) :
    eval z (Lagrange.interpolate (range n) (fun i => ω ^ order i) values) =
      (∑ i ∈ range n, values i * ω ^ order i * (z - ω ^ order i)⁻¹) * (z ^ n - 1) * (n : F)⁻¹ := by
  rw [Lagrange.eval_interpolate_not_at_node _ fun i hi => hz i (mem_range.mp hi),
    nodal_rootsOfUnity hpos hω hlt hinj]
  have hterm : ∀ i ∈ range n, Lagrange.nodalWeight (range n) (fun i => ω ^ order i) i *
      (z - ω ^ order i)⁻¹ * values i =
        values i * ω ^ order i * (z - ω ^ order i)⁻¹ * (n : F)⁻¹ := by
    intro i hi
    rw [nodalWeight_rootsOfUnity hpos hω hlt hinj hi]
    ring
  rw [sum_congr rfl hterm, ← sum_mul, eval_sub, eval_pow, eval_X, eval_one]
  ring

/-- The sum with one inversion, over the points as a list. -/
theorem eval_interpolate_batch (hpos : 0 < n) (hω : IsPrimitiveRoot ω n)
    (hlt : ∀ i < n, order i < n) (hinj : Set.InjOn order (range n)) {values points : List F} {z : F}
    (hvalues : values.length = n) (hpoints : points = (List.range n).map fun i => ω ^ order i)
    (hwidth : (n : F) ≠ 0) (hz : ∀ i < n, z ≠ ω ^ order i) :
    (points.map (z - ·) ++ [(n : F)]).prod ≠ 0 ∧
      (values.zip (points.zip (batchInverse (points.map (z - ·) ++ [(n : F)])
          (points.map (z - ·) ++ [(n : F)]).prod⁻¹).dropLast)).foldl
            (fun total term => total + term.1 * term.2.1 * term.2.2) 0 * (z ^ n - 1) *
          (batchInverse (points.map (z - ·) ++ [(n : F)])
            (points.map (z - ·) ++ [(n : F)]).prod⁻¹).getLastD 0 =
        eval z (Lagrange.interpolate (range n) (fun i => ω ^ order i) fun i => values.getD i 0) := by
  have hlen : points.length = n := by rw [hpoints, List.length_map, List.length_range]
  have hdenoms : ∀ d ∈ points.map (z - ·) ++ [(n : F)], d ≠ 0 := by
    intro d hmem
    rcases List.mem_append.mp hmem with hpoint | hlast
    · obtain ⟨point, hin, rfl⟩ := List.mem_map.mp hpoint
      rw [hpoints] at hin
      obtain ⟨i, hi, rfl⟩ := List.mem_map.mp hin
      exact sub_ne_zero_of_ne (hz i (List.mem_range.mp hi))
    · rw [List.mem_singleton.mp hlast]
      exact hwidth
  have hinverses : batchInverse (points.map (z - ·) ++ [(n : F)])
      (points.map (z - ·) ++ [(n : F)]).prod⁻¹ =
        points.map (fun point => (z - point)⁻¹) ++ [(n : F)⁻¹] := by
    rw [batchInverse_eq hdenoms, List.map_append, List.map_map]
    rfl
  refine ⟨List.prod_ne_zero fun hzero => hdenoms 0 hzero rfl, ?_⟩
  rw [hinverses, List.dropLast_concat, List.getLastD_concat,
    foldl_zip_products 0 hvalues hlen (by rw [List.length_map, hlen]), zero_add,
    eval_interpolate_rootsOfUnity hpos hω hlt hinj _ hz]
  congr 2
  refine sum_congr rfl fun i hi => ?_
  have hpoint : points[i]? = some (ω ^ order i) := by
    rw [hpoints, List.getElem?_map, List.getElem?_range (mem_range.mp hi), Option.map_some]
  have hinverse : (points.map fun point => (z - point)⁻¹)[i]? = some (z - ω ^ order i)⁻¹ := by
    rw [List.getElem?_map, hpoint, Option.map_some]
  simp only [List.getD_eq_getElem?_getD, hpoint, hinverse, Option.getD_some]

end

end Blobsitter.Library
