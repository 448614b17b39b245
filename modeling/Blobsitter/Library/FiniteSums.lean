import Mathlib.Algebra.BigOperators.Ring.Finset
import Mathlib.Algebra.Order.BigOperators.Group.Finset
import Mathlib.Data.Fintype.Basic
import Blobsitter.Library.ByteString

/-!
# Sums over keyed records

Books over records that are changed one key at a time: how a sum and a count move
when one entry of the underlying function is replaced, and when one key is added.
-/

namespace Blobsitter.Library

/-- Words are numbers below `256 ^ width`. -/
def wordEquiv (width : Nat) : Word width ≃ Fin (256 ^ width) where
  toFun word := ⟨wordNat word, wordNat_lt word⟩
  invFun n := beWord width n.val
  left_inv := beWord_wordNat
  right_inv n := Fin.ext (wordNat_beWord n.isLt)

instance (width : Nat) : Fintype (Word width) :=
  Fintype.ofEquiv (Fin (256 ^ width)) (wordEquiv width).symm

section

variable {ι : Type} [DecidableEq ι]

/-- Replacing one entry moves a sum by the difference of the entries. -/
theorem sum_update_add (s : Finset ι) (f : ι → Nat) {key : ι} (hkey : key ∈ s) (value : Nat) :
    ∑ i ∈ s, Function.update f key value i + f key = ∑ i ∈ s, f i + value := by
  rw [Finset.sum_update_of_mem hkey, ← Finset.add_sum_erase s f hkey, Finset.sdiff_singleton_eq_erase]
  ring

end

/-- Total of a weight over the records with keys below a bound. -/
def recordSum {α : Type} (weight : α → Nat) (bound : Nat) (records : Nat → α) : Nat :=
  ∑ key ∈ Finset.range bound, weight (records key)

section

variable {α : Type} (weight : α → Nat)

theorem recordSum_update (bound : Nat) (records : Nat → α) {key : Nat} (hkey : key < bound)
    (record : α) :
    recordSum weight bound (Function.update records key record) + weight (records key) =
      recordSum weight bound records + weight record := by
  have hcomp : (fun k => weight (Function.update records key record k)) =
      Function.update (fun k => weight (records k)) key (weight record) := by
    funext k
    by_cases hk : k = key
    · subst hk
      rw [Function.update_self, Function.update_self]
    · rw [Function.update_of_ne hk, Function.update_of_ne hk]
  unfold recordSum
  rw [hcomp]
  exact sum_update_add _ _ (Finset.mem_range.mpr hkey) _

/-- Writing the record behind the bound and moving the bound over it adds its weight. -/
theorem recordSum_push (bound : Nat) (records : Nat → α) (record : α) :
    recordSum weight (bound + 1) (Function.update records bound record) =
      recordSum weight bound records + weight record := by
  unfold recordSum
  rw [Finset.sum_range_succ, Function.update_self]
  congr 1
  apply Finset.sum_congr rfl
  intro k hk
  rw [Function.update_of_ne (Nat.ne_of_lt (Finset.mem_range.mp hk))]

/-- An update that keeps the weight keeps the total. -/
theorem recordSum_update_same (bound : Nat) (records : Nat → α) {key : Nat} {record : α}
    (hweight : weight record = weight (records key)) :
    recordSum weight bound (Function.update records key record) =
      recordSum weight bound records := by
  apply Finset.sum_congr rfl
  intro k _
  by_cases hk : k = key
  · subst hk
    rw [Function.update_self, hweight]
  · rw [Function.update_of_ne hk]

theorem le_recordSum (bound : Nat) (records : Nat → α) {key : Nat} (hkey : key < bound) :
    weight (records key) ≤ recordSum weight bound records := by
  unfold recordSum
  exact Finset.single_le_sum (f := fun k => weight (records k)) (fun _ _ => Nat.zero_le _)
    (Finset.mem_range.mpr hkey)

end

end Blobsitter.Library
