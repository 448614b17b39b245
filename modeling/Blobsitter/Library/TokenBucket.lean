import Mathlib.Data.List.Basic
import Mathlib.Order.Lattice
import Mathlib.Tactic.Ring

/-!
# Token buckets

A bucket refills at a constant rate up to a cap, and draws take from it.  The refill is
rounded down afresh at every request.  Over any window of time the draws stay below the
cap and one rounded refill of the whole window.
-/

namespace Blobsitter.Library

/-- A rate of tokens per unit of time, and the most a bucket holds. -/
structure BucketRate where
  cap : Nat
  rate : Nat
  unit : Nat

/-- What was left at the last request, and its time. -/
structure Bucket where
  stored : Nat
  last : Nat

namespace BucketRate

variable (r : BucketRate)

/-- Tokens that arrive in a duration. -/
def refill (duration : Nat) : Nat := r.rate * duration / r.unit

/-- Allowance at a time. -/
def level (b : Bucket) (time : Nat) : Nat := min r.cap (b.stored + r.refill (time - b.last))

/-- Two refills, each rounded down, are at most one over both durations. -/
theorem refill_add_le (first second : Nat) :
    r.refill first + r.refill second ≤ r.refill (first + second) := by
  unfold refill
  rw [Nat.mul_add]
  exact Nat.div_add_div_le_add_div

theorem refill_mono {first second : Nat} (hle : first ≤ second) :
    r.refill first ≤ r.refill second :=
  Nat.div_le_div_right (Nat.mul_le_mul_left _ hle)

theorem level_mono (b : Bucket) {first second : Nat} (hle : first ≤ second) :
    r.level b first ≤ r.level b second :=
  min_le_min_left _ (Nat.add_le_add_left (r.refill_mono (Nat.sub_le_sub_right hle _)) _)

/-- A bucket that is settled without a draw allows no less from then on. -/
theorem level_le_settled (b : Bucket) (time later : Nat) :
    r.level b time ≤ r.level ⟨r.level b time, time⟩ later :=
  le_min (min_le_left _ _) (Nat.le_add_right _ _)

end BucketRate

/-- The sum of the draws in `[first, last]`. -/
def drawn (draws : List (Nat × Nat)) (first last : Nat) : Nat :=
  ((draws.filter fun draw => first ≤ draw.1 ∧ draw.1 ≤ last).map Prod.snd).sum

theorem drawn_concat (draws : List (Nat × Nat)) (draw : Nat × Nat) (first last : Nat) :
    drawn (draws ++ [draw]) first last =
      drawn draws first last + if first ≤ draw.1 ∧ draw.1 ≤ last then draw.2 else 0 := by
  unfold drawn
  rw [List.filter_append, List.map_append, List.sum_append]
  by_cases hin : first ≤ draw.1 ∧ draw.1 ≤ last
  · simp [hin]
  · rw [if_neg hin]
    simp [hin]

/-- A window that ends later than all draws counts what one that ends with them counts. -/
theorem drawn_past {draws : List (Nat × Nat)} {last later : Nat} (first : Nat)
    (hpast : ∀ draw ∈ draws, draw.1 ≤ last) (hle : last ≤ later) :
    drawn draws first later = drawn draws first last := by
  unfold drawn
  congr 2
  apply List.filter_congr
  intro draw hmem
  have hdraw := hpast draw hmem
  simp only [decide_eq_decide]
  omega

theorem drawn_eq_zero {draws : List (Nat × Nat)} {last first : Nat} (later : Nat)
    (hpast : ∀ draw ∈ draws, draw.1 ≤ last) (hlt : last < first) : drawn draws first later = 0 := by
  have hnone : (draws.filter fun draw => first ≤ draw.1 ∧ draw.1 ≤ later) = [] := by
    refine List.filter_eq_nil_iff.mpr ?_
    intro draw hmem
    have hdraw := hpast draw hmem
    simp only [decide_eq_true_eq]
    omega
  unfold drawn
  rw [hnone]
  rfl

/-- A bucket after its draws: in every window up to the last request the draws and what
is left stay below the cap and the refill, and so do the draws in every window. -/
structure Metered (r : BucketRate) (b : Bucket) (draws : List (Nat × Nat)) : Prop where
  stored_le : b.stored ≤ r.cap
  past : ∀ draw ∈ draws, draw.1 ≤ b.last
  recent : ∀ first ≤ b.last,
    drawn draws first b.last + b.stored ≤ r.cap + r.refill (b.last - first)
  window : ∀ first last, first ≤ last → drawn draws first last ≤ r.cap + r.refill (last - first)

namespace Metered

variable {r : BucketRate} {b : Bucket} {draws : List (Nat × Nat)} {time : Nat}

/-- A full bucket before any draw. -/
theorem full (r : BucketRate) (time : Nat) : Metered r ⟨r.cap, time⟩ [] := by
  refine ⟨le_rfl, ?_, ?_, fun _ _ _ => Nat.zero_le _⟩
  · intro draw hmem
    cases hmem
  · intro first _
    exact (Nat.zero_add _).le.trans (Nat.le_add_right _ _)

/-- The draws since a time and the level now, before anything is taken. -/
theorem level_le (hmetered : Metered r b draws) (hle : b.last ≤ time) {first : Nat}
    (hfirst : first ≤ time) :
    drawn draws first time + r.level b time ≤ r.cap + r.refill (time - first) := by
  rw [drawn_past first hmetered.past hle]
  rcases Nat.lt_or_ge b.last first with hlater | hearlier
  · rw [drawn_eq_zero _ hmetered.past hlater, Nat.zero_add]
    exact (min_le_left _ _).trans (Nat.le_add_right _ _)
  · have hrecent := hmetered.recent first hearlier
    have hrefill := r.refill_add_le (b.last - first) (time - b.last)
    have hspan : b.last - first + (time - b.last) = time - first := by omega
    have hlevel : r.level b time ≤ b.stored + r.refill (time - b.last) := min_le_right _ _
    rw [hspan] at hrefill
    omega

/-- A request that takes nothing. -/
theorem skip (hmetered : Metered r b draws) (hle : b.last ≤ time) :
    Metered r ⟨r.level b time, time⟩ draws :=
  ⟨min_le_left _ _, fun draw hmem => (hmetered.past draw hmem).trans hle,
    fun _ hfirst => hmetered.level_le hle hfirst, hmetered.window⟩

/-- A request that takes no more than the level. -/
theorem draw (hmetered : Metered r b draws) (hle : b.last ≤ time) {amount : Nat}
    (hallowed : amount ≤ r.level b time) :
    Metered r ⟨r.level b time - amount, time⟩ (draws ++ [(time, amount)]) := by
  have hlevel : ∀ first ≤ time, drawn (draws ++ [(time, amount)]) first time +
      (r.level b time - amount) ≤ r.cap + r.refill (time - first) := by
    intro first hfirst
    have hbefore := hmetered.level_le hle hfirst
    rw [drawn_concat, if_pos ⟨hfirst, le_rfl⟩]
    omega
  have hpast : ∀ draw ∈ draws ++ [(time, amount)], draw.1 ≤ time := by
    intro draw hmem
    rcases List.mem_append.mp hmem with hold | hnew
    · exact (hmetered.past draw hold).trans hle
    · rw [List.mem_singleton.mp hnew]
  refine ⟨(Nat.sub_le _ _).trans (min_le_left _ _), hpast, hlevel, ?_⟩
  intro first last hwindow
  by_cases hin : first ≤ time ∧ time ≤ last
  · have hrecent := hlevel first hin.1
    have hrefill := r.refill_mono (Nat.sub_le_sub_right hin.2 first)
    rw [drawn_past first hpast hin.2]
    omega
  · rw [drawn_concat, if_neg hin, Nat.add_zero]
    exact hmetered.window first last hwindow

end Metered

end Blobsitter.Library
