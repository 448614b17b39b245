import Mathlib.Data.List.Basic
import Mathlib.Order.Nat

/-!
# Consecutive spans

Spans of positions that follow one another: none is empty, and between two bounds every
position lies in exactly one of them.
-/

namespace Blobsitter.Library

/-- The positions from the first to the last, both included. -/
structure Span where
  first : Nat
  last : Nat
  deriving DecidableEq, Repr

def Span.Holds (span : Span) (position : Nat) : Prop :=
  span.first ≤ position ∧ position ≤ span.last

/-- The spans lead from one position to another; each begins behind the one before. -/
inductive Leads : Nat → List Span → Nat → Prop where
  | here (position : Nat) : Leads position [] position
  | past {position last stop : Nat} {spans : List Span} (hlt : position < last)
      (hrest : Leads last spans stop) : Leads position (⟨position + 1, last⟩ :: spans) stop

namespace Leads

variable {start middle stop position : Nat} {spans more : List Span}

theorem append (hfirst : Leads start spans middle) (hmore : Leads middle more stop) :
    Leads start (spans ++ more) stop := by
  induction hfirst with
  | here => exact hmore
  | past hlt _ ih => exact .past hlt (ih hmore)

/-- Every span moves on by at least one position. -/
theorem length_le (hleads : Leads start spans stop) : start + spans.length ≤ stop := by
  induction hleads with
  | here => exact le_rfl
  | past hlt _ ih =>
      rw [List.length_cons]
      omega

theorem le (hleads : Leads start spans stop) : start ≤ stop :=
  (Nat.le_add_right _ _).trans hleads.length_le

/-- A span on the way lies between the bounds and is not empty. -/
theorem bounds (hleads : Leads start spans stop) {span : Span} (hmem : span ∈ spans) :
    start < span.first ∧ span.first ≤ span.last ∧ span.last ≤ stop := by
  induction hleads with
  | here => cases hmem
  | past hlt hrest ih =>
      rcases List.mem_cons.mp hmem with rfl | hmem
      · exact ⟨Nat.lt_succ_self _, hlt, hrest.le⟩
      · obtain ⟨hfirst, hnonempty, hlast⟩ := ih hmem
        exact ⟨hlt.trans hfirst, hnonempty, hlast⟩

/-- No gap and no overlap. -/
theorem holds_once (hleads : Leads start spans stop) (hlow : start < position)
    (hhigh : position ≤ stop) :
    ∃! i : Nat, ∃ span, spans[i]? = some span ∧ span.Holds position := by
  induction hleads with
  | here => omega
  | @past start last stop spans hlt hrest ih =>
      rcases Nat.lt_or_ge last position with hlater | hfirst
      · obtain ⟨i, ⟨span, hspan, hholds⟩, hunique⟩ := ih hlater hhigh
        refine ⟨i + 1, ⟨span, hspan, hholds⟩, ?_⟩
        rintro j ⟨other, hother, hin⟩
        cases j with
        | zero =>
            obtain rfl := Option.some.inj hother
            exact absurd hin.2 (Nat.not_le_of_lt hlater)
        | succ j => rw [hunique j ⟨other, hother, hin⟩]
      · refine ⟨0, ⟨_, rfl, hlow, hfirst⟩, ?_⟩
        rintro j ⟨other, hother, hin⟩
        cases j with
        | zero => rfl
        | succ j =>
            have hbehind := (hrest.bounds (List.mem_of_getElem? hother)).1
            exact absurd (hbehind.trans_le hin.1) (Nat.not_lt_of_ge hfirst)

end Leads

end Blobsitter.Library
