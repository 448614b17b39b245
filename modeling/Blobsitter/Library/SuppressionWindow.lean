import Mathlib.Data.List.Induction
import Mathlib.Data.Option.Basic
import Mathlib.Logic.Function.Basic
import Mathlib.Order.Nat

/-!
# Suppression windows

Items arrive one after another, each with a key.  An item passes unless one with its key
passed less than a window ago; only the last passage of each key is remembered, and no
longer than it matters.
-/

namespace Blobsitter.Library

/-- The last passage of each key. -/
abbrev Seen (κ : Type) := κ → Option Nat

section

variable {α κ : Type} (window : Nat) (key : α → κ)

/-- Whether a key passes now. -/
def Seen.passes (seen : Seen κ) (k : κ) (now : Nat) : Bool :=
  match seen k with
  | some last => decide (window ≤ now - last)
  | none => true

/-- Nothing has passed yet. -/
def Seen.none : Seen κ := fun _ => Option.none

/-- Times do not decrease. -/
def InOrder (items : List (Nat × α)) : Prop := items.Pairwise fun first second => first.1 ≤ second.1

variable [DecidableEq κ]

/-- A key has passed; what lies a window back is forgotten. -/
def Seen.record (seen : Seen κ) (k : κ) (now : Nat) : Seen κ := fun other =>
  (Function.update seen k (some now) other).filter fun last => now - last < window

/-- One item: the memory after it, and the item if it passes. -/
def Seen.step (seen : Seen κ) (item : Nat × α) : Seen κ × List (Nat × α) :=
  if seen.passes window (key item.2) item.1 then
    (seen.record window (key item.2) item.1, [item])
  else (seen, [])

/-- The memory after the items. -/
def Seen.after (seen : Seen κ) : List (Nat × α) → Seen κ
  | [] => seen
  | item :: rest => Seen.after (seen.step window key item).1 rest

/-- The items that pass. -/
def Seen.passed (seen : Seen κ) : List (Nat × α) → List (Nat × α)
  | [] => []
  | item :: rest => (seen.step window key item).2 ++ Seen.passed (seen.step window key item).1 rest

end

namespace Seen

section

variable {α κ : Type} {window : Nat} {key : α → κ} {seen : Seen κ}

/-- The memory is that of a history up to `now`: what it holds has passed, and a passage
that it does not hold is out of date or was followed by another. -/
structure Recalls (window : Nat) (key : α → κ) (seen : Seen κ) (history : List (Nat × α))
    (now : Nat) : Prop where
  past : ∀ item ∈ history, item.1 ≤ now
  held : ∀ k last, seen k = some last → last ≤ now ∧ ∃ item ∈ history, key item.2 = k ∧ item.1 = last
  recent : ∀ item ∈ history, now - item.1 < window →
    ∃ last, seen (key item.2) = some last ∧ item.1 ≤ last

theorem none_recalls (now : Nat) : (Seen.none : Seen κ).Recalls window key [] now := by
  constructor
  · intro item hmem
    cases hmem
  · intro k last hlast
    cases hlast
  · intro item hmem
    cases hmem

theorem Recalls.mono {history : List (Nat × α)} {before now : Nat}
    (hrecalls : seen.Recalls window key history before) (hle : before ≤ now) :
    seen.Recalls window key history now := by
  obtain ⟨hpast, hheld, hrecent⟩ := hrecalls
  refine ⟨fun item hmem => (hpast item hmem).trans hle, fun k last hlast => ?_,
    fun item hmem hnear => ?_⟩
  · obtain ⟨hbefore, hold⟩ := hheld k last hlast
    exact ⟨hbefore.trans hle, hold⟩
  · have hbefore := hpast item hmem
    exact hrecent item hmem (by omega)

/-- A key passes exactly when nothing with it has passed within the window. -/
theorem Recalls.passes_iff {history : List (Nat × α)} {before now : Nat}
    (hrecalls : seen.Recalls window key history before) (hle : before ≤ now) (k : κ) :
    seen.passes window k now = true ↔
      ∀ item ∈ history, key item.2 = k → window ≤ now - item.1 := by
  unfold Seen.passes
  constructor
  · intro hpasses item hmem hkey
    by_contra hnear
    obtain ⟨last, hlast, hlater⟩ := hrecalls.recent item hmem (by omega)
    rw [hkey] at hlast
    rw [hlast] at hpasses
    have hfar := of_decide_eq_true hpasses
    omega
  · intro hfar
    cases hlast : seen k with
    | none => rfl
    | some last =>
        obtain ⟨_, item, hmem, hkey, rfl⟩ := hrecalls.held k last hlast
        exact decide_eq_true (hfar item hmem hkey)

variable [DecidableEq κ]

theorem passed_append (first second : List (Nat × α)) :
    seen.passed window key (first ++ second) =
      seen.passed window key first ++ (seen.after window key first).passed window key second := by
  induction first generalizing seen with
  | nil => rfl
  | cons item rest ih =>
      rw [List.cons_append, Seen.passed, ih, ← List.append_assoc]
      rfl

theorem passed_sublist (items : List (Nat × α)) : (seen.passed window key items).Sublist items := by
  induction items generalizing seen with
  | nil => exact List.Sublist.refl _
  | cons item rest ih =>
      rw [Seen.passed, Seen.step]
      split
      · exact ih.cons_cons item
      · exact ih.cons item

/-- One item keeps memory and history together. -/
theorem Recalls.step {history : List (Nat × α)} {before : Nat}
    (hrecalls : seen.Recalls window key history before) {item : Nat × α} (hle : before ≤ item.1) :
    (seen.step window key item).1.Recalls window key
      (history ++ (seen.step window key item).2) item.1 := by
  have ⟨hpast, hheld, hrecent⟩ := hrecalls
  have hpast' : ∀ old ∈ history, old.1 ≤ item.1 := fun old hmem => (hpast old hmem).trans hle
  unfold Seen.step
  split
  · constructor
    · intro old hmem
      rcases List.mem_append.mp hmem with hold | hnew
      · exact hpast' old hold
      · rw [List.mem_singleton.mp hnew]
    · intro k last hlast
      obtain ⟨hvalue, hnear⟩ := Option.filter_eq_some_iff.mp hlast
      by_cases hk : k = key item.2
      · subst hk
        rw [Function.update_self] at hvalue
        obtain rfl := Option.some.inj hvalue
        exact ⟨le_rfl, item, List.mem_append_right _ List.mem_cons_self, rfl, rfl⟩
      · rw [Function.update_of_ne hk] at hvalue
        obtain ⟨hlast, old, hmem, hkey, htime⟩ := hheld k last hvalue
        exact ⟨hlast.trans hle, old, List.mem_append_left _ hmem, hkey, htime⟩
    · intro old hmem hnear
      rcases List.mem_append.mp hmem with hold | hnew
      · by_cases hk : key old.2 = key item.2
        · refine ⟨item.1, Option.filter_eq_some_iff.mpr ⟨?_, ?_⟩, hpast' old hold⟩
          · rw [hk, Function.update_self]
          · rw [Nat.sub_self]
            exact decide_eq_true (Nat.zero_lt_of_lt hnear)
        · have hbefore := hpast old hold
          obtain ⟨last, hlast, hlater⟩ := hrecent old hold (by omega)
          obtain ⟨hlast', _⟩ := hheld _ last hlast
          refine ⟨last, Option.filter_eq_some_iff.mpr ⟨?_, ?_⟩, hlater⟩
          · rw [Function.update_of_ne hk]
            exact hlast
          · exact decide_eq_true (by omega)
      · obtain rfl := List.mem_singleton.mp hnew
        refine ⟨old.1, Option.filter_eq_some_iff.mpr ⟨Function.update_self _ _ _, ?_⟩, le_rfl⟩
        exact decide_eq_true hnear
  · rw [List.append_nil]
    exact hrecalls.mono hle

/-! ## Runs -/

theorem Recalls.run {history items : List (Nat × α)} {before now : Nat}
    (hrecalls : seen.Recalls window key history before) (horder : InOrder items)
    (hafter : ∀ item ∈ items, before ≤ item.1) (hbefore : ∀ item ∈ items, item.1 ≤ now)
    (hle : before ≤ now) :
    (seen.after window key items).Recalls window key (history ++ seen.passed window key items)
      now := by
  induction items generalizing seen history before with
  | nil =>
      rw [Seen.passed, List.append_nil]
      exact hrecalls.mono hle
  | cons item rest ih =>
      have hfirst := hrecalls.step (hafter item List.mem_cons_self)
      have hrest := ih hfirst horder.of_cons
        (fun later hmem => List.rel_of_pairwise_cons horder hmem)
        (fun later hmem => hbefore later (List.mem_cons_of_mem item hmem))
        (hbefore item List.mem_cons_self)
      rw [List.append_assoc] at hrest
      exact hrest

/-- The last item passes exactly when nothing with its key has passed within the window. -/
theorem passed_concat {items : List (Nat × α)} {item : Nat × α} (horder : InOrder (items ++ [item])) :
    Seen.none.passed window key (items ++ [item]) = Seen.none.passed window key items ++
      if ∀ old ∈ Seen.none.passed window key items, key old.2 = key item.2 →
        window ≤ item.1 - old.1 then [item] else [] := by
  obtain ⟨hitems, _, hlast⟩ := List.pairwise_append.mp horder
  have hrecalls := (@none_recalls α κ window key 0).run hitems
    (fun _ _ => Nat.zero_le _) (fun old hmem => hlast old hmem item List.mem_cons_self)
    (Nat.zero_le item.1)
  rw [List.nil_append] at hrecalls
  have hpasses := hrecalls.passes_iff le_rfl (key item.2)
  rw [passed_append, Seen.passed, Seen.passed, List.append_nil, Seen.step]
  by_cases hfar : ∀ old ∈ Seen.none.passed window key items, key old.2 = key item.2 →
      window ≤ item.1 - old.1
  · rw [if_pos hfar, if_pos (hpasses.mpr hfar)]
  · rw [if_neg hfar, if_neg fun hyes => hfar (hpasses.mp hyes)]

/-- Two passages of one key are a window apart. -/
theorem passed_spaced {items : List (Nat × α)} (horder : InOrder items) :
    (Seen.none.passed window key items).Pairwise fun first second =>
      key first.2 = key second.2 → window ≤ second.1 - first.1 := by
  induction items using List.reverseRecOn with
  | nil => exact List.Pairwise.nil
  | append_singleton items item ih =>
      rw [passed_concat horder]
      refine List.pairwise_append.mpr ⟨ih (List.pairwise_append.mp horder).1, ?_, ?_⟩
      · split
        · exact List.pairwise_singleton _ _
        · exact List.Pairwise.nil
      · intro old hold new hnew hkey
        split at hnew
        · rename_i hfar
          rw [List.mem_singleton.mp hnew] at hkey ⊢
          exact hfar old hold hkey
        · cases hnew

/-- Every item passes itself or comes less than a window after one of its key that passed. -/
theorem passed_covers {items : List (Nat × α)} (horder : InOrder items) {item : Nat × α}
    (hmem : item ∈ items) :
    item ∈ Seen.none.passed window key items ∨
      ∃ old ∈ Seen.none.passed window key items, key old.2 = key item.2 ∧ old.1 ≤ item.1 ∧
        item.1 < old.1 + window := by
  induction items using List.reverseRecOn with
  | nil => cases hmem
  | append_singleton items last ih =>
      obtain ⟨hitems, _, hlast⟩ := List.pairwise_append.mp horder
      rw [passed_concat horder]
      rcases List.mem_append.mp hmem with hbefore | hnow
      · rcases ih hitems hbefore with hpassed | ⟨old, hold, hrest⟩
        · exact Or.inl (List.mem_append_left _ hpassed)
        · exact Or.inr ⟨old, List.mem_append_left _ hold, hrest⟩
      · obtain rfl := List.mem_singleton.mp hnow
        split
        · exact Or.inl (List.mem_append_right _ List.mem_cons_self)
        · rename_i hnear
          push Not at hnear
          obtain ⟨old, hold, hkey, hclose⟩ := hnear
          have hearlier := hlast old ((passed_sublist items).subset hold) item List.mem_cons_self
          exact Or.inr ⟨old, List.mem_append_left _ hold, hkey, hearlier, by omega⟩

/-- A class of keys whose items are a window apart passes undiminished. -/
theorem passed_filter {items : List (Nat × α)} (horder : InOrder items) (isClass : κ → Bool)
    (hspaced : (items.filter fun item => isClass (key item.2)).Pairwise fun first second =>
      key first.2 = key second.2 → window ≤ second.1 - first.1) :
    (Seen.none.passed window key items).filter (fun item => isClass (key item.2)) =
      items.filter fun item => isClass (key item.2) := by
  induction items using List.reverseRecOn with
  | nil => rfl
  | append_singleton items item ih =>
      rw [List.filter_append] at hspaced
      obtain ⟨hbefore, _, hlast⟩ := List.pairwise_append.mp hspaced
      rw [passed_concat horder, List.filter_append, List.filter_append,
        ih (List.pairwise_append.mp horder).1 hbefore]
      refine congrArg _ ?_
      cases hclass : isClass (key item.2) with
      | false =>
          split
          · rfl
          · simp [hclass]
      | true =>
          rw [if_pos]
          intro old hold hkey
          have holdClass : isClass (key old.2) = true := by rw [hkey, hclass]
          exact hlast old (List.mem_filter.mpr ⟨(passed_sublist items).subset hold, holdClass⟩) item
            (List.mem_filter.mpr ⟨List.mem_cons_self, hclass⟩) hkey

end

end Seen

end Blobsitter.Library
