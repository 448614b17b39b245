import Mathlib.Data.List.Forall2

/-!
# Computations that may fail

A sequence succeeds exactly when each of its steps does.
-/

namespace Blobsitter.Library

section

variable {ε α β : Type}

theorem bind_eq_ok {x : Except ε α} {f : α → Except ε β} {b : β} :
    (x >>= f) = .ok b ↔ ∃ a, x = .ok a ∧ f a = .ok b := by
  cases x with
  | error e => simp [bind, Except.bind]
  | ok a => simp [bind, Except.bind]

theorem bind_eq_error {x : Except ε α} {f : α → Except ε β} {e : ε} :
    (x >>= f) = .error e ↔ x = .error e ∨ ∃ a, x = .ok a ∧ f a = .error e := by
  cases x with
  | error e => simp [bind, Except.bind]
  | ok a => simp [bind, Except.bind]

theorem pure_eq_ok {a b : α} : (pure a : Except ε α) = .ok b ↔ a = b := by
  simp [pure, Except.pure]

theorem ok_bind (a : α) (f : α → Except ε β) : (Except.ok a >>= f) = f a := rfl

theorem mapError_eq_ok {ε' : Type} {f : ε → ε'} {x : Except ε α} {a : α} :
    x.mapError f = .ok a ↔ x = .ok a := by
  cases x with
  | error e => simp [Except.mapError]
  | ok b => simp [Except.mapError]

theorem mapError_eq_error {ε' : Type} {f : ε → ε'} {x : Except ε α} {e : ε'} :
    x.mapError f = .error e ↔ ∃ cause, x = .error cause ∧ f cause = e := by
  cases x with
  | error cause => simp [Except.mapError]
  | ok b => simp [Except.mapError]

/-- A step that succeeds on every element succeeds on the list. -/
theorem mapM_eq_ok_map {f : α → Except ε β} {g : α → β} {xs : List α}
    (hok : ∀ x ∈ xs, f x = .ok (g x)) : xs.mapM f = .ok (xs.map g) := by
  induction xs with
  | nil => rfl
  | cons x rest ih =>
      have hrest := ih fun later hmem => hok later (List.mem_cons_of_mem _ hmem)
      rw [List.mapM_cons, hrest, hok x List.mem_cons_self, List.map_cons, ok_bind, ok_bind]
      rfl

theorem mapM_eq_ok_of_forall₂ {f : α → Except ε β} {xs : List α} {ys : List β}
    (hall : List.Forall₂ (fun x y => f x = .ok y) xs ys) : xs.mapM f = .ok ys := by
  induction hall with
  | nil => rfl
  | cons hfirst _ ih =>
      rw [List.mapM_cons, hfirst, ih, ok_bind, ok_bind]
      rfl

/-- A list of successful steps has one result for each element. -/
theorem mapM_eq_ok {f : α → Except ε β} {xs : List α} {ys : List β} (hok : xs.mapM f = .ok ys) :
    ys.length = xs.length ∧ ∀ (i : Nat) x, xs[i]? = some x → ∃ y, ys[i]? = some y ∧ f x = .ok y := by
  induction xs generalizing ys with
  | nil =>
      cases hok
      refine ⟨rfl, ?_⟩
      intro i x hx
      cases hx
  | cons first rest ih =>
      simp only [List.mapM_cons, bind_eq_ok, pure_eq_ok] at hok
      obtain ⟨y, hy, others, hothers, rfl⟩ := hok
      obtain ⟨hlen, hall⟩ := ih hothers
      refine ⟨by rw [List.length_cons, List.length_cons, hlen], ?_⟩
      intro i x hx
      cases i with
      | zero =>
          obtain rfl := Option.some.inj hx
          exact ⟨y, rfl, hy⟩
      | succ i => exact hall i x hx

theorem forall₂_of_mapM_eq_ok {f : α → Except ε β} {xs : List α} {ys : List β}
    (hok : xs.mapM f = .ok ys) : List.Forall₂ (fun x y => f x = .ok y) xs ys := by
  induction xs generalizing ys with
  | nil =>
      cases hok
      exact .nil
  | cons first rest ih =>
      simp only [List.mapM_cons, bind_eq_ok, pure_eq_ok] at hok
      obtain ⟨y, hy, others, hothers, rfl⟩ := hok
      exact .cons hy (ih hothers)

/-- A list of steps fails at one of its elements. -/
theorem mapM_eq_error {f : α → Except ε β} {xs : List α} {e : ε} (herror : xs.mapM f = .error e) :
    ∃ x ∈ xs, f x = .error e := by
  induction xs with
  | nil => cases herror
  | cons first rest ih =>
      rw [List.mapM_cons] at herror
      rcases bind_eq_error.mp herror with hfirst | ⟨_, _, herror⟩
      · exact ⟨first, List.mem_cons_self, hfirst⟩
      · rcases bind_eq_error.mp herror with hrest | ⟨_, _, herror⟩
        · obtain ⟨x, hmem, hx⟩ := ih hrest
          exact ⟨x, List.mem_cons_of_mem _ hmem, hx⟩
        · cases herror

end

end Blobsitter.Library
