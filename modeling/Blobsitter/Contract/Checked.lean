import Mathlib.Data.List.Basic
import Mathlib.Tactic.Ring

/-!
# Checked and unchecked operations of the contracts

Solidity 0.8 arithmetic reverts on overflow outside `unchecked` blocks, and every
memory array access tests its bound.  The checked forms stop with the panic that
the compiler emits.
-/

namespace Blobsitter.Contract

/-- Panic conditions of compiled code. -/
inductive Panic where
  | assertFailed
  | arithmetic
  | divisionByZero
  | outOfBounds
  deriving DecidableEq, Repr

abbrev Checked := Except Panic

def checkedAdd (width a b : Nat) : Checked Nat :=
  if a + b < 2 ^ width then .ok (a + b) else .error .arithmetic

def checkedSub (a b : Nat) : Checked Nat :=
  if b ≤ a then .ok (a - b) else .error .arithmetic

def checkedMul (width a b : Nat) : Checked Nat :=
  if a * b < 2 ^ width then .ok (a * b) else .error .arithmetic

def checkedDiv (a b : Nat) : Checked Nat :=
  if b = 0 then .error .divisionByZero else .ok (a / b)

def checkedMod (a b : Nat) : Checked Nat :=
  if b = 0 then .error .divisionByZero else .ok (a % b)

/-- Addition in an `unchecked` block. -/
def wrapAdd (width a b : Nat) : Nat := (a + b) % 2 ^ width

/-- Subtraction in an `unchecked` block. -/
def wrapSub (width a b : Nat) : Nat := (a + 2 ^ width - b) % 2 ^ width

def shiftLeft (width a amount : Nat) : Nat := (a <<< amount) % 2 ^ width

def load {α : Type} (xs : List α) (i : Nat) : Checked α :=
  match xs[i]? with
  | some x => .ok x
  | none => .error .outOfBounds

def store {α : Type} (xs : List α) (i : Nat) (x : α) : Checked (List α) :=
  if i < xs.length then .ok (xs.set i x) else .error .outOfBounds

section

variable {a b c width : Nat}

theorem checkedAdd_ok (hfits : a + b < 2 ^ width) : checkedAdd width a b = .ok (a + b) :=
  if_pos hfits

theorem checkedSub_ok (hle : b ≤ a) : checkedSub a b = .ok (a - b) := if_pos hle

theorem checkedMul_ok (hfits : a * b < 2 ^ width) : checkedMul width a b = .ok (a * b) :=
  if_pos hfits

theorem checkedDiv_ok (hpos : 0 < b) : checkedDiv a b = .ok (a / b) := if_neg (by omega)

theorem checkedAdd_eq_ok : checkedAdd width a b = .ok c ↔ a + b < 2 ^ width ∧ a + b = c := by
  unfold checkedAdd
  split <;> simp [*]

theorem checkedSub_eq_ok : checkedSub a b = .ok c ↔ b ≤ a ∧ a - b = c := by
  unfold checkedSub
  split <;> simp [*]

theorem checkedMul_eq_ok : checkedMul width a b = .ok c ↔ a * b < 2 ^ width ∧ a * b = c := by
  unfold checkedMul
  split <;> simp [*]

theorem checkedDiv_eq_ok : checkedDiv a b = .ok c ↔ b ≠ 0 ∧ a / b = c := by
  unfold checkedDiv
  split <;> simp [*]

theorem checkedMod_eq_ok : checkedMod a b = .ok c ↔ b ≠ 0 ∧ a % b = c := by
  unfold checkedMod
  split <;> simp [*]

theorem checkedAdd_eq_error {code : Panic} :
    checkedAdd width a b = .error code ↔ 2 ^ width ≤ a + b ∧ code = .arithmetic := by
  unfold checkedAdd
  split
  · simp [*]
  · simp [not_lt.mp ‹_›, eq_comm]

theorem checkedMul_eq_error {code : Panic} :
    checkedMul width a b = .error code ↔ 2 ^ width ≤ a * b ∧ code = .arithmetic := by
  unfold checkedMul
  split
  · simp [*]
  · simp [not_lt.mp ‹_›, eq_comm]

theorem wrapAdd_eq (hfits : a + b < 2 ^ width) : wrapAdd width a b = a + b :=
  Nat.mod_eq_of_lt hfits

theorem wrapSub_eq (hle : b ≤ a) (hfits : a < 2 ^ width) : wrapSub width a b = a - b := by
  have hshift : a + 2 ^ width - b = a - b + 2 ^ width := by omega
  rw [wrapSub, hshift, Nat.add_mod_right, Nat.mod_eq_of_lt (by omega)]

theorem shiftLeft_one {amount : Nat} (hamount : amount < width) :
    shiftLeft width 1 amount = 2 ^ amount := by
  rw [shiftLeft, Nat.one_shiftLeft, Nat.mod_eq_of_lt (Nat.pow_lt_pow_right (by omega) hamount)]

end

section

variable {α : Type} {xs rest : List α} {i : Nat} {x : α}

theorem load_ok (hget : xs[i]? = some x) : load xs i = .ok x := by
  rw [load, hget]

theorem load_eq_ok : load xs i = .ok x ↔ xs[i]? = some x := by
  unfold load
  split <;> simp_all

theorem store_ok (hlt : i < xs.length) : store xs i x = .ok (xs.set i x) := if_pos hlt

/-- Filling the next free slot of an array that is written from left to right. -/
theorem store_next (done : List α) (old : α) :
    store (done ++ old :: rest) done.length x = .ok (done ++ x :: rest) := by
  rw [store_ok (by simp), List.set_append_right _ _ (Nat.le_refl _), Nat.sub_self, List.set_cons_zero]

end

end Blobsitter.Contract
