import Blobsitter.Library.MountainRange

/-!
# Climbing a perfect tree along a sibling path

A climb folds the siblings of a leaf into the root of its perfect tree, the bits of
the leaf's offset choosing the sides.  The honest siblings reach the honest root;
and a climb that reaches it, without a collision of the node operation on the way,
started at the honest leaf and used the honest siblings.
-/

namespace Blobsitter.Library

universe u

variable {α : Type u} (node : α → α → α)

/-- Joins an accumulated root with its sibling; an even offset is a left child. -/
def joinSibling (off : Nat) (acc sibling : α) : α :=
  if off % 2 = 0 then node acc sibling else node sibling acc

/-- Folds a sibling path, bottom level first, from the offset of a subtree. -/
def climb : Nat → α → List α → α
  | _, acc, [] => acc
  | off, acc, sibling :: rest => climb (off / 2) (joinSibling node off acc sibling) rest

@[simp]
theorem climb_nil (off : Nat) (acc : α) : climb node off acc [] = acc := rfl

@[simp]
theorem climb_cons (off : Nat) (acc sibling : α) (rest : List α) :
    climb node off acc (sibling :: rest) =
      climb node (off / 2) (joinSibling node off acc sibling) rest := rfl

/-- Operand pairs that a climb passes to the node operation. -/
def climbPairs : Nat → α → List α → List (α × α)
  | _, _, [] => []
  | off, acc, sibling :: rest =>
      (if off % 2 = 0 then (acc, sibling) else (sibling, acc)) ::
        climbPairs (off / 2) (joinSibling node off acc sibling) rest

/-- Offset of the other child under the same parent. -/
def siblingOff (off : Nat) : Nat := if off % 2 = 0 then off + 1 else off - 1

/-- The honest siblings above the subtree of height `level` at offset `off`, one for
each of `steps` levels. -/
def siblingPath (leaves : Nat → α) (start : Nat) : Nat → Nat → Nat → List α
  | _, _, 0 => []
  | level, off, steps + 1 =>
      perfectRoot node leaves (start + siblingOff off * 2 ^ level) level ::
        siblingPath leaves start (level + 1) (off / 2) steps

@[simp]
theorem siblingPath_length (leaves : Nat → α) (start level off steps : Nat) :
    (siblingPath node leaves start level off steps).length = steps := by
  induction steps generalizing level off with
  | zero => rfl
  | succ steps ih => simp only [siblingPath, List.length_cons, ih]

/-- Sibling paths read only the leaves of the block they climb in. -/
theorem siblingPath_congr {first second : Nat → α} {start level off steps : Nat}
    (hoff : off < 2 ^ steps)
    (hsame : ∀ i, start ≤ i → i < start + 2 ^ (level + steps) → first i = second i) :
    siblingPath node first start level off steps =
      siblingPath node second start level off steps := by
  induction steps generalizing level off with
  | zero => rfl
  | succ steps ih =>
      have hsibling : siblingOff off < 2 ^ (steps + 1) := by
        rw [Nat.pow_succ] at hoff ⊢
        unfold siblingOff
        split <;> omega
      have hend : siblingOff off * 2 ^ level + 2 ^ level ≤ 2 ^ (level + (steps + 1)) := by
        have hmul := Nat.mul_le_mul_right (2 ^ level) (Nat.succ_le_of_lt hsibling)
        rwa [Nat.succ_mul, ← Nat.pow_add, Nat.add_comm (steps + 1)] at hmul
      have hhalf : off / 2 < 2 ^ steps := by
        rw [Nat.pow_succ] at hoff
        omega
      rw [siblingPath, siblingPath, ih hhalf]
      · congr 1
        apply perfectRoot_congr
        intro i hlo hhi
        exact hsame i (by omega) (by omega)
      · intro i hlo hhi
        exact hsame i hlo (by rwa [show level + 1 + steps = level + (steps + 1) by omega] at hhi)

/-- The parent of a subtree joins the subtrees at the two offsets below it. -/
theorem perfectRoot_parent (leaves : Nat → α) (start level off : Nat) :
    perfectRoot node leaves (start + off / 2 * 2 ^ (level + 1)) (level + 1) =
      joinSibling node off (perfectRoot node leaves (start + off * 2 ^ level) level)
        (perfectRoot node leaves (start + siblingOff off * 2 ^ level) level) := by
  rcases Nat.mod_two_eq_zero_or_one off with heven | hodd
  · obtain ⟨half, rfl⟩ := Nat.dvd_of_mod_eq_zero heven
    have hright : start + half * 2 ^ (level + 1) + 2 ^ level =
        start + (2 * half + 1) * 2 ^ level := by ring
    have hleft : start + half * 2 ^ (level + 1) = start + 2 * half * 2 ^ level := by ring
    rw [joinSibling, siblingOff, if_pos heven, if_pos heven,
      Nat.mul_div_cancel_left half Nat.two_pos, perfectRoot, hright, hleft]
  · have hhalf : off = 2 * (off / 2) + 1 := by omega
    have hright : start + off / 2 * 2 ^ (level + 1) + 2 ^ level = start + off * 2 ^ level := by
      conv => rhs; rw [hhalf]
      ring
    have hleft : start + off / 2 * 2 ^ (level + 1) = start + (off - 1) * 2 ^ level := by
      rw [show off - 1 = 2 * (off / 2) by omega]
      ring
    rw [joinSibling, siblingOff, if_neg (by omega), if_neg (by omega), perfectRoot, hright, hleft]

/-! ## Completeness -/

theorem climb_siblingPath (leaves : Nat → α) (start : Nat) {level off steps : Nat}
    (hoff : off < 2 ^ steps) :
    climb node off (perfectRoot node leaves (start + off * 2 ^ level) level)
        (siblingPath node leaves start level off steps) =
      perfectRoot node leaves start (level + steps) := by
  induction steps generalizing level off with
  | zero =>
      have hzero : off = 0 := by simpa using hoff
      subst hzero
      rw [Nat.zero_mul, Nat.add_zero]
      rfl
  | succ steps ih =>
      have hhalf : off / 2 < 2 ^ steps := by
        rw [Nat.pow_succ] at hoff
        omega
      rw [siblingPath, climb_cons, ← perfectRoot_parent, ih hhalf]
      congr 1
      omega

/-- An honest climb joins honest siblings only. -/
theorem climbPairs_siblingPath (leaves : Nat → α) (start : Nat) {level off steps : Nat}
    (hoff : off < 2 ^ steps) {pair : α × α}
    (hmem : pair ∈ climbPairs node off (perfectRoot node leaves (start + off * 2 ^ level) level)
      (siblingPath node leaves start level off steps)) :
    ∃ pos height, pos + 2 ^ (height + 1) ≤ start + 2 ^ (level + steps) ∧
      pair = (perfectRoot node leaves pos height,
        perfectRoot node leaves (pos + 2 ^ height) height) := by
  induction steps generalizing level off with
  | zero => cases hmem
  | succ steps ih =>
      have hhalf : off / 2 < 2 ^ steps := by
        rw [Nat.pow_succ] at hoff
        omega
      have hwide : (off / 2 + 1) * 2 ^ (level + 1) ≤ 2 ^ (level + (steps + 1)) := by
        have hmul := Nat.mul_le_mul_right (2 ^ (level + 1)) (Nat.succ_le_of_lt hhalf)
        rwa [← Nat.pow_add, show steps + (level + 1) = level + (steps + 1) by omega] at hmul
      rw [siblingPath, climbPairs, ← perfectRoot_parent] at hmem
      rcases List.mem_cons.mp hmem with hhead | htail
      · refine ⟨start + off / 2 * 2 ^ (level + 1), level, ?_, ?_⟩
        · rw [Nat.add_mul, Nat.one_mul] at hwide
          omega
        · rcases Nat.mod_two_eq_zero_or_one off with heven | hodd
          · have hleft : off / 2 * 2 ^ (level + 1) = off * 2 ^ level := by
              rw [Nat.pow_succ, Nat.mul_comm (2 ^ level), ← Nat.mul_assoc,
                Nat.div_mul_cancel (Nat.dvd_of_mod_eq_zero heven)]
            rw [if_pos heven, siblingOff, if_pos heven] at hhead
            rw [hhead, hleft, Nat.add_mul, Nat.one_mul, Nat.add_assoc]
          · have hleft : off / 2 * 2 ^ (level + 1) = (off - 1) * 2 ^ level := by
              rw [show off - 1 = off / 2 * 2 by omega, Nat.pow_succ, Nat.mul_comm (2 ^ level),
                Nat.mul_assoc]
            have hright : (off - 1) * 2 ^ level + 2 ^ level = off * 2 ^ level := by
              rw [← Nat.succ_mul, show (off - 1).succ = off by omega]
            rw [if_neg (by omega), siblingOff, if_neg (by omega)] at hhead
            rw [hhead, hleft, Nat.add_assoc, hright]
      · have hlevel : level + 1 + steps = level + (steps + 1) := by omega
        obtain ⟨pos, height, hend, hpair⟩ := ih hhalf htail
        rw [hlevel] at hend
        exact ⟨pos, height, hend, hpair⟩

/-- No operand pair of the climb collides with a pair of honest roots inside the
leaves `[start, stop)`. -/
def ClimbsWithoutCollision (leaves : Nat → α) (start stop off : Nat) (acc : α)
    (path : List α) : Prop :=
  ∀ pos level, start ≤ pos → pos + 2 ^ (level + 1) ≤ stop →
    ∀ pair ∈ climbPairs node off acc path,
      node (perfectRoot node leaves pos level) (perfectRoot node leaves (pos + 2 ^ level) level) =
        node pair.1 pair.2 →
      (perfectRoot node leaves pos level, perfectRoot node leaves (pos + 2 ^ level) level) = pair

theorem joinSibling_eq {off : Nat} {acc sibling left right : α}
    (heq : (left, right) = if off % 2 = 0 then (acc, sibling) else (sibling, acc)) :
    acc = (if off % 2 = 0 then left else right) ∧
      sibling = (if off % 2 = 0 then right else left) := by
  by_cases heven : off % 2 = 0
  · rw [if_pos heven] at heq ⊢
    cases heq
    exact ⟨rfl, by rw [if_pos heven]⟩
  · rw [if_neg heven] at heq ⊢
    cases heq
    exact ⟨rfl, by rw [if_neg heven]⟩

/-- A climb that reaches the honest root is the honest climb. -/
theorem climb_sound {leaves : Nat → α} {start level off : Nat} {acc : α} {path : List α}
    (hoff : off < 2 ^ path.length)
    (hfree : ClimbsWithoutCollision node leaves start
      (start + 2 ^ (level + path.length)) off acc path)
    (hroot : climb node off acc path =
      perfectRoot node leaves start (level + path.length)) :
    acc = perfectRoot node leaves (start + off * 2 ^ level) level ∧
      path = siblingPath node leaves start level off path.length := by
  induction path generalizing level off acc with
  | nil =>
      have hzero : off = 0 := by simpa using hoff
      subst hzero
      rw [Nat.zero_mul, Nat.add_zero]
      exact ⟨hroot, rfl⟩
  | cons sibling rest ih =>
      rw [List.length_cons] at hoff hroot hfree
      have hhalf : off / 2 < 2 ^ rest.length := by
        rw [Nat.pow_succ] at hoff
        omega
      have hheight : level + (rest.length + 1) = level + 1 + rest.length := by omega
      rw [hheight] at hroot hfree
      -- the levels above are honest, so this level's join is the honest parent
      obtain ⟨hparent, hrest⟩ := ih hhalf
        (fun pos lvl hlo hhi pair hmem => hfree pos lvl hlo hhi pair (List.mem_cons_of_mem _ hmem))
        hroot
      have hfits : start + off / 2 * 2 ^ (level + 1) + 2 ^ (level + 1) ≤
          start + 2 ^ (level + 1 + rest.length) := by
        have hmul := Nat.mul_le_mul_right (2 ^ (level + 1)) (Nat.succ_le_of_lt hhalf)
        rw [Nat.succ_mul, ← Nat.pow_add, Nat.add_comm rest.length] at hmul
        omega
      have hjoin := hfree (start + off / 2 * 2 ^ (level + 1)) level (Nat.le_add_right _ _) hfits _
        List.mem_cons_self (by
          rw [perfectRoot] at hparent
          rw [← hparent]
          unfold joinSibling
          split <;> rfl)
      obtain ⟨hacc, hsibling⟩ := joinSibling_eq hjoin
      rcases Nat.mod_two_eq_zero_or_one off with heven | hodd
      · have hleft : off / 2 * 2 ^ (level + 1) = off * 2 ^ level := by
          conv => rhs; rw [show off = off / 2 * 2 by omega]
          ring
        have hright : off / 2 * 2 ^ (level + 1) + 2 ^ level = (off + 1) * 2 ^ level := by
          rw [hleft]
          ring
        rw [if_pos heven, hleft] at hacc
        rw [if_pos heven, Nat.add_assoc, hright] at hsibling
        refine ⟨hacc, ?_⟩
        rw [List.length_cons, siblingPath, siblingOff, if_pos heven, ← hsibling, ← hrest]
      · have hleft : off / 2 * 2 ^ (level + 1) = (off - 1) * 2 ^ level := by
          rw [show off - 1 = off / 2 * 2 by omega]
          ring
        have hright : off / 2 * 2 ^ (level + 1) + 2 ^ level = off * 2 ^ level := by
          conv => rhs; rw [show off = off / 2 * 2 + 1 by omega]
          ring
        rw [if_neg (by omega), Nat.add_assoc, hright] at hacc
        rw [if_neg (by omega), hleft] at hsibling
        refine ⟨hacc, ?_⟩
        rw [List.length_cons, siblingPath, siblingOff, if_neg (by omega), ← hsibling, ← hrest]

end Blobsitter.Library
