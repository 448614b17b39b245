import Mathlib.Data.Nat.Log
import Mathlib.Order.Bounds.Basic
import Blobsitter.Library.MountainRange

/-!
# Greedy tilings

A stretch of leaves is tiled by aligned perfect trees, and at each position the greedy
tiling takes the tallest tree that is aligned there and fits.  No tiling has fewer trees:
the boundaries of the greedy trees are boundaries of every tiling.  The heights climb until
the remainder is the limit and fall after that, so each height is met at most twice.
-/

namespace Blobsitter.Library

/-- Every height is the largest one that is aligned at its position and fits what is left. -/
inductive Greedy : Nat → List Nat → Prop where
  | nil (pos : Nat) : Greedy pos []
  | cons {pos h : Nat} {rest : List Nat}
      (hlargest : IsGreatest {k | 2 ^ k ∣ pos ∧ 2 ^ k ≤ tileWidth (h :: rest)} h)
      (hrest : Greedy (pos + 2 ^ h) rest) : Greedy pos (h :: rest)

section

variable {pos stop g h : Nat}

theorem two_pow_add_le (hpos : 2 ^ g ∣ pos) (hstop : 2 ^ g ∣ stop) (hlt : pos < stop) :
    pos + 2 ^ g ≤ stop := by
  have hgap : 2 ^ g ≤ stop - pos := Nat.le_of_dvd (Nat.sub_pos_of_lt hlt) (Nat.dvd_sub hstop hpos)
  omega

/-- After the tallest tree that is aligned at a position comes a better aligned one. -/
theorem two_pow_succ_dvd (hdvd : 2 ^ h ∣ pos) (hmax : ¬2 ^ (h + 1) ∣ pos) :
    2 ^ (h + 1) ∣ pos + 2 ^ h := by
  obtain ⟨q, rfl⟩ := hdvd
  have hodd : q % 2 = 1 := by
    by_contra heven
    apply hmax
    rw [Nat.pow_succ]
    exact Nat.mul_dvd_mul_left _ (Nat.dvd_of_mod_eq_zero (by omega))
  have hsum : 2 ^ h * q + 2 ^ h = 2 ^ h * (q + 1) := by ring
  rw [hsum, Nat.pow_succ]
  exact Nat.mul_dvd_mul_left _ (Nat.dvd_of_mod_eq_zero (by omega))

/-- Where a taller tree is aligned, the largest one is the largest that fits. -/
theorem width_lt_of_isGreatest {width : Nat}
    (hlargest : IsGreatest {k | 2 ^ k ∣ pos ∧ 2 ^ k ≤ width} h) (htaller : 2 ^ (h + 1) ∣ pos) :
    width < 2 ^ h + 2 ^ h := by
  by_contra hlong
  have hnext : h + 1 ≤ h := by
    refine hlargest.2 ⟨htaller, ?_⟩
    rw [Nat.pow_succ, Nat.mul_two]
    exact Nat.le_of_not_lt hlong
  exact Nat.not_succ_le_self h hnext

end

theorem tileWidth_append (before after : List Nat) :
    tileWidth (before ++ after) = tileWidth before + tileWidth after := by
  simp [tileWidth]

/-- A tiling has a boundary at the end of the aligned block in which it starts. -/
theorem Tiles.split {pos stop h : Nat} {tiles : List Nat} (htiles : Tiles pos tiles)
    (hstop : 2 ^ h ∣ stop) (hle : pos ≤ stop) (hinside : stop < pos + 2 ^ h)
    (hwidth : stop ≤ pos + tileWidth tiles) :
    ∃ before after, tiles = before ++ after ∧ pos + tileWidth before = stop ∧
      Tiles stop after := by
  induction tiles generalizing pos with
  | nil =>
      have hsame : pos = stop := Nat.le_antisymm hle hwidth
      exact ⟨[], [], rfl, hsame, trivial⟩
  | cons g tiles ih =>
      obtain ⟨hdvd, hrest⟩ := htiles
      rcases Nat.eq_or_lt_of_le hle with rfl | hlt
      · exact ⟨[], g :: tiles, rfl, rfl, hdvd, hrest⟩
      · have hshort : g < h := by
          by_contra htall
          have hover := two_pow_add_le ((Nat.pow_dvd_pow 2 (Nat.le_of_not_lt htall)).trans hdvd)
            hstop hlt
          omega
        have hnext := two_pow_add_le hdvd ((Nat.pow_dvd_pow 2 hshort.le).trans hstop) hlt
        rw [tileWidth_cons] at hwidth
        obtain ⟨before, after, rfl, hbefore, hafter⟩ := ih hrest hnext (by omega) (by omega)
        refine ⟨g :: before, after, rfl, ?_, hafter⟩
        rw [tileWidth_cons, ← Nat.add_assoc]
        exact hbefore

namespace Greedy

variable {pos : Nat} {heights : List Nat}

theorem tiles (hgreedy : Greedy pos heights) : Tiles pos heights := by
  induction hgreedy with
  | nil => trivial
  | cons hlargest _ ih => exact ⟨hlargest.1.1, ih⟩

/-- The choice at any place of the list, in terms of what stands before it. -/
theorem largest (hgreedy : Greedy pos heights) {k h : Nat} (hat : heights[k]? = some h) :
    IsGreatest {j | 2 ^ j ∣ pos + tileWidth (heights.take k) ∧
      2 ^ j ≤ tileWidth heights - tileWidth (heights.take k)} h := by
  induction hgreedy generalizing k with
  | nil => cases hat
  | @cons pos first rest hlargest _ ih =>
      cases k with
      | zero =>
          obtain rfl := Option.some.inj hat
          exact hlargest
      | succ k =>
          have hnext := ih hat
          rw [List.take_succ_cons, tileWidth_cons, tileWidth_cons, Nat.add_sub_add_left,
            ← Nat.add_assoc]
          exact hnext

/-- No tiling of the same leaves is shorter. -/
theorem length_le_of_tiles (hgreedy : Greedy pos heights) {other : List Nat}
    (htiles : Tiles pos other) (hwidth : tileWidth other = tileWidth heights) :
    heights.length ≤ other.length := by
  induction hgreedy generalizing other with
  | nil => exact Nat.zero_le _
  | @cons pos h rest hlargest _ ih =>
      have hpositive := Nat.two_pow_pos h
      rw [tileWidth_cons] at hwidth
      cases other with
      | nil =>
          rw [tileWidth_nil] at hwidth
          omega
      | cons g other =>
          obtain ⟨hdvd, hothers⟩ := htiles
          rw [tileWidth_cons] at hwidth
          have hgh : g ≤ h := by
            refine hlargest.2 ⟨hdvd, ?_⟩
            rw [tileWidth_cons]
            omega
          have hpow : 2 ^ g ≤ 2 ^ h := Nat.pow_le_pow_right Nat.two_pos hgh
          have hfirst := Nat.two_pow_pos g
          have hstop : 2 ^ h ∣ pos + 2 ^ h := Nat.dvd_add hlargest.1.1 (Nat.dvd_refl _)
          obtain ⟨before, after, rfl, hbefore, hafter⟩ :=
            hothers.split hstop (by omega) (by omega) (by omega)
          rw [tileWidth_append] at hwidth
          have hrest := ih hafter (by omega)
          rw [List.length_cons, List.length_cons, List.length_append]
          omega

/-! ## Number of trees -/

/-- Once the leaves fit into one aligned block the heights fall. -/
theorem length_le_of_fit (hgreedy : Greedy pos heights) {j : Nat} (hdvd : 2 ^ j ∣ pos)
    (hfit : tileWidth heights < 2 ^ j) : heights.length ≤ j := by
  induction hgreedy generalizing j with
  | nil => exact Nat.zero_le _
  | @cons pos h rest hlargest _ ih =>
      have hshort : h < j := (Nat.pow_lt_pow_iff_right Nat.one_lt_two).mp
        (hlargest.1.2.trans_lt hfit)
      have hwidth := width_lt_of_isGreatest hlargest ((Nat.pow_dvd_pow 2 hshort).trans hdvd)
      have hhalf : tileWidth rest < 2 ^ h := by
        rw [tileWidth_cons] at hwidth
        exact Nat.lt_of_add_lt_add_left hwidth
      have hrest := ih (Nat.dvd_add hlargest.1.1 (Nat.dvd_refl _)) hhalf
      rw [List.length_cons]
      exact (Nat.succ_le_succ hrest).trans hshort

/-- While more than the aligned block is left the heights climb. -/
theorem length_le_of_dvd (hgreedy : Greedy pos heights) {j top : Nat} (hdvd : 2 ^ j ∣ pos)
    (hj : j ≤ top) (htop : tileWidth heights < 2 ^ top) : heights.length ≤ 2 * top - j := by
  induction hgreedy generalizing j with
  | nil => exact Nat.zero_le _
  | @cons pos h rest hlargest hrest ih =>
      have hshort : h < top := (Nat.pow_lt_pow_iff_right Nat.one_lt_two).mp
        (hlargest.1.2.trans_lt htop)
      have hnext : 2 ^ h ∣ pos + 2 ^ h := Nat.dvd_add hlargest.1.1 (Nat.dvd_refl _)
      by_cases hfit : tileWidth (h :: rest) < 2 ^ j
      · have hfalls := length_le_of_fit (Greedy.cons hlargest hrest) hdvd hfit
        omega
      have hjh : j ≤ h := hlargest.2 ⟨hdvd, Nat.le_of_not_lt hfit⟩
      rw [tileWidth_cons] at htop
      rw [List.length_cons]
      by_cases hhalf : tileWidth rest < 2 ^ h
      · have hfalls := hrest.length_le_of_fit hnext hhalf
        omega
      · have hmax : ¬2 ^ (h + 1) ∣ pos := by
          intro htaller
          have hwidth := width_lt_of_isGreatest hlargest htaller
          rw [tileWidth_cons] at hwidth
          exact hhalf (Nat.lt_of_add_lt_add_left hwidth)
        have hclimbs := ih (two_pow_succ_dvd hlargest.1.1 hmax) hshort (by omega)
        omega

theorem length_le_clog (hgreedy : Greedy pos heights) :
    heights.length ≤ 2 * Nat.clog 2 (tileWidth heights + 1) :=
  hgreedy.length_le_of_dvd (by rw [Nat.pow_zero]; exact Nat.one_dvd _) (Nat.zero_le _)
    (Nat.le_pow_clog Nat.one_lt_two _)

end Greedy

end Blobsitter.Library
