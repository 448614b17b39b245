import Mathlib.Data.List.Basic

/-!
# Segments of an ordered history

A history is a list whose keys do not decrease.  The entries with a key up to a bound are
its first entries, so what lies between two bounds is the segment between two positions.
-/

namespace Blobsitter.Library

section

variable {α : Type} (key : α → Nat)

/-- How many entries have a key up to the bound. -/
def upTo (history : List α) (bound : Nat) : Nat :=
  (history.filter fun entry => key entry ≤ bound).length

/-- The entries above the first bound and up to the second. -/
def between (history : List α) (low high : Nat) : List α :=
  history.filter fun entry => low < key entry ∧ key entry ≤ high

/-- Keys do not decrease. -/
def Ordered (history : List α) : Prop :=
  history.Pairwise fun entry later => key entry ≤ key later

end

section

variable {α : Type} {key : α → Nat} {history rest : List α} {entry : α} {low high bound : Nat}

theorem upTo_cons_of_le (hle : key entry ≤ bound) :
    upTo key (entry :: rest) bound = upTo key rest bound + 1 := by
  rw [upTo, List.filter_cons, if_pos (decide_eq_true hle), List.length_cons]
  rfl

/-- Above the bound nothing counts. -/
theorem Ordered.upTo_eq_zero (hordered : Ordered key (entry :: rest)) (hlt : bound < key entry) :
    upTo key (entry :: rest) bound = 0 := by
  rw [upTo, List.length_eq_zero_iff, List.filter_eq_nil_iff]
  intro later hmem hle
  have hbound := of_decide_eq_true hle
  rcases List.mem_cons.mp hmem with rfl | hrest
  · omega
  · have horder := (List.pairwise_cons.mp hordered).1 later hrest
    omega

theorem Ordered.tail (hordered : Ordered key (entry :: rest)) : Ordered key rest :=
  (List.pairwise_cons.mp hordered).2

/-- The entries up to a bound are those at the first positions. -/
theorem Ordered.lt_upTo_iff (hordered : Ordered key history) {i : Nat}
    (hentry : history[i]? = some entry) (bound : Nat) :
    i < upTo key history bound ↔ key entry ≤ bound := by
  induction history generalizing i with
  | nil => cases hentry
  | cons first rest ih =>
      by_cases hle : key first ≤ bound
      · rw [upTo_cons_of_le hle]
        cases i with
        | zero =>
            obtain rfl := Option.some.inj hentry
            exact iff_of_true (Nat.succ_pos _) hle
        | succ i =>
            rw [Nat.succ_lt_succ_iff]
            exact ih hordered.tail hentry
      · rw [hordered.upTo_eq_zero (Nat.lt_of_not_le hle)]
        refine iff_of_false (Nat.not_lt_zero i) ?_
        intro hbound
        cases i with
        | zero =>
            obtain rfl := Option.some.inj hentry
            exact hle hbound
        | succ i =>
            rw [List.getElem?_cons_succ] at hentry
            have hmem := List.mem_of_getElem? hentry
            exact hle (Nat.le_trans ((List.pairwise_cons.mp hordered).1 entry hmem) hbound)

theorem upTo_le_length (key : α → Nat) (history : List α) (bound : Nat) :
    upTo key history bound ≤ history.length := List.length_filter_le _ _

theorem upTo_mono (key : α → Nat) (history : List α) (hle : low ≤ high) :
    upTo key history low ≤ upTo key history high := by
  refine (List.monotone_filter_right history ?_).length_le
  intro entry hentry
  exact decide_eq_true (Nat.le_trans (of_decide_eq_true hentry) hle)

/-- What lies between two bounds is the segment between their positions. -/
theorem Ordered.between_eq (hordered : Ordered key history) (low high : Nat) :
    between key history low high =
      (history.take (upTo key history high)).drop (upTo key history low) := by
  induction history with
  | nil => rfl
  | cons first rest ih =>
      by_cases hhigh : key first ≤ high
      · rw [upTo_cons_of_le hhigh, List.take_succ_cons]
        by_cases hlow : key first ≤ low
        · rw [upTo_cons_of_le hlow, List.drop_succ_cons, ← ih hordered.tail, between, between,
            List.filter_cons, if_neg]
          intro htrue
          exact absurd (of_decide_eq_true htrue).1 (Nat.not_lt_of_le hlow)
        · have hzero := hordered.upTo_eq_zero (Nat.lt_of_not_le hlow)
          have hrest : upTo key rest low = 0 := by
            refine Nat.eq_zero_of_le_zero (Nat.le_trans ?_ (Nat.le_of_eq hzero))
            exact (List.Sublist.filter _ (List.sublist_cons_self first rest)).length_le
          rw [hzero, List.drop_zero, between, List.filter_cons,
            if_pos (decide_eq_true ⟨Nat.lt_of_not_le hlow, hhigh⟩), ← between, ih hordered.tail,
            hrest, List.drop_zero]
      · rw [hordered.upTo_eq_zero (Nat.lt_of_not_le hhigh), List.take_zero, List.drop_nil, between,
          List.filter_eq_nil_iff]
        intro later hmem hlater
        have hbound := (of_decide_eq_true hlater).2
        rcases List.mem_cons.mp hmem with rfl | hmem
        · exact hhigh hbound
        · exact hhigh (Nat.le_trans ((List.pairwise_cons.mp hordered).1 later hmem) hbound)

theorem upTo_of_all (hall : ∀ entry ∈ history, key entry ≤ bound) :
    upTo key history bound = history.length := by
  rw [upTo, List.filter_eq_self.mpr]
  intro entry hmem
  exact decide_eq_true (hall entry hmem)

/-- A count bounds the entries up to a key exactly when it bounds their positions. -/
theorem Ordered.upTo_le_iff (hordered : Ordered key history) (bound count : Nat) :
    upTo key history bound ≤ count ↔
      ∀ (i : Nat) entry, history[i]? = some entry → key entry ≤ bound → i < count := by
  constructor
  · intro hle i entry hentry hkey
    exact Nat.lt_of_lt_of_le ((hordered.lt_upTo_iff hentry bound).mpr hkey) hle
  · intro hall
    by_contra hgt
    have hcount := Nat.lt_of_not_le hgt
    have hlt := Nat.lt_of_lt_of_le hcount (upTo_le_length key history bound)
    have hentry := List.getElem?_eq_getElem hlt
    exact absurd (hall count _ hentry ((hordered.lt_upTo_iff hentry bound).mp hcount))
      (Nat.lt_irrefl count)

/-- Two bounds are at different positions when some entry lies between them. -/
theorem Ordered.upTo_lt_iff (hordered : Ordered key history) (low high : Nat) :
    upTo key history low < upTo key history high ↔
      ∃ entry ∈ history, low < key entry ∧ key entry ≤ high := by
  constructor
  · intro hlt
    have hbound := Nat.lt_of_lt_of_le hlt (upTo_le_length key history high)
    have hentry := List.getElem?_eq_getElem hbound
    refine ⟨_, List.getElem_mem hbound, ?_, (hordered.lt_upTo_iff hentry high).mp hlt⟩
    by_contra hle
    exact Nat.lt_irrefl _ ((hordered.lt_upTo_iff hentry low).mpr (Nat.le_of_not_lt hle))
  · rintro ⟨entry, hmem, hlow, hhigh⟩
    obtain ⟨i, hentry⟩ := List.getElem?_of_mem hmem
    have hbelow := mt (hordered.lt_upTo_iff hentry low).mp (Nat.not_le_of_lt hlow)
    exact Nat.lt_of_le_of_lt (Nat.le_of_not_lt hbelow) ((hordered.lt_upTo_iff hentry high).mpr hhigh)

/-- The first entry of a segment is the one at its position. -/
theorem segment_eq_cons {n p : Nat} (hsegment : (history.take n).drop p = entry :: rest) :
    p < n ∧ history[p]? = some entry ∧ (history.take n).drop (p + 1) = rest := by
  have hhead : (history.take n)[p]? = some entry := by
    rw [← List.head?_drop, hsegment, List.head?_cons]
  have hp : p < n := by
    have hlt := (List.getElem?_eq_some_iff.mp hhead).1
    exact Nat.lt_of_lt_of_le hlt (List.length_take_le n history)
  refine ⟨hp, ?_, ?_⟩
  · rw [← hhead, List.getElem?_take_of_lt hp]
  · rw [← List.tail_drop, hsegment, List.tail_cons]

/-- An empty segment ends before it begins. -/
theorem segment_eq_nil {n p : Nat} (hn : n ≤ history.length)
    (hsegment : (history.take n).drop p = []) : n ≤ p := by
  have hlen := List.drop_eq_nil_iff.mp hsegment
  rwa [List.length_take_of_le hn] at hlen

end

end Blobsitter.Library
