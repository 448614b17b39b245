import Blobsitter.Reference.Decompose

/-!
# The verifier state of the reference crate

`Mmr` keeps one peak per height in an ordered map.  Its merge algorithm is shown to
carry exactly as the abstract mountain range does, so a state over honest updates is
determined by the leaves alone.
-/

namespace Blobsitter.Reference

open Library
open Std (ExtTreeMap)

section

variable (keccak256 : ByteString → Hash)

/-- `BTreeMap<u32, Hash>`. -/
abbrev PeakMap := ExtTreeMap Nat Hash compare

structure Mmr where
  /-- Peak per height; at most one entry per height. -/
  peaks : PeakMap
  leafCount : Nat

def Mmr.new : Mmr := ⟨∅, 0⟩

/-- Rehydrates a state from `(leafCount, peaks)` in canonical order. -/
def Mmr.fromState (leafCount : Nat) (peaks : List Hash) : Except Fault Mmr :=
  let heights := peakHeights leafCount
  if peaks.length ≠ heights.length then
    .error (.err "peak count does not match popcount of leaf count")
  else
    .ok ⟨(heights.zip peaks).foldl (fun byHeight entry => byHeight.insert entry.1 entry.2) ∅,
      leafCount⟩

/-- `Mmr::peaks`: descending height, which is oldest leaves first. -/
def Mmr.peakList (mmr : Mmr) : List Hash := mmr.peaks.toList.reverse.map Prod.snd

def Mmr.root (mmr : Mmr) : Hash := Reference.root keccak256 mmr.leafCount mmr.peakList

/-- `while let Some(existing) = self.peaks.remove(&h)`; each pass removes an entry. -/
def carryLoop : Nat → PeakMap → Nat → Hash → PeakMap × Nat × Hash
  | 0, peaks, h, p => (peaks, h, p)
  | fuel + 1, peaks, h, p =>
      match peaks[h]? with
      | some existing => carryLoop fuel (peaks.erase h) (h + 1) (node keccak256 existing p)
      | none => (peaks, h, p)

/-- One pass of the loop in `apply_update`. -/
def Mmr.mergePeak (mmr : Mmr) (h0 : Nat) (peak : Hash) : Mmr :=
  let merged := carryLoop keccak256 mmr.peaks.size mmr.peaks h0 peak
  ⟨merged.1.insert merged.2.1 merged.2.2, (mmr.leafCount + 2 ^ h0) % 2 ^ 64⟩

/-- Applies an update of `m` chunks given its subtree peaks in `decompose` order. -/
def Mmr.applyUpdate (mmr : Mmr) (subtreePeaks : List Hash) (m : Nat) : Except Fault Mmr := do
  let heights ← decompose mmr.leafCount m
  if subtreePeaks.length ≠ heights.length then
    throw (.err "subtree peak count does not match decomposition")
  return (heights.zip subtreePeaks).foldl
    (fun state entry => state.mergePeak keccak256 entry.1 entry.2) mmr

/-- Appends a single chunk; `expect` turns a failure into a panic. -/
def Mmr.appendLeaf (mmr : Mmr) (chunk : Chunk) : Except Fault Mmr :=
  match mmr.applyUpdate keccak256 [leaf keccak256 chunk] 1 with
  | .ok next => .ok next
  | .error _ => .error (.panic "single-leaf update cannot fail")

/-- The map holds a range's peak at each set bit of the leaf count and nothing else. -/
structure Mmr.Refines (mmr : Mmr) (range : Range Hash) : Prop where
  count : mmr.leafCount = range.count
  peak : ∀ h, mmr.peaks[h]? = if range.count.testBit h then some (range.peak h) else none

theorem getElem?_insert_eq (peaks : PeakMap) (h k : Nat) (p : Hash) :
    (peaks.insert h p)[k]? = if h = k then some p else peaks[k]? := by
  rw [ExtTreeMap.getElem?_insert]
  simp only [compare_eq_iff_eq]

theorem getElem?_erase_eq (peaks : PeakMap) (h k : Nat) :
    (peaks.erase h)[k]? = if h = k then none else peaks[k]? := by
  rw [ExtTreeMap.getElem?_erase]
  simp only [compare_eq_iff_eq]

theorem size_erase_of_getElem? {peaks : PeakMap} {h : Nat} {p : Hash}
    (hget : peaks[h]? = some p) : (peaks.erase h).size + 1 = peaks.size := by
  have hmem : h ∈ peaks := by
    rw [ExtTreeMap.mem_iff_isSome_getElem?, hget]
    rfl
  have hpos : 0 < peaks.size := by
    apply Nat.pos_of_ne_zero
    intro hzero
    rw [← ExtTreeMap.length_toList, List.length_eq_zero_iff] at hzero
    have hentry := ExtTreeMap.mem_toList_iff_getElem?_eq_some.mpr hget
    rw [hzero] at hentry
    cases hentry
  rw [ExtTreeMap.size_erase, if_pos (ExtTreeMap.contains_iff_mem.mpr hmem)]
  omega

/-- The carry loop is the abstract carry; it clears the heights it passes. -/
theorem carryLoop_eq_carry (count : Nat) (peak : Nat → Hash) {fuel : Nat} {peaks : PeakMap}
    (hfuel : peaks.size ≤ fuel) (h : Nat) (p : Hash)
    (hpeaks : ∀ k, h ≤ k → peaks[k]? = if count.testBit k then some (peak k) else none) :
    (carryLoop keccak256 fuel peaks h p).2 = carry (node keccak256) count peak h p ∧
      ∀ k, (carryLoop keccak256 fuel peaks h p).1[k]? =
        if h ≤ k ∧ k < (carry (node keccak256) count peak h p).1 then none else peaks[k]? := by
  induction fuel generalizing peaks h p with
  | zero =>
      have hempty : peaks[h]? = none := by
        cases hget : peaks[h]? with
        | none => rfl
        | some existing =>
            have hsize := size_erase_of_getElem? hget
            omega
      have hclear : ¬ count.testBit h = true := by
        intro hbit
        rw [hpeaks h (Nat.le_refl h), if_pos hbit] at hempty
        cases hempty
      rw [carry, dif_neg hclear]
      refine ⟨rfl, fun k => ?_⟩
      rw [if_neg (by omega)]
      rfl
  | succ fuel ih =>
      by_cases hbit : count.testBit h = true
      · have hget : peaks[h]? = some (peak h) := by
          rw [hpeaks h (Nat.le_refl h), if_pos hbit]
        have hsize := size_erase_of_getElem? hget
        have hrest : ∀ k, h + 1 ≤ k →
            (peaks.erase h)[k]? = if count.testBit k then some (peak k) else none := by
          intro k hk
          rw [getElem?_erase_eq, if_neg (by omega), hpeaks k (by omega)]
        obtain ⟨hvalue, hmap⟩ :=
          ih (by omega) (h + 1) (node keccak256 (peak h) p) hrest
        rw [carry, dif_pos hbit]
        simp only [carryLoop, hget]
        refine ⟨hvalue, fun k => ?_⟩
        have hle := (carry_stops (node keccak256) count peak (h + 1) _
          (node keccak256 (peak h) p) rfl).2.1
        rw [hmap, getElem?_erase_eq]
        by_cases hk : h = k
        · subst hk
          rw [if_neg (by omega), if_pos rfl, if_pos ⟨Nat.le_refl _, by omega⟩]
        · rw [if_neg hk]
          by_cases hin : h + 1 ≤ k ∧ k < (carry (node keccak256) count peak (h + 1)
              (node keccak256 (peak h) p)).1
          · rw [if_pos hin, if_pos ⟨by omega, hin.2⟩]
          · rw [if_neg hin, if_neg fun both => hin ⟨by omega, both.2⟩]
      · have hget : peaks[h]? = none := by
          rw [hpeaks h (Nat.le_refl h), if_neg hbit]
        have hstop : carryLoop keccak256 (fuel + 1) peaks h p = (peaks, h, p) := by
          simp only [carryLoop, hget]
        rw [carry, dif_neg hbit, hstop]
        exact ⟨rfl, fun k => by rw [if_neg (by omega)]⟩

theorem getElem?_foldl_insert (peak : Nat → Hash) (heights : List Nat) (peaks : PeakMap) (k : Nat) :
    ((heights.zip (heights.map peak)).foldl
        (fun byHeight entry => byHeight.insert entry.1 entry.2) peaks)[k]? =
      if k ∈ heights then some (peak k) else peaks[k]? := by
  induction heights generalizing peaks with
  | nil => simp
  | cons h heights ih =>
      rw [List.map_cons, List.zip_cons_cons, List.foldl_cons, ih, getElem?_insert_eq]
      by_cases hmem : k ∈ heights
      · rw [if_pos hmem, if_pos (List.mem_cons_of_mem h hmem)]
      · rw [if_neg hmem]
        by_cases heq : h = k
        · subst heq
          rw [if_pos rfl, if_pos List.mem_cons_self]
        · rw [if_neg heq, if_neg fun hcons => (List.mem_cons.mp hcons).elim
            (fun hk => heq hk.symm) hmem]

/-- A rehydrated state is the range whose peaks were given. -/
theorem Mmr.fromState_refines (range : Range Hash) {peaks : List Hash}
    (hpeaks : peaks = (setBits 64 range.count).reverse.map range.peak)
    (hbound : range.count < 2 ^ 64) :
    ∃ mmr, Mmr.fromState range.count peaks = .ok mmr ∧ mmr.Refines range := by
  subst hpeaks
  unfold fromState
  simp only
  rw [if_neg (by rw [List.length_map, peakHeights_eq]; exact not_not_intro rfl)]
  refine ⟨_, rfl, rfl, fun h => ?_⟩
  simp only
  rw [peakHeights_eq, getElem?_foldl_insert]
  cases hbit : range.count.testBit h with
  | true =>
      have hmem := List.mem_reverse.mpr (mem_setBits.mpr ⟨lt_of_testBit_lt hbound hbit, hbit⟩)
      rw [if_pos hmem, if_pos rfl]
  | false =>
      have hout : h ∉ (setBits 64 range.count).reverse := by
        rw [List.mem_reverse, mem_setBits, hbit]
        exact fun both => Bool.false_ne_true both.2
      rw [if_neg hout, if_neg Bool.false_ne_true]
      exact ExtTreeMap.getElem?_empty

/-- Rehydrating checks the number of peaks and nothing else. -/
theorem Mmr.fromState_ok_iff {n : Nat} {peaks : List Hash} :
    (∃ mmr, Mmr.fromState n peaks = .ok mmr) ↔ peaks.length = (peakHeights n).length := by
  unfold fromState
  simp only
  by_cases hlen : peaks.length = (peakHeights n).length
  · rw [if_neg (not_not_intro hlen)]
    exact ⟨fun _ => hlen, fun _ => ⟨_, rfl⟩⟩
  · rw [if_pos hlen]
    refine ⟨?_, fun heq => absurd heq hlen⟩
    rintro ⟨_, herror⟩
    cases herror

/-- One merge of an aligned subtree is one push. -/
theorem Mmr.mergePeak_refines {mmr : Mmr} {range : Range Hash} (hrefines : mmr.Refines range)
    {h0 : Nat} (peak : Hash) (hdvd : 2 ^ h0 ∣ range.count)
    (hbound : range.count + 2 ^ h0 < 2 ^ 64) :
    (mmr.mergePeak keccak256 h0 peak).Refines (range.push (node keccak256) h0 peak) := by
  obtain ⟨hvalue, hmap⟩ := carryLoop_eq_carry keccak256 range.count range.peak
    (Nat.le_refl mmr.peaks.size) h0 peak fun k _ => hrefines.peak k
  constructor
  · change (mmr.leafCount + 2 ^ h0) % 2 ^ 64 = range.count + 2 ^ h0
    rw [hrefines.count, Nat.mod_eq_of_lt hbound]
  · intro k
    change ((carryLoop keccak256 mmr.peaks.size mmr.peaks h0 peak).1.insert _ _)[k]? = _
    rw [getElem?_insert_eq, hvalue, hmap, hrefines.peak,
      range.push_testBit (node keccak256) peak hdvd]
    have hclear := range.restHeight_clear (node keccak256) peak hdvd
    have hpeak : (range.push (node keccak256) h0 peak).peak = Function.update range.peak
        (range.restHeight (node keccak256) h0 peak)
        (carry (node keccak256) range.count range.peak h0 peak).2 := rfl
    rw [hpeak]
    change (if range.restHeight (node keccak256) h0 peak = k then _ else
      if h0 ≤ k ∧ k < range.restHeight (node keccak256) h0 peak then none else _) = _
    rcases Nat.lt_trichotomy k (range.restHeight (node keccak256) h0 peak) with hlt | heq | hgt
    · rw [if_neg (by omega), if_pos hlt]
      by_cases hlow : h0 ≤ k
      · rw [if_pos ⟨hlow, hlt⟩]
        rfl
      · have hbit : range.count.testBit k = false := by
          obtain ⟨q, hq⟩ := hdvd
          rw [hq, Nat.testBit_two_pow_mul, decide_eq_false (by omega), Bool.false_and]
        rw [if_neg fun both => hlow both.1, hbit]
        rfl
    · subst heq
      rw [if_pos rfl, if_neg (Nat.lt_irrefl _), if_pos rfl, Function.update_self]
      rfl
    · have hne : k ≠ range.restHeight (node keccak256) h0 peak := by omega
      rw [if_neg hne.symm, if_neg fun both => Nat.lt_asymm hgt both.2,
        if_neg (Nat.lt_asymm hgt), if_neg hne, Function.update_of_ne hne]

theorem Mmr.foldl_mergePeak_refines {mmr : Mmr} {range : Range Hash}
    (hrefines : mmr.Refines range) {heights : List Nat} {subtreePeaks : List Hash}
    (htiles : Tiles range.count heights) (hlen : subtreePeaks.length = heights.length)
    (hbound : range.count + tileWidth heights < 2 ^ 64) :
    ((heights.zip subtreePeaks).foldl
      (fun state entry => state.mergePeak keccak256 entry.1 entry.2) mmr).Refines
        (range.pushAll (node keccak256) (heights.zip subtreePeaks)) := by
  induction heights generalizing mmr range subtreePeaks with
  | nil => exact hrefines
  | cons h rest ih =>
      cases subtreePeaks with
      | nil => cases hlen
      | cons peak peaks =>
          obtain ⟨hdvd, hrest⟩ := htiles
          rw [tileWidth_cons] at hbound
          have hstep := mmr.mergePeak_refines keccak256 hrefines peak hdvd (by omega)
          exact ih hstep hrest (Nat.succ.inj hlen) (by rw [Range.push_count]; omega)

/-- An update of the decomposition's length succeeds and follows the range. -/
theorem Mmr.applyUpdate_refines {mmr : Mmr} {range : Range Hash} (hrefines : mmr.Refines range)
    {subtreePeaks : List Hash} {m : Nat} (hm : 1 ≤ m) (hbound : range.count + m < 2 ^ 64)
    (hlen : subtreePeaks.length = (updateHeights range.count m).length) :
    ∃ next, mmr.applyUpdate keccak256 subtreePeaks m = .ok next ∧
      next.Refines
        (range.pushAll (node keccak256) ((updateHeights range.count m).zip subtreePeaks)) := by
  have hfold := Mmr.foldl_mergePeak_refines keccak256 hrefines
    (updateHeights_tiles hbound) hlen (by rw [updateHeights_width hbound]; exact hbound)
  refine ⟨_, ?_, hfold⟩
  simp only [applyUpdate, hrefines.count, decompose_eq hm, bind, Except.bind]
  rw [if_neg (by simpa using hlen)]
  rfl

/-! ## Canonical peak lists -/

theorem Mmr.peakList_of_refines {mmr : Mmr} {range : Range Hash} (hrefines : mmr.Refines range)
    (hbound : range.count < 2 ^ 64) : mmr.peakList = range.peaks 64 := by
  have hentries : mmr.peaks.toList = (setBits 64 range.count).map fun h => (h, range.peak h) := by
    have hanti : ∀ a b : Nat × Hash, a.1 < b.1 → b.1 < a.1 → a = b :=
      fun a b hab hba => absurd hab (Nat.lt_asymm hba)
    refine List.Perm.eq_of_pairwise (fun a b _ _ => hanti a b) ?_ ?_ ?_
    · exact ExtTreeMap.ordered_keys_toList.imp fun hcmp => compare_lt_iff_lt.mp hcmp
    · exact List.pairwise_map.mpr (setBits_pairwise 64 range.count)
    · rw [List.perm_ext_iff_of_nodup]
      · intro entry
        rw [ExtTreeMap.mem_toList_iff_getElem?_eq_some, hrefines.peak, List.mem_map]
        constructor
        · intro hget
          by_cases hbit : range.count.testBit entry.1 = true
          · rw [if_pos hbit] at hget
            exact ⟨entry.1, mem_setBits.mpr ⟨lt_of_testBit_lt hbound hbit, hbit⟩,
              Prod.ext rfl (Option.some.inj hget)⟩
          · rw [if_neg hbit] at hget
            cases hget
        · rintro ⟨h, hmem, rfl⟩
          rw [if_pos (mem_setBits.mp hmem).2]
      · exact ExtTreeMap.ordered_keys_toList.imp fun {a b} hcmp heq => by
          have hlt := compare_lt_iff_lt.mp hcmp
          rw [heq] at hlt
          exact Nat.lt_irrefl _ hlt
      · exact (setBits_nodup 64 range.count).map fun a b heq => congrArg Prod.fst heq
  rw [peakList, hentries, Range.peaks, ← List.map_reverse, List.map_map]
  rfl

/-- An accepted update of a rehydrated state counts the update's leaves. -/
theorem Mmr.applyUpdate_counted {n m : Nat} {peaks subtreePeaks : List Hash} {mmr next : Mmr}
    (hmmr : Mmr.fromState n peaks = .ok mmr) (hm : 1 ≤ m) (hbound : n + m < 2 ^ 64)
    (happly : mmr.applyUpdate keccak256 subtreePeaks m = .ok next) :
    next.leafCount = n + m ∧ next.peakList.length = (peakHeights (n + m)).length := by
  have hpeaks := Mmr.fromState_ok_iff.mp ⟨mmr, hmmr⟩
  rw [peakHeights_eq] at hpeaks
  obtain ⟨peak, hpeak⟩ := exists_peak (List.nodup_reverse.mpr (setBits_nodup 64 n)) hpeaks
  obtain ⟨same, hsame, hrefines⟩ := Mmr.fromState_refines ⟨n, peak⟩ hpeak (by change n < _; omega)
  obtain rfl : mmr = same := Except.ok.inj (hmmr.symm.trans hsame)
  have hlen : subtreePeaks.length = (updateHeights n m).length := by
    by_contra hne
    have hcount : mmr.leafCount = n := hrefines.count
    simp only [applyUpdate, hcount, decompose_eq hm, ok_bind, if_pos hne] at happly
    cases happly
  obtain ⟨updated, hupdated, hnext⟩ := mmr.applyUpdate_refines keccak256 hrefines hm hbound hlen
  obtain rfl : next = updated := Except.ok.inj (happly.symm.trans hupdated)
  have hcount : next.leafCount = n + m := by
    rw [hnext.count, Range.pushAll_count _ _ _ _ hlen, updateHeights_width hbound]
  refine ⟨hcount, ?_⟩
  rw [Mmr.peakList_of_refines hnext (by rw [← hnext.count]; omega), Range.peaks, List.length_map,
    ← hnext.count, hcount, peakHeights_eq]

/-- Two states that refine ranges with the same standing peaks are equal. -/
theorem Mmr.eq_of_refines {first second : Mmr} {range other : Range Hash}
    (hfirst : first.Refines range) (hsecond : second.Refines other)
    (hcount : range.count = other.count)
    (hpeak : ∀ h, range.count.testBit h = true → range.peak h = other.peak h) :
    first = second := by
  have hmaps : first.peaks = second.peaks := by
    apply ExtTreeMap.ext_getElem?
    intro h
    rw [hfirst.peak, hsecond.peak, ← hcount]
    by_cases hbit : range.count.testBit h = true
    · rw [if_pos hbit, if_pos hbit, hpeak h hbit]
    · rw [if_neg hbit, if_neg hbit]
  have hleaves : first.leafCount = second.leafCount := by
    rw [hfirst.count, hsecond.count, hcount]
  cases first
  cases second
  cases hmaps
  cases hleaves
  rfl

theorem Mmr.new_refines (peak : Nat → Hash) : Mmr.new.Refines ⟨0, peak⟩ :=
  ⟨rfl, fun h => by simp [Mmr.new]⟩

end

end Blobsitter.Reference
