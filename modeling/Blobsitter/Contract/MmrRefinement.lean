import Blobsitter.Contract.Mmr
import Blobsitter.Library.Keccak

/-!
# The contract library agrees with the reference crate

Every loop of the Solidity library is matched with its abstract meaning: bit counts,
the decomposition heights, the range that the array by height stands for, and the
climb of an inclusion proof.  The reference crate has the same meanings, so the two
programs return the same values, and none of the library's checks fires.
-/

namespace Blobsitter.Contract.MMR

open Library
open Reference (Chunk Hash updateHeights nextHeight peakHeights Mmr)

theorem and_pred_two_mul (y : Nat) (hpos : y ≠ 0) :
    2 * y &&& (2 * y - 1) = 2 * (y &&& (y - 1)) := by
  apply Nat.eq_of_testBit_eq
  intro i
  have hpred : 2 * y - 1 = 2 * (y - 1) + 1 := by omega
  rw [hpred]
  cases i with
  | zero => simp [Nat.testBit_zero]
  | succ i =>
      rw [Nat.testBit_and, Nat.testBit_succ, Nat.testBit_succ, Nat.testBit_succ,
        Nat.mul_div_cancel_left _ Nat.two_pos, Nat.mul_div_cancel_left _ Nat.two_pos,
        show (2 * (y - 1) + 1) / 2 = y - 1 by omega, Nat.testBit_and]

theorem and_pred_two_mul_add_one (y : Nat) : (2 * y + 1) &&& (2 * y + 1 - 1) = 2 * y := by
  apply Nat.eq_of_testBit_eq
  intro i
  rw [Nat.add_sub_cancel]
  cases i with
  | zero => simp [Nat.testBit_zero]
  | succ i =>
      rw [Nat.testBit_and, Nat.testBit_succ, Nat.testBit_succ,
        show (2 * y + 1) / 2 = y by omega, Nat.mul_div_cancel_left _ Nat.two_pos, Bool.and_self]

/-- Clearing the lowest set bit drops one set bit. -/
theorem bitIndices_and_pred {x : Nat} (hpos : x ≠ 0) :
    (x &&& (x - 1)).bitIndices.length + 1 = x.bitIndices.length := by
  induction x using Nat.strongRecOn with
  | ind x ih =>
      rcases Nat.even_or_odd' x with ⟨y, rfl | rfl⟩
      · have hy : y ≠ 0 := by omega
        rw [and_pred_two_mul y hy, Nat.bitIndices_two_mul, Nat.bitIndices_two_mul,
          List.length_map, List.length_map]
        exact ih y (by omega) hy
      · rw [and_pred_two_mul_add_one, Nat.bitIndices_two_mul, Nat.bitIndices_two_mul_add_one,
          List.length_map, List.length_cons, List.length_map]

theorem peakCountLoop_eq {fuel x count : Nat} (hfuel : x ≤ fuel)
    (hcount : count + x.bitIndices.length < 2 ^ 256) :
    peakCountLoop fuel x count = count + x.bitIndices.length := by
  induction fuel generalizing x count with
  | zero =>
      have hzero : x = 0 := by omega
      subst hzero
      rfl
  | succ fuel ih =>
      by_cases hpos : x = 0
      · subst hpos
        rfl
      · have hclear := bitIndices_and_pred hpos
        have hle : x &&& (x - 1) ≤ x - 1 := Nat.and_le_right
        rw [peakCountLoop, if_pos hpos, wrapAdd_eq (by omega), ih (by omega) (by omega)]
        omega

/-- A word has one peak for each set bit. -/
theorem peakCount_eq {n : Nat} (hn : n < 2 ^ 64) : peakCount n = (setBits 64 n).length := by
  have hlen : n.bitIndices.length ≤ 64 := by
    rw [← setBits_eq_bitIndices hn, setBits]
    exact Nat.le_trans (List.length_filter_le _ _) (by simp)
  rw [peakCount, peakCountLoop_eq (Nat.le_refl n) (by omega), Nat.zero_add,
    setBits_eq_bitIndices hn]

theorem ctzLoop_eq {fuel x t c : Nat} (hfuel : t < fuel) (hc : c + t < 2 ^ 8)
    (hbit : x.testBit t = true) (hbelow : ∀ k < t, x.testBit k = false) :
    ctzLoop fuel x c = c + t := by
  induction fuel generalizing x t c with
  | zero => omega
  | succ fuel ih =>
      rw [ctzLoop, Nat.and_one_is_mod]
      cases t with
      | zero =>
          have hodd : x % 2 = 1 := by simpa [Nat.testBit_zero] using hbit
          rw [if_neg (by omega), Nat.add_zero]
      | succ t =>
          have heven : x % 2 = 0 := by
            have hzero := hbelow 0 (Nat.succ_pos t)
            simpa [Nat.testBit_zero] using hzero
          have hshift : ∀ k, (x >>> 1).testBit k = x.testBit (k + 1) := by
            intro k
            rw [Nat.testBit_shiftRight, Nat.add_comm]
          have hrest := @ih (x >>> 1) t (c + 1) (by omega) (by omega)
            (by rw [hshift]; exact hbit)
            fun k hk => by rw [hshift]; exact hbelow (k + 1) (by omega)
          rw [if_pos heven, wrapAdd_eq (by omega), hrest]
          omega

theorem ctz_eq {x : Nat} (hpos : x ≠ 0) (hx : x < 2 ^ 64) : ctz x = Reference.trailingZeros x := by
  obtain ⟨hbit, hbelow⟩ := Reference.trailingZeros_spec hpos hx
  have hlt := lt_of_testBit_lt hx hbit
  rw [ctz, ctzLoop_eq hlt (by omega) hbit hbelow, Nat.zero_add]

theorem log2Loop_eq {fuel x l : Nat} (hfuel : Nat.log2 x < fuel)
    (hl : l + Nat.log2 x < 2 ^ 8) : log2Loop fuel x l = l + Nat.log2 x := by
  induction fuel generalizing x l with
  | zero => omega
  | succ fuel ih =>
      rw [log2Loop]
      rw [Nat.log2_def] at hfuel hl ⊢
      by_cases hx : 2 ≤ x
      · rw [if_pos hx] at hfuel hl ⊢
        rw [if_pos (show x > 1 from hx), Nat.shiftRight_eq_div_pow, Nat.pow_one,
          wrapAdd_eq (by omega), ih (by omega) (by omega)]
        omega
      · rw [if_neg hx, if_neg (show ¬x > 1 from hx), Nat.add_zero]

theorem log2_eq {x : Nat} (hpos : 0 < x) (hx : x < 2 ^ 64) : log2 x = Nat.log2 x := by
  have hlog := Reference.log2_le_63 hpos hx
  rw [log2, log2Loop_eq (by omega) (by omega), Nat.zero_add]

theorem height_eq_nextHeight {pos remaining : Nat} (hrem : 0 < remaining)
    (hbound : pos + remaining < 2 ^ 64) :
    (if (if pos = 0 then 63 else ctz pos) < log2 remaining then
        (if pos = 0 then 63 else ctz pos) else log2 remaining) = nextHeight pos remaining := by
  have halign : (if pos = 0 then 63 else ctz pos) =
      if pos = 0 then 63 else Reference.trailingZeros pos := by
    by_cases hpos : pos = 0
    · rw [if_pos hpos, if_pos hpos]
    · rw [if_neg hpos, if_neg hpos, ctz_eq hpos (by omega)]
  rw [halign, log2_eq hrem (by omega), Reference.nextHeight_eq_min pos hrem (by omega)]
  generalize (if pos = 0 then 63 else Reference.trailingZeros pos) = align
  split <;> omega

/-- The scratch array is filled from the left with the decomposition heights. -/
theorem decomposeLoop_eq {fuel pos remaining free : Nat} (placed : List Nat)
    (hfuel : remaining ≤ fuel) (hbound : pos + remaining < 2 ^ 64)
    (hroom : (Reference.decomposeLoop fuel pos remaining).length ≤ free)
    (hsize : placed.length + free ≤ 129) :
    decomposeLoop fuel (placed ++ List.replicate free 0) placed.length pos remaining =
      .ok (placed ++ Reference.decomposeLoop fuel pos remaining ++
          List.replicate (free - (Reference.decomposeLoop fuel pos remaining).length) 0,
        placed.length + (Reference.decomposeLoop fuel pos remaining).length) := by
  induction fuel generalizing pos remaining free placed with
  | zero => simp [decomposeLoop, Reference.decomposeLoop]
  | succ fuel ih =>
      by_cases hrem : 0 < remaining
      · have hle := Reference.two_pow_nextHeight_le pos hrem (by omega)
        have hpos := Nat.two_pow_pos (nextHeight pos remaining)
        have h63 := Nat.le_trans (Reference.nextHeight_le_log pos hrem (by omega))
          (Reference.log2_le_63 hrem (by omega))
        rw [Reference.decomposeLoop_succ hrem hbound, List.length_cons] at hroom
        obtain ⟨room, rfl⟩ := Nat.exists_eq_add_of_lt (Nat.lt_of_lt_of_le (Nat.succ_pos _) hroom)
        rw [Nat.zero_add] at hroom hsize ⊢
        have hrest := @ih (pos + 2 ^ nextHeight pos remaining)
          (remaining - 2 ^ nextHeight pos remaining) room
          (placed ++ [nextHeight pos remaining]) (by omega) (by omega) (by omega)
          (by rw [List.length_append, List.length_singleton]; omega)
        rw [List.length_append, List.length_singleton, List.append_assoc, List.singleton_append]
          at hrest
        rw [decomposeLoop, if_pos hrem]
        simp only [height_eq_nextHeight hrem hbound, List.replicate_succ, store_next, bind,
          Except.bind, wrapAdd_eq (show placed.length + 1 < 2 ^ 256 by omega),
          shiftLeft_one (show nextHeight pos remaining < 64 by omega),
          wrapAdd_eq (show pos + 2 ^ nextHeight pos remaining < 2 ^ 64 by omega),
          wrapSub_eq hle (show remaining < 2 ^ 64 by omega), hrest]
        rw [Reference.decomposeLoop_succ hrem hbound, List.length_cons, Nat.add_sub_add_right,
          List.append_assoc, List.append_assoc, List.append_assoc, List.singleton_append,
          List.cons_append, Nat.add_assoc, Nat.add_comm 1]
      · rw [decomposeLoop, if_neg hrem, Reference.decomposeLoop, if_neg hrem]
        simp

theorem copyLoop_eq (heights rest : List Nat) {left : Nat} (done : List Nat)
    (hsplit : ∃ todo, heights = done ++ todo ∧ todo.length = left) :
    copyLoop (heights ++ rest) left done.length (done ++ List.replicate left 0) = .ok heights := by
  induction left generalizing done with
  | zero =>
      obtain ⟨todo, rfl, hlen⟩ := hsplit
      rw [List.eq_nil_of_length_eq_zero hlen]
      rfl
  | succ left ih =>
      obtain ⟨todo, hheights, hlen⟩ := hsplit
      cases todo with
      | nil => cases hlen
      | cons h todo =>
          have hload : load (heights ++ rest) done.length = .ok h := by
            rw [hheights]
            exact load_ok (by simp)
          have hrest := ih (done ++ [h]) ⟨todo, by rw [hheights]; simp, Nat.succ.inj hlen⟩
          rw [List.length_append, List.length_singleton, List.append_assoc,
            List.singleton_append] at hrest
          rw [copyLoop, hload]
          simp only [bind, Except.bind, List.replicate_succ, store_next, hrest]

theorem decompose_eq_heights {n m : Nat} (hbound : n + m < 2 ^ 64) :
    decompose n m = .ok (updateHeights n m) := by
  have hlen := Reference.updateHeights_length_le hbound
  have hloop := @decomposeLoop_eq m n m 129 [] (Nat.le_refl m) hbound
    (Nat.le_trans hlen (by decide)) (by simp)
  have hcopy := copyLoop_eq (updateHeights n m)
    (List.replicate (129 - (updateHeights n m).length) 0) [] ⟨_, rfl, rfl⟩
  rw [List.nil_append, List.nil_append, List.length_nil, Nat.zero_add] at hloop
  rw [decompose, hloop]
  exact hcopy

/-! ## The tight decomposition -/

/-- The heights are the shortest list of aligned perfect trees over the new leaves. -/
structure TightDecomposition (n m : Nat) (heights : List Nat) : Prop where
  width : tileWidth heights = m
  aligned : Tiles n heights
  largest : ∀ k h, heights[k]? = some h →
    IsGreatest {j | 2 ^ j ∣ n + tileWidth (heights.take k) ∧
      2 ^ j ≤ m - tileWidth (heights.take k)} h
  shortest : ∀ other, Tiles n other → tileWidth other = m → heights.length ≤ other.length
  length_le : heights.length ≤ 2 * Nat.clog 2 (m + 1) + 1

theorem updateHeights_tight {n m : Nat} (hbound : n + m < 2 ^ 64) :
    TightDecomposition n m (updateHeights n m) := by
  have hgreedy := Reference.updateHeights_greedy hbound
  have hwidth := Reference.updateHeights_width hbound
  constructor
  · exact hwidth
  · exact hgreedy.tiles
  · intro k h hat
    have hlargest := hgreedy.largest hat
    rw [hwidth] at hlargest
    exact hlargest
  · intro other htiles hother
    exact hgreedy.length_le_of_tiles htiles (hother.trans hwidth.symm)
  · exact (Reference.updateHeights_length_le_clog hbound).trans (Nat.le_succ _)

/-- Both versions return the tight decomposition, none of the words of the loop wraps, and the
scratch array is long enough. -/
theorem decompose_tight {n m : Nat} (hm : 1 ≤ m) (hbound : n + m < 2 ^ 64) :
    (∃ heights, Reference.decompose n m = .ok heights ∧ decompose n m = .ok heights ∧
      TightDecomposition n m heights) ∧
      (∀ pos remaining, Reference.DecomposeReaches n m pos remaining → 0 < remaining →
        pos + 2 ^ nextHeight pos remaining < 2 ^ 64 ∧ 2 ^ nextHeight pos remaining ≤ remaining) ∧
      2 * Nat.clog 2 (m + 1) + 1 ≤ 129 := by
  refine ⟨⟨updateHeights n m, ?_, ?_, ?_⟩, ?_, ?_⟩
  · exact Reference.decompose_eq hm
  · exact decompose_eq_heights hbound
  · exact updateHeights_tight hbound
  · intro pos remaining hreach hrem
    obtain ⟨_, _, _, hsum, _⟩ := hreach.goes_on hbound
    have hle := Reference.two_pow_nextHeight_le pos hrem (by omega)
    exact ⟨by omega, hle⟩
  · have hclog := Reference.clog_le_64 (show m < 2 ^ 64 by omega)
    omega

theorem decompose_tight_three :
    (∃ heights, Reference.decompose 5 3 = .ok heights ∧ decompose 5 3 = .ok heights ∧
      TightDecomposition 5 3 heights) ∧
      (∀ pos remaining, Reference.DecomposeReaches 5 3 pos remaining → 0 < remaining →
        pos + 2 ^ nextHeight pos remaining < 2 ^ 64 ∧ 2 ^ nextHeight pos remaining ≤ remaining) ∧
      2 * Nat.clog 2 (3 + 1) + 1 ≤ 129 :=
  decompose_tight (by decide) (by decide)

/-- The table holds a range's peak at every set bit of the count; other slots may
hold anything. -/
structure TableHolds (byHeight : List Hash) (range : Range Hash) : Prop where
  size : byHeight.length = 64
  peak : ∀ h, range.count.testBit h = true → byHeight[h]? = some (range.peak h)

section

variable (keccak256 : ByteString → Hash)

theorem bit_one_iff (n h : Nat) : (n >>> h) &&& 1 = 1 ↔ n.testBit h = true := by
  rw [← bitSet_eq_testBit, bitSet, beq_iff_eq]

theorem bit_zero_iff (n h : Nat) : (n >>> h) &&& 1 = 0 ↔ n.testBit h = false := by
  rw [Nat.and_one_is_mod, Nat.shiftRight_eq_div_pow, testBit_false_iff_div]

theorem scatterLoop_eq {n : Nat} {peaks : List Hash} {peak : Nat → Hash} {width idx : Nat}
    {byHeight : List Hash} (hsize : byHeight.length = 64) (hwidth : width ≤ 64)
    (hidx : idx + width ≤ 64)
    (hpeaks : peaks.drop idx = (setBits width n).reverse.map peak) :
    ∃ table, scatterLoop n peaks width idx byHeight = .ok table ∧ table.length = 64 ∧
      ∀ k, table[k]? = if k < width ∧ n.testBit k = true then some (peak k) else byHeight[k]? := by
  induction width generalizing idx byHeight with
  | zero => exact ⟨byHeight, rfl, hsize, fun k => by rw [if_neg (by omega)]⟩
  | succ h ih =>
      rw [setBits_succ_reverse] at hpeaks
      rw [scatterLoop]
      by_cases hbit : n.testBit h = true
      · rw [if_pos hbit, List.map_cons] at hpeaks
        have hget : peaks[idx]? = some (peak h) := by
          have hhead := congrArg (fun xs => xs[0]?) hpeaks
          simpa using hhead
        have htail : peaks.drop (idx + 1) = (setBits h n).reverse.map peak := by
          have hdrop := congrArg (List.drop 1) hpeaks
          simpa [List.drop_drop] using hdrop
        obtain ⟨table, hloop, hlen, htable⟩ :=
          @ih (idx + 1) (byHeight.set h (peak h)) (by simpa using hsize) (by omega) (by omega) htail
        refine ⟨table, ?_, hlen, fun k => ?_⟩
        · rw [if_pos ((bit_one_iff n h).mpr hbit), load_ok hget]
          simp only [bind, Except.bind, store_ok (show h < byHeight.length by omega),
            wrapAdd_eq (show idx + 1 < 2 ^ 256 by omega), hloop]
        · rw [htable]
          rcases Nat.lt_trichotomy k h with hlt | rfl | hgt
          · rw [List.getElem?_set_ne (by omega)]
            simp only [hlt, Nat.lt_succ_of_lt hlt, true_and]
          · rw [if_neg (by omega), if_pos ⟨Nat.lt_succ_self k, hbit⟩,
              List.getElem?_set_self (by omega)]
          · rw [if_neg (by omega), if_neg (by omega), List.getElem?_set_ne (by omega)]
      · rw [if_neg hbit] at hpeaks
        obtain ⟨table, hloop, hlen, htable⟩ := @ih idx byHeight hsize (by omega) (by omega) hpeaks
        refine ⟨table, ?_, hlen, fun k => ?_⟩
        · rw [if_neg fun hone => hbit ((bit_one_iff n h).mp hone), hloop]
        · rw [htable]
          by_cases heq : k = h
          · subst heq
            rw [if_neg (by omega), if_neg fun both => hbit both.2]
          · have hlt : k < h ↔ k < h + 1 := by omega
            simp only [hlt]

/-- The carry chain is the abstract carry; it never leaves the table. -/
theorem carryLoop_eq {byHeight : List Hash} {range : Range Hash}
    (hholds : TableHolds byHeight range) (hcount : range.count < 2 ^ 64) {fuel h : Nat}
    (hh : h ≤ 64) (hfuel : 65 ≤ h + fuel) (p : Hash) :
    carryLoop keccak256 range.count byHeight fuel h p =
      .ok (carry (Reference.node keccak256) range.count range.peak h p) := by
  induction fuel generalizing h p with
  | zero => omega
  | succ fuel ih =>
      rw [carryLoop, carry]
      by_cases hbit : range.count.testBit h = true
      · have hlt := lt_of_testBit_lt hcount hbit
        rw [if_pos ((bit_one_iff _ h).mpr hbit), dif_pos hbit, load_ok (hholds.peak h hbit)]
        simp only [bind, Except.bind, wrapAdd_eq (show h + 1 < 2 ^ 8 by omega)]
        exact ih (by omega) (by omega) _
      · rw [if_neg fun hone => hbit ((bit_one_iff _ h).mp hone), dif_neg hbit]

/-- One pass of the merge loop is one push. -/
theorem mergeStep_eq {byHeight : List Hash} {range : Range Hash}
    (hholds : TableHolds byHeight range) {h0 : Nat} (p : Hash) (hdvd : 2 ^ h0 ∣ range.count)
    (hbound : range.count + 2 ^ h0 < 2 ^ 64) :
    carryLoop keccak256 range.count byHeight 65 h0 p =
        .ok (range.restHeight (Reference.node keccak256) h0 p,
          (carry (Reference.node keccak256) range.count range.peak h0 p).2) ∧
      range.restHeight (Reference.node keccak256) h0 p < byHeight.length ∧
      TableHolds (byHeight.set (range.restHeight (Reference.node keccak256) h0 p)
        (carry (Reference.node keccak256) range.count range.peak h0 p).2)
        (range.push (Reference.node keccak256) h0 p) := by
  have hbits := range.push_testBit (Reference.node keccak256) p hdvd
  have hrest : range.restHeight (Reference.node keccak256) h0 p < 64 := by
    apply lt_of_testBit_lt hbound
    have htop := hbits (range.restHeight (Reference.node keccak256) h0 p)
    rwa [if_neg (Nat.lt_irrefl _), if_pos rfl] at htop
  have hh0 : h0 < 64 := by
    by_contra hle
    have hbig : 2 ^ 64 ≤ 2 ^ h0 := Nat.pow_le_pow_right Nat.two_pos (by omega)
    omega
  refine ⟨?_, by rw [hholds.size]; exact hrest, ?_, ?_⟩
  · exact carryLoop_eq keccak256 hholds (by omega) (by omega) (by omega) p
  · rw [List.length_set, hholds.size]
  · intro k hbit
    rcases range.push_peak_of_testBit (Reference.node keccak256) p hdvd hbit with
      ⟨rfl, hpeak⟩ | ⟨hlt, hold, hpeak⟩
    · rw [hpeak, List.getElem?_set_self (by rw [hholds.size]; exact hrest)]
    · rw [hpeak, List.getElem?_set_ne (by omega), hholds.peak k hold]

theorem mergeLoop_eq {subtreePeaks : List Hash} {heights : List Nat} {k : Nat}
    {byHeight : List Hash} {range : Range Hash} (hholds : TableHolds byHeight range)
    (htiles : Tiles range.count heights) (hlen : (subtreePeaks.drop k).length = heights.length)
    (hbound : range.count + tileWidth heights < 2 ^ 64) :
    ∃ table, mergeLoop keccak256 subtreePeaks heights k byHeight range.count =
        .ok (table, (range.pushAll (Reference.node keccak256)
          (heights.zip (subtreePeaks.drop k))).count) ∧
      TableHolds table (range.pushAll (Reference.node keccak256)
        (heights.zip (subtreePeaks.drop k))) := by
  induction heights generalizing k byHeight range with
  | nil => exact ⟨byHeight, rfl, hholds⟩
  | cons h0 heights ih =>
      have hk : k < subtreePeaks.length := by
        rw [List.length_drop, List.length_cons] at hlen
        omega
      obtain ⟨hdvd, hrest⟩ := htiles
      rw [tileWidth_cons] at hbound
      obtain ⟨hcarry, hlt, hnext⟩ :=
        mergeStep_eq keccak256 hholds subtreePeaks[k] hdvd (by omega)
      have hdrop : subtreePeaks.drop k = subtreePeaks[k] :: subtreePeaks.drop (k + 1) :=
        List.drop_eq_getElem_cons hk
      have hh0 : h0 < 64 := by
        by_contra hle
        have hbig : 2 ^ 64 ≤ 2 ^ h0 := Nat.pow_le_pow_right Nat.two_pos (by omega)
        omega
      obtain ⟨table, hloop, htable⟩ := @ih (k + 1) _ _ hnext hrest
        (by rw [hdrop] at hlen; exact Nat.succ.inj hlen)
        (by rw [Range.push_count]; omega)
      rw [hdrop, List.zip_cons_cons, Range.pushAll_cons]
      refine ⟨table, ?_, htable⟩
      rw [mergeLoop, load_ok (List.getElem?_eq_getElem hk)]
      simp only [bind, Except.bind, hcarry, store_ok hlt, shiftLeft_one hh0,
        wrapAdd_eq (show range.count + 2 ^ h0 < 2 ^ 64 by omega)]
      exact hloop

theorem gatherLoop_eq {byHeight : List Hash} {range : Range Hash}
    (hholds : TableHolds byHeight range) {width : Nat} (done : List Hash)
    (hdone : done.length + width ≤ 64) :
    gatherLoop range.count byHeight width done.length
        (done ++ List.replicate (setBits width range.count).length default) =
      .ok (done ++ range.peaks width) := by
  induction width generalizing done with
  | zero => simp [gatherLoop, Range.peaks, setBits]
  | succ h ih =>
      have hlen : (setBits (h + 1) range.count).length =
          (setBits (h + 1) range.count).reverse.length := by
        rw [List.length_reverse]
      rw [gatherLoop, Range.peaks, hlen, setBits_succ_reverse]
      by_cases hbit : range.count.testBit h = true
      · have hrest := ih (done ++ [range.peak h])
          (by rw [List.length_append, List.length_singleton]; omega)
        rw [List.length_append, List.length_singleton, List.append_assoc, List.singleton_append,
          List.append_assoc, List.singleton_append] at hrest
        rw [if_pos ((bit_one_iff _ h).mpr hbit), if_pos hbit, load_ok (hholds.peak h hbit),
          List.length_cons, List.length_reverse, List.replicate_succ]
        simp only [bind, Except.bind, store_next,
          wrapAdd_eq (show done.length + 1 < 2 ^ 256 by omega), hrest]
        rfl
      · rw [if_neg fun hone => hbit ((bit_one_iff _ h).mp hone), if_neg hbit, List.length_reverse]
        exact ih done (by omega)

/-- The library's update follows the abstract range from any peak list. -/
theorem applyUpdate_eq_range {range : Range Hash} {peaks subtreePeaks : List Hash} {m : Nat}
    (hpeaks : peaks = range.peaks 64) (hbound : range.count + m < 2 ^ 64)
    (hlen : subtreePeaks.length = (updateHeights range.count m).length) :
    applyUpdate keccak256 peaks range.count subtreePeaks (updateHeights range.count m) =
      .ok ((range.pushAll (Reference.node keccak256)
          ((updateHeights range.count m).zip subtreePeaks)).peaks 64,
        (range.pushAll (Reference.node keccak256)
          ((updateHeights range.count m).zip subtreePeaks)).count) := by
  have hwidth := Reference.updateHeights_width hbound
  obtain ⟨table, hscatter, hsize, htable⟩ := @scatterLoop_eq range.count peaks range.peak 64 0
    (List.replicate 64 default) (by simp) (Nat.le_refl _) (by simp) hpeaks
  have hholds : TableHolds table range := by
    refine ⟨hsize, fun h hbit => ?_⟩
    rw [htable, if_pos ⟨lt_of_testBit_lt (by omega) hbit, hbit⟩]
  obtain ⟨merged, hmerge, hmerged⟩ := @mergeLoop_eq keccak256 subtreePeaks _ 0 _ _ hholds
    (Reference.updateHeights_tiles hbound) hlen (by rw [hwidth]; exact hbound)
  rw [List.drop_zero] at hmerge hmerged
  have hcount : (range.pushAll (Reference.node keccak256)
      ((updateHeights range.count m).zip subtreePeaks)).count < 2 ^ 64 := by
    rw [Range.pushAll_count _ _ _ _ hlen, hwidth]
    exact hbound
  have hgather := @gatherLoop_eq _ _ hmerged 64 [] (by simp)
  rw [List.nil_append, List.nil_append, List.length_nil, ← peakCount_eq hcount] at hgather
  simp only [applyUpdate, hscatter, hmerge, hgather, bind, Except.bind, pure, Except.pure]

/-! ## Inclusion proofs -/

theorem leafHash_eq (chunk : Chunk) : leafHash keccak256 chunk = Reference.leaf keccak256 chunk :=
  rfl

theorem bagRoot_eq (n : Nat) (peaks : List Hash) :
    bagRoot keccak256 n peaks = Reference.root keccak256 n peaks := rfl

/-- Skipping clear bits is walking the list of set bits. -/
theorem locateLoop_eq {n i : Nat} (hn : n < 2 ^ 64) (hi : i < n) {width k : Nat}
    (hk : k + width ≤ 64) (hwidth : width ≤ 64) (hlo : blockStart n width ≤ i) :
    ∃ found, locateLoop i n width k (blockStart n width) = .ok found ∧
      Reference.locateLoop i (setBits width n).reverse k (blockStart n width) = .ok found := by
  induction width generalizing k with
  | zero =>
      unfold blockStart at hlo
      rw [Nat.pow_zero, Nat.div_one, Nat.mul_one] at hlo
      omega
  | succ h ih =>
      rw [locateLoop, setBits_succ_reverse]
      cases hbit : n.testBit h with
      | false =>
          have hsame := blockStart_of_not_testBit hbit
          rw [if_pos ((bit_zero_iff n h).mpr hbit), if_neg Bool.false_ne_true, ← hsame]
          exact ih (by omega) (by omega) (by rw [hsame]; exact hlo)
      | true =>
          have hnext := blockStart_of_testBit hbit
          have hle := blockStart_succ_add_le hbit
          have hset : ¬(n >>> h) &&& 1 = 0 := by
            rw [bit_zero_iff, hbit]
            exact Bool.true_eq_false.mp
          rw [if_neg hset, if_pos rfl, Reference.locateLoop]
          simp only [shiftLeft_one (show h < 64 by omega), bind, Except.bind, pure, Except.pure,
            checkedAdd_ok (show blockStart n (h + 1) + 2 ^ h < 2 ^ 64 by omega),
            wrapAdd_eq (show blockStart n (h + 1) + 2 ^ h < 2 ^ 64 by omega),
            wrapAdd_eq (show k + 1 < 2 ^ 256 by omega)]
          by_cases hin : i < blockStart n (h + 1) + 2 ^ h
          · rw [if_pos hin, if_pos hin]
            exact ⟨_, rfl, rfl⟩
          · rw [if_neg hin, if_neg hin, ← hnext]
            exact ih (by omega) (by omega) (by omega)

theorem locate_eq {n i : Nat} (hn : n < 2 ^ 64) (hi : i < n) :
    ∃ found, locate i n = .ok found ∧ Reference.locate i n = .ok found := by
  have htop := Reference.blockStart_width hn
  obtain ⟨found, hours, htheirs⟩ := @locateLoop_eq n i hn hi 64 0 (Nat.le_refl _) (Nat.le_refl _)
    (by rw [htop]; exact Nat.zero_le _)
  rw [htop] at hours htheirs
  refine ⟨found, hours, ?_⟩
  rw [Reference.locate, if_pos hi, Reference.peakHeights_eq, htheirs]

theorem climbLoop_eq (off : Nat) (path : List Hash) {left lvl : Nat} (acc : Hash)
    (hlen : (path.drop lvl).length = left) :
    climbLoop keccak256 off path left lvl acc =
      .ok (climb (Reference.node keccak256) (off / 2 ^ lvl) acc (path.drop lvl)) := by
  induction left generalizing lvl acc with
  | zero =>
      rw [List.eq_nil_of_length_eq_zero hlen]
      rfl
  | succ left ih =>
      have hlvl : lvl < path.length := by
        rw [List.length_drop] at hlen
        omega
      have hdrop : path.drop lvl = path[lvl] :: path.drop (lvl + 1) :=
        List.drop_eq_getElem_cons hlvl
      rw [hdrop] at hlen ⊢
      rw [climbLoop, load_ok (List.getElem?_eq_getElem hlvl)]
      simp only [bind, Except.bind]
      rw [ih _ (Nat.succ.inj hlen), climb_cons, joinSibling, div_two_pow_succ,
        Nat.and_one_is_mod, Nat.shiftRight_eq_div_pow]
      rfl

/-- Both verifiers return one boolean, whatever the lengths of path and peak list. -/
theorem verify_eq (chunk : Chunk) {i n : Nat} (path peaks : List Hash) (hn : n < 2 ^ 64) :
    ∃ accepted, verify keccak256 chunk i path n peaks = .ok accepted ∧
      Reference.verify keccak256 chunk i path n peaks = .ok accepted := by
  by_cases hi : i < n
  · obtain ⟨k, start, h, hlocate, hcovers, hverify⟩ :=
      Reference.verify_spec keccak256 chunk path peaks hi hn
    obtain ⟨found, hours, htheirs⟩ := locate_eq hn hi
    rw [hlocate] at htheirs
    cases htheirs
    refine ⟨_, ?_, hverify⟩
    have hcount : (peakHeights n).length = peakCount n := by
      rw [Reference.peakHeights_eq, List.length_reverse, peakCount_eq hn]
    rw [hcount]
    unfold verify
    by_cases hpeaks : peaks.length = peakCount n
    · have hk : k < peaks.length := by
        rw [hpeaks, ← hcount]
        exact (List.getElem?_eq_some_iff.mp hcovers.index).1
      rw [if_neg (by omega)]
      simp only [hours, bind, Except.bind, pure, Except.pure]
      by_cases hpath : path.length = h
      · have hclimb := climbLoop_eq keccak256 (i - start) path (leafHash keccak256 chunk)
          (show (path.drop 0).length = h from hpath)
        rw [Nat.pow_zero, Nat.div_one, List.drop_zero, leafHash_eq] at hclimb
        rw [if_neg (not_not_intro hpath), checkedSub_ok hcovers.lower]
        simp only [leafHash_eq, hclimb, load_ok (List.getElem?_eq_getElem hk), hpath, hpeaks,
          true_and, List.getElem?_eq_getElem hk, Option.some.injEq, beq_eq_decide]
      · rw [if_pos hpath, decide_eq_false fun all => hpath all.1]
    · rw [if_pos (Or.inr hpeaks), decide_eq_false fun all => hpeaks all.2.1]
      rfl
  · refine ⟨false, ?_, Reference.verify_of_le keccak256 chunk path peaks (by omega)⟩
    rw [verify, if_pos (Or.inl (by omega))]
    rfl

/-- On every input of the domain the library returns what the reference crate
returns: decompositions, updates by arbitrary hashes, located peaks and verdicts. -/
theorem library_eq_reference :
    (∀ n m : Nat, 1 ≤ m → n + m < 2 ^ 64 →
      ∃ heights, decompose n m = .ok heights ∧ Reference.decompose n m = .ok heights) ∧
    (∀ (n m : Nat) (peaks subtreePeaks : List Hash) (heights : List Nat),
      1 ≤ m → n + m < 2 ^ 64 → peaks.length = n.bitIndices.length →
      decompose n m = .ok heights → subtreePeaks.length = heights.length →
      ∃ mmr next, Mmr.fromState n peaks = .ok mmr ∧
        mmr.applyUpdate keccak256 subtreePeaks m = .ok next ∧
        applyUpdate keccak256 peaks n subtreePeaks heights =
          .ok (next.peakList, next.leafCount)) ∧
    (∀ i n : Nat, i < n → n < 2 ^ 64 →
      ∃ found, locate i n = .ok found ∧ Reference.locate i n = .ok found) ∧
    (∀ (chunk : Chunk) (i : Nat) (path : List Hash) (n : Nat) (peaks : List Hash),
      i < 2 ^ 64 → n < 2 ^ 64 →
      ∃ accepted, verify keccak256 chunk i path n peaks = .ok accepted ∧
        Reference.verify keccak256 chunk i path n peaks = .ok accepted) := by
  refine ⟨?_, ?_, fun i n hi hn => locate_eq hn hi, fun chunk i path n peaks _ hn =>
    verify_eq keccak256 chunk path peaks hn⟩
  · intro n m hm hbound
    exact ⟨_, decompose_eq_heights hbound, Reference.decompose_eq hm⟩
  · intro n m peaks subtreePeaks heights hm hbound hpeaks hheights hlen
    rw [decompose_eq_heights hbound] at hheights
    cases hheights
    have hcount : peaks.length = (setBits 64 n).reverse.length := by
      rw [hpeaks, List.length_reverse, setBits_eq_bitIndices (by omega)]
    obtain ⟨peak, hpeak⟩ :=
      exists_peak (List.nodup_reverse.mpr (setBits_nodup 64 n)) hcount
    obtain ⟨mmr, hmmr, hrefines⟩ := Mmr.fromState_refines ⟨n, peak⟩ hpeak
      (Nat.lt_of_le_of_lt (Nat.le_add_right n m) hbound)
    obtain ⟨next, happly, hnext⟩ := mmr.applyUpdate_refines keccak256 hrefines hm hbound hlen
    refine ⟨mmr, next, hmmr, happly, ?_⟩
    have hlibrary := @applyUpdate_eq_range keccak256 ⟨n, peak⟩ _ _ _ hpeak hbound hlen
    have hfits : (Range.pushAll (Reference.node keccak256) ⟨n, peak⟩
        ((updateHeights n m).zip subtreePeaks)).count < 2 ^ 64 := by
      rw [Range.pushAll_count _ _ _ _ hlen, Reference.updateHeights_width hbound]
      exact hbound
    rw [Mmr.peakList_of_refines hnext hfits, hnext.count]
    exact hlibrary

end

/-- A merge that carries: one leaf after three, and the proof of its own leaf. -/
theorem library_eq_reference_three :
    (∃ heights, decompose 3 1 = .ok heights ∧ Reference.decompose 3 1 = .ok heights) ∧
      (∃ mmr next, Mmr.fromState 3 [beWord 32 1, beWord 32 2] = .ok mmr ∧
        mmr.applyUpdate Keccak.keccak256 [beWord 32 3] 1 = .ok next ∧
        applyUpdate Keccak.keccak256 [beWord 32 1, beWord 32 2] 3 [beWord 32 3] [0] =
          .ok (next.peakList, next.leafCount)) ∧
      (∃ found, locate 2 3 = .ok found ∧ Reference.locate 2 3 = .ok found) ∧
      ∃ accepted, verify Keccak.keccak256 (beWord 31 7) 2 [] 3 [beWord 32 1, beWord 32 2] =
          .ok accepted ∧
        Reference.verify Keccak.keccak256 (beWord 31 7) 2 [] 3 [beWord 32 1, beWord 32 2] =
          .ok accepted := by
  obtain ⟨hdecompose, happly, hlocate, hverify⟩ := library_eq_reference Keccak.keccak256
  exact ⟨hdecompose 3 1 (by decide) (by decide),
    happly 3 1 _ _ [0] (by decide) (by decide) (by decide) (by decide +kernel) (by decide),
    hlocate 2 3 (by decide) (by decide), hverify _ 2 _ 3 _ (by decide) (by decide)⟩

end Blobsitter.Contract.MMR
