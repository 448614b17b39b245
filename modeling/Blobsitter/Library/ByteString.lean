import Mathlib.Data.Vector.Basic
import Mathlib.Data.List.Basic
import Mathlib.Tactic.Ring

/-!
# Byte strings of fixed width

Fixed-width words are byte vectors; integers are encoded in them big-endian.
Concatenations of fixed-width fields can be taken apart again, which is all the
injectivity that unprefixed preimages rely on.
-/

namespace Blobsitter.Library

abbrev ByteString := List UInt8

/-- Big-endian encoding of `n` in `width` bytes; higher bits are cut off. -/
def beBytes : Nat → Nat → ByteString
  | 0, _ => []
  | width + 1, n => UInt8.ofNat (n / 256 ^ width) :: beBytes width n

/-- Reads a byte string as a big-endian integer. -/
def beNat (bytes : ByteString) : Nat := bytes.foldl (fun acc byte => acc * 256 + byte.toNat) 0

@[simp]
theorem beBytes_length (width n : Nat) : (beBytes width n).length = width := by
  induction width with
  | zero => rfl
  | succ width ih => simp only [beBytes, List.length_cons, ih]

theorem beNat_foldl (bytes : ByteString) (start : Nat) :
    bytes.foldl (fun acc byte => acc * 256 + byte.toNat) start =
      start * 256 ^ bytes.length + beNat bytes := by
  induction bytes generalizing start with
  | nil => simp [beNat]
  | cons byte rest ih =>
      simp only [List.foldl_cons, List.length_cons, beNat]
      rw [ih, ih (0 * 256 + byte.toNat)]
      ring

theorem beNat_cons (byte : UInt8) (rest : ByteString) :
    beNat (byte :: rest) = byte.toNat * 256 ^ rest.length + beNat rest := by
  unfold beNat
  rw [List.foldl_cons, beNat_foldl]
  simp [beNat]

theorem beNat_beBytes_mod (width n : Nat) : beNat (beBytes width n) = n % 256 ^ width := by
  induction width with
  | zero => simp [beBytes, beNat, Nat.mod_one]
  | succ width ih =>
      have hsplit : n % 256 ^ (width + 1) = n % 256 ^ width + 256 ^ width * (n / 256 ^ width % 256) := by
        rw [Nat.pow_succ, Nat.mod_mul]
      rw [beBytes, beNat_cons, ih, beBytes_length, UInt8.toNat_ofNat', hsplit]
      ring

/-- Decoding undoes encoding for every integer that fits. -/
theorem beNat_beBytes {width n : Nat} (hfits : n < 256 ^ width) :
    beNat (beBytes width n) = n := by
  rw [beNat_beBytes_mod, Nat.mod_eq_of_lt hfits]

theorem beBytes_inj {width first second : Nat} (hfirst : first < 256 ^ width)
    (hsecond : second < 256 ^ width) (heq : beBytes width first = beBytes width second) :
    first = second := by
  rw [← beNat_beBytes hfirst, ← beNat_beBytes hsecond, heq]

theorem beNat_lt (bytes : ByteString) : beNat bytes < 256 ^ bytes.length := by
  induction bytes with
  | nil => simp [beNat]
  | cons byte rest ih =>
      rw [beNat_cons, List.length_cons, Nat.pow_succ]
      have hbyte : byte.toNat + 1 ≤ 256 := byte.toNat_lt
      have hstep := Nat.mul_le_mul_right (256 ^ rest.length) hbyte
      rw [Nat.add_mul, Nat.one_mul] at hstep
      omega

/-- A wider encoding starts with zero bytes. -/
theorem beBytes_padded {width n : Nat} (hfits : n < 256 ^ width) (zeros : Nat) :
    beBytes (zeros + width) n = List.replicate zeros 0 ++ beBytes width n := by
  induction zeros with
  | zero => rw [Nat.zero_add, List.replicate_zero, List.nil_append]
  | succ zeros ih =>
      have hhigh : n / 256 ^ (zeros + width) = 0 := by
        refine Nat.div_eq_of_lt (hfits.trans_le ?_)
        exact Nat.pow_le_pow_right (by decide) (Nat.le_add_left _ _)
      rw [Nat.succ_add, beBytes, hhigh, ih, List.replicate_succ, List.cons_append]
      rfl

/-- Encoding undoes decoding for every byte string of the width. -/
theorem beBytes_beNat (bytes : ByteString) : beBytes bytes.length (beNat bytes) = bytes := by
  induction bytes with
  | nil => rfl
  | cons byte rest ih =>
      have htail : beBytes rest.length (beNat (byte :: rest)) = beBytes rest.length (beNat rest) := by
        have hmod : ∀ w n m, n % 256 ^ w = m % 256 ^ w → beBytes w n = beBytes w m := by
          intro w
          induction w with
          | zero => intros; rfl
          | succ w ihw =>
              intro n m hnm
              have hlow : n % 256 ^ w = m % 256 ^ w := by
                have h := congrArg (· % 256 ^ w) hnm
                rwa [Nat.pow_succ, Nat.mod_mul_right_mod, Nat.mod_mul_right_mod] at h
              have hhigh : n / 256 ^ w % 256 = m / 256 ^ w % 256 := by
                rw [Nat.pow_succ, Nat.mod_mul, Nat.mod_mul, hlow] at hnm
                exact Nat.eq_of_mul_eq_mul_left (Nat.pow_pos (by omega)) (Nat.add_left_cancel hnm)
              simp only [beBytes, ihw n m hlow]
              congr 1
              rw [← UInt8.toNat_inj, UInt8.toNat_ofNat', UInt8.toNat_ofNat']
              exact hhigh
        apply hmod
        rw [beNat_cons, Nat.mul_add_mod_self_right, Nat.mod_eq_of_lt (beNat_lt rest)]
      have hhead : beNat (byte :: rest) / 256 ^ rest.length = byte.toNat := by
        rw [beNat_cons, Nat.mul_comm, Nat.mul_add_div (Nat.pow_pos (by omega)),
          Nat.div_eq_of_lt (beNat_lt rest), Nat.add_zero]
      rw [List.length_cons, beBytes, hhead, htail, ih]
      simp

/-- A word of exactly `width` bytes. -/
abbrev Word (width : Nat) := Vector UInt8 width

/-- The word that encodes `n` big-endian. -/
def beWord (width n : Nat) : Word width :=
  ⟨(beBytes width n).toArray, by simp⟩

@[simp]
theorem beWord_toList (width n : Nat) : (beWord width n).toList = beBytes width n := by
  simp [beWord, Vector.toList]

/-- The big-endian integer in a word. -/
def wordNat {width : Nat} (word : Word width) : Nat := beNat word.toList

theorem wordNat_lt {width : Nat} (word : Word width) : wordNat word < 256 ^ width := by
  have hlt := beNat_lt word.toList
  rwa [Vector.length_toList] at hlt

theorem wordNat_beWord {width n : Nat} (hfits : n < 256 ^ width) :
    wordNat (beWord width n) = n := by
  rw [wordNat, beWord_toList, beNat_beBytes hfits]

theorem word_ext {width : Nat} {first second : Word width}
    (heq : first.toList = second.toList) : first = second := Vector.toList_inj.mp heq

theorem beWord_ne {width a b : Nat} (ha : a < 256 ^ width) (hb : b < 256 ^ width) (hne : a ≠ b) :
    beWord width a ≠ beWord width b := by
  intro heq
  rw [← wordNat_beWord ha, ← wordNat_beWord hb, heq] at hne
  exact hne rfl

theorem beWord_wordNat {width : Nat} (word : Word width) : beWord width (wordNat word) = word := by
  apply word_ext
  have h := beBytes_beNat word.toList
  rwa [Vector.length_toList, ← beWord_toList] at h

/-- The word with these bytes, as a slice of known length is turned into an array. -/
def wordOf (width : Nat) (bytes : ByteString) : Word width :=
  Vector.ofFn fun i : Fin width => bytes.getD i 0

theorem wordOf_toList {width : Nat} {bytes : ByteString} (hlen : bytes.length = width) :
    (wordOf width bytes).toList = bytes := by
  apply List.ext_getElem
  · rw [Vector.length_toList, hlen]
  · intro i hi hi'
    simp only [wordOf, Vector.getElem_toList, Vector.getElem_ofFn]
    rw [List.getD_eq_getElem?_getD, List.getElem?_eq_getElem hi', Option.getD_some]

theorem toList_wordOf {width : Nat} (word : Word width) : wordOf width word.toList = word :=
  word_ext (wordOf_toList Vector.length_toList)

/-! ## Concatenations -/

/-- Words one after another. -/
def packWords {width : Nat} (words : List (Word width)) : ByteString :=
  words.flatMap Vector.toList

@[simp]
theorem packWords_nil {width : Nat} : packWords ([] : List (Word width)) = [] := rfl

@[simp]
theorem packWords_cons {width : Nat} (word : Word width) (rest : List (Word width)) :
    packWords (word :: rest) = word.toList ++ packWords rest := rfl

@[simp]
theorem packWords_append {width : Nat} (first second : List (Word width)) :
    packWords (first ++ second) = packWords first ++ packWords second :=
  List.flatMap_append

@[simp]
theorem packWords_length {width : Nat} (words : List (Word width)) :
    (packWords words).length = width * words.length := by
  induction words with
  | nil => rfl
  | cons word rest ih =>
      rw [packWords_cons, List.length_append, ih, Vector.length_toList, List.length_cons]
      ring

/-- Fixed-width words are recovered from their concatenation. -/
theorem packWords_inj {width : Nat} {first second : List (Word width)}
    (hlen : first.length = second.length) (heq : packWords first = packWords second) :
    first = second := by
  induction first generalizing second with
  | nil => exact (List.eq_nil_of_length_eq_zero hlen.symm).symm
  | cons word rest ih =>
      cases second with
      | nil => cases hlen
      | cons other tail =>
          obtain ⟨hhead, htail⟩ := List.append_inj heq (by simp)
          rw [word_ext hhead, ih (Nat.succ.inj hlen) htail]

/-- Nonempty words of one width determine their number, too. -/
theorem packWords_inj_of_pos {width : Nat} {first second : List (Word width)} (hpos : 0 < width)
    (heq : packWords first = packWords second) : first = second := by
  have hlen := congrArg List.length heq
  rw [packWords_length, packWords_length] at hlen
  exact packWords_inj (Nat.eq_of_mul_eq_mul_left hpos hlen) heq

/-- Word `i` of a concatenation. -/
theorem packWords_slice {width : Nat} {words : List (Word width)} {i : Nat} {word : Word width}
    (hword : words[i]? = some word) : ((packWords words).drop (i * width)).take width =
      word.toList := by
  induction words generalizing i with
  | nil => cases hword
  | cons first rest ih =>
      have hlen : first.toList.length = width := Vector.length_toList
      cases i with
      | zero =>
          obtain rfl := Option.some.inj hword
          rw [Nat.zero_mul, List.drop_zero, packWords_cons, List.take_left' hlen]
      | succ i =>
          rw [packWords_cons, Nat.succ_mul, Nat.add_comm, ← List.drop_drop, List.drop_left' hlen]
          exact ih hword

/-- `chunks_exact`: the whole words of a byte string. -/
def splitWords (width : Nat) (bytes : ByteString) : List (Word width) :=
  (List.range (bytes.length / width)).map fun i => wordOf width ((bytes.drop (i * width)).take width)

theorem splitWords_packWords {width : Nat} (hpos : 0 < width) (words : List (Word width)) :
    splitWords width (packWords words) = words := by
  have hcount : (packWords words).length / width = words.length := by
    rw [packWords_length, Nat.mul_div_cancel_left _ hpos]
  apply List.ext_getElem?
  intro i
  rw [splitWords, List.getElem?_map, hcount]
  cases hword : words[i]? with
  | none =>
      rw [List.getElem?_eq_none (by rw [List.length_range]; exact List.getElem?_eq_none_iff.mp hword)]
      rfl
  | some word =>
      have hi := (List.getElem?_eq_some_iff.mp hword).1
      rw [List.getElem?_range hi, Option.map_some, packWords_slice hword, toList_wordOf]

theorem packWords_splitWords {width count : Nat} (hpos : 0 < width) {bytes : ByteString}
    (hlen : bytes.length = width * count) : packWords (splitWords width bytes) = bytes := by
  have hcount : bytes.length / width = count := by rw [hlen, Nat.mul_div_cancel_left _ hpos]
  rw [splitWords, hcount]
  clear hcount
  induction count generalizing bytes with
  | zero => exact (List.eq_nil_of_length_eq_zero hlen).symm
  | succ count ih =>
      have hrest : (bytes.drop width).length = width * count := by
        rw [List.length_drop, hlen, Nat.mul_succ, Nat.add_sub_cancel]
      have hfirst : (bytes.take width).length = width := by
        rw [List.length_take, hlen, Nat.mul_succ]
        omega
      have hshift : ∀ i, (bytes.drop (width + i * width)) = (bytes.drop width).drop (i * width) :=
        fun i => (List.drop_drop ..).symm
      rw [List.range_succ_eq_map, List.map_cons, List.map_map, packWords_cons, Nat.zero_mul,
        List.drop_zero, wordOf_toList hfirst]
      simp only [Function.comp_def, Nat.succ_mul, Nat.add_comm _ width, hshift]
      rw [ih hrest, List.take_append_drop]

theorem splitWords_length {width count : Nat} (hpos : 0 < width) {bytes : ByteString}
    (hlen : bytes.length = width * count) : (splitWords width bytes).length = count := by
  rw [splitWords, List.length_map, List.length_range, hlen, Nat.mul_div_cancel_left _ hpos]

theorem byteArray_loop_eq (bytes : ByteArray) (i : Nat) (read : List UInt8) :
    ByteArray.toList.loop bytes i read = read.reverse ++ bytes.data.toList.drop i := by
  fun_induction ByteArray.toList.loop bytes i read with
  | case1 i read hlt ih =>
      have hdata : i < bytes.data.toList.length := hlt
      have hread : bytes.get! i = bytes.data.toList[i] := getElem!_pos bytes.data i hlt
      rw [ih, List.drop_eq_getElem_cons hdata, List.reverse_cons, List.append_assoc, hread]
      rfl
  | case2 i read hge =>
      have hdata : bytes.data.toList.length ≤ i := Nat.le_of_not_lt hge
      rw [List.drop_eq_nil_of_le hdata, List.append_nil]

/-- Different texts have different bytes. -/
theorem toUTF8_toList_inj {text other : String} (hbytes : text.toUTF8.toList = other.toUTF8.toList) :
    text = other := by
  unfold ByteArray.toList at hbytes
  rw [byteArray_loop_eq, byteArray_loop_eq, List.reverse_nil, List.nil_append, List.nil_append,
    List.drop_zero, List.drop_zero] at hbytes
  exact String.toByteArray_inj.mp (ByteArray.ext (Array.toList_inj.mp hbytes))

end Blobsitter.Library
