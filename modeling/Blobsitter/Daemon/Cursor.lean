import Blobsitter.Daemon.Persist

/-!
# Scan cursors

Each scan keeps the last block it is done with in a small text file of its own.  The file
is written in place: a write that stops leaves the first digits of the number, and these
are a smaller number.  Both scans share the size of their pages.
-/

namespace Blobsitter.Daemon

/-- `char::is_whitespace`, the property `White_Space`. -/
def isWhitespace (c : Char) : Bool :=
  let n := c.toNat
  (0x09 ≤ n && n ≤ 0x0d) || n == 0x20 || n == 0x85 || n == 0xa0 || n == 0x1680 ||
    (0x2000 ≤ n && n ≤ 0x200a) || n == 0x2028 || n == 0x2029 || n == 0x202f || n == 0x205f ||
    n == 0x3000

def trim (text : List Char) : List Char :=
  ((text.dropWhile isWhitespace).reverse.dropWhile isWhitespace).reverse

/-- The characters after a sign. -/
def unsigned : List Char → List Char
  | '+' :: rest => rest
  | text => text

/-- The digits from the left; the first that is none, or that is one too many, ends it. -/
def parseDigits : List Char → Nat → Except String Nat
  | [], value => .ok value
  | c :: rest, value =>
      if c.isDigit = false then .error "invalid digit found in string"
      else if 10 * value + (c.toNat - '0'.toNat) < 2 ^ 64 then
        parseDigits rest (10 * value + (c.toNat - '0'.toNat))
      else .error "number too large to fit in target type"

/-- `str::parse::<u64>`. -/
def parseU64 (text : List Char) : Except String Nat :=
  if text = [] then .error "cannot parse integer from empty string"
  else if unsigned text = [] then .error "invalid digit found in string"
  else parseDigits (unsigned text) 0

/-- `load_cursor`: a file that is not there stands for the floor. -/
def loadCursor (floor : Nat) : Option (List Char) → Except String Nat
  | none => .ok floor
  | some text => (parseU64 (trim text)).mapError ("cursor file error: " ++ ·)

/-- `block.to_string()`. -/
def cursorText (block : Nat) : List Char := Nat.toDigits 10 block

/-- One `fs::write` of a cursor.  It completes; it fails before or after it has emptied the
file; or the process dies inside it with the first characters written. -/
inductive CursorWrite where
  | completes
  | refused
  | emptied
  | dies (kept : Nat)
  deriving DecidableEq

/-- The file after the write. -/
def CursorWrite.left (file : Option (List Char)) (block : Nat) : CursorWrite → Option (List Char)
  | .completes => some (cursorText block)
  | .refused => file
  | .emptied => some []
  | .dies kept => some ((cursorText block).take kept)

/-- The page size after a page that was answered. -/
def grownPage (logPage currentPage : Nat) : Nat := min (currentPage * 2) logPage

/-- The page size after a page that was refused. -/
def shrunkPage (currentPage : Nat) : Nat := max (currentPage / 2) 1

section

variable {text : List Char} {floor block kept value : Nat}

theorem isWhitespace_of_digit {c : Char} (hdigit : c.isDigit = true) : isWhitespace c = false := by
  simp only [Char.isDigit, Bool.and_eq_true, decide_eq_true_eq] at hdigit
  have hlow : 48 ≤ c.toNat := hdigit.1
  have hhigh : c.toNat ≤ 57 := hdigit.2
  simp only [isWhitespace, Bool.or_eq_false_iff, Bool.and_eq_false_iff, decide_eq_false_iff_not,
    beq_eq_false_iff_ne]
  omega

theorem trim_of_digits (hdigits : ∀ c ∈ text, c.isDigit = true) : trim text = text := by
  have hdrop : ∀ chars : List Char, (∀ c ∈ chars, c ∈ text) →
      chars.dropWhile isWhitespace = chars := by
    intro chars hsub
    cases chars with
    | nil => rfl
    | cons c rest =>
        rw [List.dropWhile_cons_of_neg]
        rw [isWhitespace_of_digit (hdigits c (hsub c List.mem_cons_self))]
        exact Bool.false_ne_true
  rw [trim, hdrop text fun _ hmem => hmem,
    hdrop text.reverse fun _ hmem => List.mem_reverse.mp hmem, List.reverse_reverse]

/-- More digits make no smaller number. -/
theorem le_ofDigitChars (text : List Char) (value : Nat) : value ≤ Nat.ofDigitChars 10 text value := by
  rw [Nat.ofDigitChars_eq_ofDigitChars_zero]
  calc value ≤ 10 ^ text.length * value := Nat.le_mul_of_pos_left _ (Nat.pow_pos (by decide))
    _ ≤ _ := Nat.le_add_right _ _

theorem parseDigits_digits {text : List Char} (hdigits : ∀ c ∈ text, c.isDigit = true)
    (hfits : value < 2 ^ 64) :
    parseDigits text value =
      if Nat.ofDigitChars 10 text value < 2 ^ 64 then .ok (Nat.ofDigitChars 10 text value)
      else .error "number too large to fit in target type" := by
  induction text generalizing value with
  | nil => exact (if_pos hfits).symm
  | cons c rest ih =>
      have hdigit : ¬c.isDigit = false := by
        rw [hdigits c List.mem_cons_self]
        decide
      rw [parseDigits, if_neg hdigit, Nat.ofDigitChars_cons]
      split
      · rename_i hnext
        exact ih (fun d hmem => hdigits d (List.mem_cons_of_mem c hmem)) hnext
      · rename_i hover
        rw [if_neg]
        intro hlt
        exact hover ((le_ofDigitChars rest _).trans_lt hlt)

/-- Digits are read as the number they write. -/
theorem parseU64_digits (hdigits : ∀ c ∈ text, c.isDigit = true) (hne : text ≠ []) :
    parseU64 text =
      if Nat.ofDigitChars 10 text 0 < 2 ^ 64 then .ok (Nat.ofDigitChars 10 text 0)
      else .error "number too large to fit in target type" := by
  have hplain : unsigned text = text := by
    unfold unsigned
    split
    · exact absurd (hdigits '+' List.mem_cons_self) (by decide)
    · rfl
  rw [parseU64, hplain, if_neg hne, if_neg hne]
  exact parseDigits_digits hdigits (by decide)

theorem cursorText_digits : ∀ c ∈ cursorText block, c.isDigit = true :=
  fun _ hmem => Nat.isDigit_of_mem_toDigits (by decide) (by decide) hmem

/-- A cursor that was written is read back. -/
theorem loadCursor_text (hfits : block < 2 ^ 64) :
    loadCursor floor (some (cursorText block)) = .ok block := by
  have hvalue : Nat.ofDigitChars 10 (cursorText block) 0 = block := Nat.ofDigitChars_ten_toDigits
  rw [loadCursor, trim_of_digits cursorText_digits,
    parseU64_digits cursorText_digits Nat.toDigits_ne_nil, hvalue, if_pos hfits]
  rfl

theorem ofDigitChars_take_le (text : List Char) (kept : Nat) :
    Nat.ofDigitChars 10 (text.take kept) 0 ≤ Nat.ofDigitChars 10 text 0 := by
  have hsplit : Nat.ofDigitChars 10 text 0 = Nat.ofDigitChars 10 (text.drop kept)
      (Nat.ofDigitChars 10 (text.take kept) 0) := by
    rw [← Nat.ofDigitChars_append, List.take_append_drop]
  rw [hsplit]
  exact le_ofDigitChars _ _

/-- The first digits of a cursor are no later block. -/
theorem loadCursor_take (hload : loadCursor floor (some ((cursorText block).take kept)) = .ok value) :
    value ≤ block := by
  have hdigits : ∀ c ∈ (cursorText block).take kept, c.isDigit = true :=
    fun c hmem => cursorText_digits c (List.mem_of_mem_take hmem)
  rw [loadCursor, trim_of_digits hdigits] at hload
  by_cases hnil : (cursorText block).take kept = []
  · rw [hnil] at hload
    cases hload
  · rw [parseU64_digits hdigits hnil] at hload
    split at hload
    · obtain rfl := Except.ok.inj hload
      refine (ofDigitChars_take_le _ _).trans (le_of_eq ?_)
      exact Nat.ofDigitChars_ten_toDigits
    · cases hload

/-- Whatever becomes of a write, a restart that gets past the file finds the cursor of
before or one that is no later than the one written. -/
theorem CursorWrite.loadCursor_left (write : CursorWrite) {file : Option (List Char)}
    (hload : loadCursor floor (write.left file block) = .ok value) :
    write = .refused ∧ loadCursor floor file = .ok value ∨ value ≤ block := by
  cases write with
  | completes =>
      rw [left, ← List.take_length (l := cursorText block)] at hload
      exact Or.inr (loadCursor_take hload)
  | refused => exact Or.inl ⟨rfl, hload⟩
  | emptied => cases hload
  | dies kept => exact Or.inr (loadCursor_take hload)

end

end Blobsitter.Daemon
