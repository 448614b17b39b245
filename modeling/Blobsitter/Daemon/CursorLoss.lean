import Blobsitter.Daemon.LogPaging

/-!
# Lost cursors

A cursor file that loses digits stands for an earlier block, so the scan repeats blocks and
skips none.  A file that loses all of them does not parse, and the follower does not start.
-/

namespace Blobsitter.Daemon

open Library

/-- `Follower::new`, as far as the cursors go. -/
def newCursors (floor : Nat) (file : ScanKind → Option (List Char)) :
    Except String (ScanKind → Nat) := do
  let cursor ← loadCursor floor (file .declared)
  let enfCursor ← loadCursor floor (file .enforcement)
  return fun kind =>
    match kind with
    | .declared => cursor
    | .enforcement => enfCursor

/-- The files, the cursors in memory, and the last block that each scan has durably consumed. -/
structure Cursors where
  file : ScanKind → Option (List Char)
  cursor : ScanKind → Nat
  consumed : ScanKind → Nat

namespace Cursors

variable (kind : ScanKind) (write : CursorWrite) (block : Nat) (s : Cursors)

/-- `set_cursor` and `set_enf_cursor`. -/
def setCursor : Cursors :=
  { s with
    file := Function.update s.file kind (write.left (s.file kind) block)
    cursor := if write = .completes then Function.update s.cursor kind block else s.cursor }

/-- Everything behind the cursor and up to the block has been consumed. -/
def consume : Cursors :=
  { s with consumed := Function.update s.consumed kind (max (s.consumed kind) block) }

end Cursors

/-- The calls that write a cursor: a page is done; a log is not consumed, and the scan halts
before its block; the scan starts over. -/
inductive CursorCall (floor : Nat) (s : Cursors) : CursorWrite → Cursors → Prop where
  | pageDone (kind : ScanKind) (write : CursorWrite) {last : Nat} (hmore : s.cursor kind < last)
      (hfits : last < 2 ^ 64) :
      CursorCall floor s write ((s.consume kind last).setCursor kind write last)
  | halts (kind : ScanKind) (write : CursorWrite) {block : Nat} (hmore : s.cursor kind < block)
      (hfits : block < 2 ^ 64) :
      CursorCall floor s write ((s.consume kind (block - 1)).setCursor kind write (block - 1))
  | rewinds (kind : ScanKind) (write : CursorWrite) :
      CursorCall floor s write (s.setCursor kind write floor)

/-- The write does not leave an empty file. -/
def CursorWrite.KeepsDigit : CursorWrite → Prop
  | .completes => True
  | .refused => True
  | .emptied => False
  | .dies kept => 0 < kept

/-- Runs from any files that the follower starts with, through crashes and restarts, in which
every write keeps a digit. -/
inductive CursorsReached (floor : Nat) : Cursors → Prop where
  | starts {file : ScanKind → Option (List Char)} {cursors : ScanKind → Nat}
      (hnew : newCursors floor file = .ok cursors) :
      CursorsReached floor ⟨file, cursors, fun kind => max floor (cursors kind)⟩
  | calls {s next : Cursors} {write : CursorWrite} (hreach : CursorsReached floor s)
      (hcall : CursorCall floor s write next) (hkeeps : write.KeepsDigit) :
      CursorsReached floor next
  | restarts {s : Cursors} {cursors : ScanKind → Nat} (hreach : CursorsReached floor s)
      (hnew : newCursors floor s.file = .ok cursors) :
      CursorsReached floor { s with cursor := cursors }

/-- The next start succeeds, and resumes each scan no later than behind what it has consumed. -/
def Cursors.Resumes (floor : Nat) (s : Cursors) : Prop :=
  ∃ cursors, newCursors floor s.file = .ok cursors ∧ ∀ kind, cursors kind ≤ s.consumed kind

section

variable {floor block bound kept : Nat} {file : Option (List Char)} {write : CursorWrite}

/-- The file loads, with a cursor that is no later than the bound. -/
def LoadsBelow (floor : Nat) (file : Option (List Char)) (bound : Nat) : Prop :=
  ∃ value ≤ bound, loadCursor floor file = .ok value

/-- Any first digits of a cursor are a cursor. -/
theorem loadsBelow_take (hkept : 0 < kept) (hfits : block < 2 ^ 64) :
    LoadsBelow floor (some ((cursorText block).take kept)) block := by
  have hdigits : ∀ c ∈ (cursorText block).take kept, c.isDigit = true :=
    fun c hmem => cursorText_digits c (List.mem_of_mem_take hmem)
  have hne : (cursorText block).take kept ≠ [] := by
    intro hnil
    rcases List.take_eq_nil_iff.mp hnil with hzero | hempty
    · exact hkept.ne' hzero
    · exact Nat.toDigits_ne_nil hempty
  have hle : Nat.ofDigitChars 10 ((cursorText block).take kept) 0 ≤ block :=
    (ofDigitChars_take_le _ _).trans (le_of_eq Nat.ofDigitChars_ten_toDigits)
  refine ⟨_, hle, ?_⟩
  rw [loadCursor, trim_of_digits hdigits, parseU64_digits hdigits hne,
    if_pos (hle.trans_lt hfits)]
  rfl

/-- The file after a write loads exactly when the write keeps a digit. -/
theorem loadsBelow_left_iff (hfits : block < 2 ^ 64) (hle : block ≤ bound)
    (hfile : LoadsBelow floor file bound) :
    LoadsBelow floor (write.left file block) bound ↔ write.KeepsDigit := by
  cases write with
  | completes => exact iff_of_true ⟨block, hle, loadCursor_text hfits⟩ trivial
  | refused => exact iff_of_true hfile trivial
  | emptied =>
      refine iff_of_false ?_ id
      rintro ⟨value, _, hload⟩
      cases hload
  | dies kept =>
      rcases Nat.eq_zero_or_pos kept with rfl | hkept
      · refine iff_of_false ?_ (Nat.lt_irrefl 0)
        rintro ⟨value, _, hload⟩
        cases hload
      · obtain ⟨value, hvalue, hload⟩ : LoadsBelow floor (some ((cursorText block).take kept)) block :=
          loadsBelow_take hkept hfits
        exact iff_of_true ⟨value, hvalue.trans hle, hload⟩ hkept

end

/-! ## Both files -/

section

variable {floor : Nat} {s next : Cursors} {write : CursorWrite}

theorem newCursors_eq_ok {file : ScanKind → Option (List Char)} {cursors : ScanKind → Nat} :
    newCursors floor file = .ok cursors ↔
      ∀ kind, loadCursor floor (file kind) = .ok (cursors kind) := by
  constructor
  · intro hnew
    obtain ⟨cursor, hcursor, hnew⟩ := bind_eq_ok.mp hnew
    obtain ⟨enfCursor, henfCursor, hnew⟩ := bind_eq_ok.mp hnew
    obtain rfl := pure_eq_ok.mp hnew
    intro kind
    cases kind with
    | declared => exact hcursor
    | enforcement => exact henfCursor
  · intro hload
    refine bind_eq_ok.mpr ⟨_, hload .declared, bind_eq_ok.mpr ⟨_, hload .enforcement, ?_⟩⟩
    refine congrArg Except.ok (funext fun kind => ?_)
    cases kind <;> rfl

theorem Cursors.resumes_iff :
    s.Resumes floor ↔ ∀ kind, LoadsBelow floor (s.file kind) (s.consumed kind) := by
  constructor
  · rintro ⟨cursors, hnew, hle⟩ kind
    exact ⟨cursors kind, hle kind, newCursors_eq_ok.mp hnew kind⟩
  · intro hloads
    choose cursors hle hload using hloads
    exact ⟨cursors, newCursors_eq_ok.mpr hload, hle⟩

/-- What every run keeps: no cursor is ahead of its scan, in memory or in a file. -/
structure Cursors.Behind (floor : Nat) (s : Cursors) : Prop where
  floor_le : ∀ kind, floor ≤ s.consumed kind
  cursor_le : ∀ kind, s.cursor kind ≤ s.consumed kind
  loads : ∀ kind, LoadsBelow floor (s.file kind) (s.consumed kind)

/-- What a call does: one scan consumes more or nothing, and its file is written with a block
that it has consumed. -/
theorem CursorCall.cases_write (hcall : CursorCall floor s write next) (hbehind : s.Behind floor)
    (hfloor : floor < 2 ^ 64) :
    ∃ kind block consumed, block < 2 ^ 64 ∧ block ≤ consumed ∧ s.consumed kind ≤ consumed ∧
      next = Cursors.setCursor kind write block
        { s with consumed := Function.update s.consumed kind consumed } := by
  cases hcall with
  | @pageDone kind _ last hmore hfits =>
      exact ⟨kind, last, _, hfits, le_max_right _ _, le_max_left _ _, rfl⟩
  | @halts kind _ block hmore hfits =>
      exact ⟨kind, block - 1, _, (Nat.sub_le _ _).trans_lt hfits, le_max_right _ _,
        le_max_left _ _, rfl⟩
  | rewinds kind =>
      refine ⟨kind, floor, s.consumed kind, hfloor, hbehind.floor_le kind, le_rfl, ?_⟩
      rw [Function.update_eq_self]

/-- The next start succeeds after a call exactly when its write keeps a digit. -/
theorem CursorCall.resumes_iff (hcall : CursorCall floor s write next) (hbehind : s.Behind floor)
    (hfloor : floor < 2 ^ 64) : next.Resumes floor ↔ write.KeepsDigit := by
  obtain ⟨kind, block, consumed, hfits, hle, hmore, rfl⟩ := hcall.cases_write hbehind hfloor
  have hfile : LoadsBelow floor (s.file kind) consumed := by
    obtain ⟨value, hvalue, hload⟩ := hbehind.loads kind
    exact ⟨value, hvalue.trans hmore, hload⟩
  have hown : LoadsBelow floor (write.left (s.file kind) block) consumed ↔ write.KeepsDigit :=
    loadsBelow_left_iff hfits hle hfile
  rw [Cursors.resumes_iff]
  constructor
  · intro hloads
    have hkind := hloads kind
    simp only [Cursors.setCursor, Function.update_self] at hkind
    exact hown.mp hkind
  · intro hkeeps other
    by_cases hsame : other = kind
    · subst hsame
      simp only [Cursors.setCursor, Function.update_self]
      exact hown.mpr hkeeps
    · simp only [Cursors.setCursor, Function.update_of_ne hsame]
      exact hbehind.loads other

theorem CursorCall.behind (hcall : CursorCall floor s write next) (hbehind : s.Behind floor)
    (hfloor : floor < 2 ^ 64) (hkeeps : write.KeepsDigit) : next.Behind floor := by
  have hloads := Cursors.resumes_iff.mp ((hcall.resumes_iff hbehind hfloor).mpr hkeeps)
  obtain ⟨kind, block, consumed, _, hle, hmore, rfl⟩ := hcall.cases_write hbehind hfloor
  have hgrows : ∀ other, s.consumed other ≤ Function.update s.consumed kind consumed other := by
    intro other
    by_cases hsame : other = kind
    · subst hsame
      rw [Function.update_self]
      exact hmore
    · rw [Function.update_of_ne hsame]
  refine ⟨fun other => (hbehind.floor_le other).trans (hgrows other), ?_, hloads⟩
  intro other
  have hold := (hbehind.cursor_le other).trans (hgrows other)
  simp only [Cursors.setCursor]
  split
  · by_cases hsame : other = kind
    · subst hsame
      rw [Function.update_self, Function.update_self]
      exact hle
    · rw [Function.update_of_ne hsame]
      exact hold
  · exact hold

theorem CursorsReached.behind (hreach : CursorsReached floor s) (hfloor : floor < 2 ^ 64) :
    s.Behind floor := by
  induction hreach with
  | starts hnew =>
      refine ⟨fun _ => le_max_left _ _, fun _ => le_max_right _ _, ?_⟩
      intro kind
      exact ⟨_, le_max_right _ _, newCursors_eq_ok.mp hnew kind⟩
  | calls _ hcall hkeeps ih => exact hcall.behind ih hfloor hkeeps
  | @restarts s cursors _ hnew ih =>
      refine ⟨ih.floor_le, ?_, ih.loads⟩
      intro kind
      obtain ⟨value, hvalue, hload⟩ := ih.loads kind
      have hsame := hload.symm.trans (newCursors_eq_ok.mp hnew kind)
      rw [Except.ok.inj hsame] at hvalue
      exact hvalue

/-- In every run whose writes keep a digit the follower can be started again at any time, with
no cursor ahead of its scan; and the next write keeps it so exactly when it keeps a digit. -/
theorem cursor_loss_harmless_iff (hreach : CursorsReached floor s) (hfloor : floor < 2 ^ 64) :
    s.Resumes floor ∧ ∀ write next, CursorCall floor s write next →
      (next.Resumes floor ↔ write.KeepsDigit) :=
  ⟨Cursors.resumes_iff.mpr (hreach.behind hfloor).loads,
    fun _ _ hcall => hcall.resumes_iff (hreach.behind hfloor) hfloor⟩

end

/-- A follower that has just started at an instance deployed in block 100. -/
def freshCursors : Cursors := ⟨fun _ => none, fun _ => 99, fun _ => 99⟩

theorem freshCursors_reached : CursorsReached 99 freshCursors :=
  CursorsReached.starts (newCursors_eq_ok.mpr (fun _ => rfl))

/-- The page up to block 123 is done, and the write of its cursor ends as given. -/
def firstPage (write : CursorWrite) : Cursors :=
  (freshCursors.consume .declared 123).setCursor .declared write 123

theorem firstPage_called (write : CursorWrite) :
    CursorCall 99 freshCursors write (firstPage write) :=
  CursorCall.pageDone .declared write (by decide) (by decide)

theorem cursor_loss_harmless_first : freshCursors.Resumes 99 ∧
    ((firstPage (.dies 1)).Resumes 99 ↔ 0 < 1) := by
  have hboth := cursor_loss_harmless_iff freshCursors_reached (by decide)
  exact ⟨hboth.1, hboth.2 _ _ (firstPage_called (.dies 1))⟩

/-- A crash right after the truncation stops every later start. -/
theorem truncated_cursor_never_starts : CursorsReached 99 freshCursors ∧
    CursorCall 99 freshCursors (.dies 0) (firstPage (.dies 0)) ∧
    newCursors 99 (firstPage (.dies 0)).file =
      .error "cursor file error: cannot parse integer from empty string" ∧
    ¬ (firstPage (.dies 0)).Resumes 99 := by
  refine ⟨freshCursors_reached, firstPage_called (.dies 0), rfl, ?_⟩
  rintro ⟨cursors, hnew, _⟩
  cases hnew

end Blobsitter.Daemon
