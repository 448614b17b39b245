import Blobsitter.Library.ByteString
import Mathlib.Logic.Function.Basic

/-!
# Files that survive a crash

A program changes its files by operations that each end in a sync.  A crash inside
one of them leaves a part of it on disk; the operations before it have survived, the
later ones have not begun.  A file that is replaced through a temporary one holds its
old content or the new one, whole.
-/

namespace Blobsitter.Library

/-- File contents by name; a file that does not exist has none. -/
abbrev Disk (Name : Type) := Name → Option ByteString

/-- A positioned write.  A gap behind the end of the file reads as zeros. -/
def overwrite (content : ByteString) (offset : Nat) (bytes : ByteString) : ByteString :=
  content.take offset ++ List.replicate (offset - content.length) 0 ++ bytes ++
    content.drop (offset + bytes.length)

/-- A write at the end of the file appends. -/
theorem overwrite_end {content : ByteString} {offset : Nat} (bytes : ByteString)
    (hend : content.length = offset) : overwrite content offset bytes = content ++ bytes := by
  subst hend
  rw [overwrite, List.take_length, Nat.sub_self, List.replicate_zero, List.append_nil,
    List.drop_eq_nil_of_le (Nat.le_add_right _ _), List.append_nil]

inductive DiskOp (Name : Type) where
  /-- A positioned write, then a sync of the file's data. -/
  | writeAt (name : Name) (offset : Nat) (bytes : ByteString)
  /-- A file made anew or cut to nothing, then written and synced. -/
  | create (name : Name) (bytes : ByteString)
  /-- A rename over whatever stood under the new name, then a sync of the directory. -/
  | rename (source target : Name)

section

variable {Name : Type} [DecidableEq Name]

namespace DiskOp

def run : DiskOp Name → Disk Name → Disk Name
  | .writeAt name offset bytes, disk =>
      Function.update disk name (some (overwrite ((disk name).getD []) offset bytes))
  | .create name bytes, disk => Function.update disk name (some bytes)
  | .rename source target, disk =>
      Function.update (Function.update disk target (disk source)) source none

/-- The operation changes nothing but files of these names. -/
def touches : DiskOp Name → List Name
  | .writeAt name _ _ => [name]
  | .create name _ => [name]
  | .rename source target => [source, target]

/-- What a crash inside the operation leaves: a prefix of a positioned write, anything
in a file being made, a rename done or not done. -/
inductive Torn : DiskOp Name → Disk Name → Disk Name → Prop where
  | untouched {op : DiskOp Name} {disk : Disk Name} : Torn op disk disk
  | landed {name : Name} {offset : Nat} {bytes : ByteString} {disk : Disk Name} (count : Nat)
      (hcount : 0 < count) :
      Torn (.writeAt name offset bytes) disk
        ((DiskOp.writeAt name offset (bytes.take count)).run disk)
  | unfinished {name : Name} {bytes : ByteString} {disk : Disk Name}
      (content : Option ByteString) :
      Torn (.create name bytes) disk (Function.update disk name content)
  | renamed {source target : Name} {disk : Disk Name} :
      Torn (.rename source target) disk ((DiskOp.rename source target).run disk)

theorem run_frame {op : DiskOp Name} {disk : Disk Name} {name : Name}
    (hname : name ∉ op.touches) : op.run disk name = disk name := by
  cases op with
  | writeAt target offset bytes =>
      exact Function.update_of_ne (fun heq => hname (List.mem_singleton.mpr heq)) _ _
  | create target bytes =>
      exact Function.update_of_ne (fun heq => hname (List.mem_singleton.mpr heq)) _ _
  | rename source target =>
      simp only [touches, List.mem_cons, List.not_mem_nil, or_false, not_or] at hname
      rw [run, Function.update_of_ne hname.1, Function.update_of_ne hname.2]

theorem Torn.frame {op : DiskOp Name} {disk left : Disk Name} {name : Name}
    (htorn : op.Torn disk left) (hname : name ∉ op.touches) : left name = disk name := by
  cases htorn with
  | untouched => rfl
  | landed count hcount => exact run_frame hname
  | unfinished content =>
      exact Function.update_of_ne (fun heq => hname (List.mem_singleton.mpr heq)) _ _
  | renamed => exact run_frame hname

end DiskOp

def runAll (ops : List (DiskOp Name)) (disk : Disk Name) : Disk Name :=
  ops.foldl (fun disk op => op.run disk) disk

@[simp]
theorem runAll_nil (disk : Disk Name) : runAll [] disk = disk := rfl

@[simp]
theorem runAll_cons (op : DiskOp Name) (ops : List (DiskOp Name)) (disk : Disk Name) :
    runAll (op :: ops) disk = runAll ops (op.run disk) := rfl

/-- What a crash somewhere in the sequence leaves. -/
inductive Crash : List (DiskOp Name) → Disk Name → Disk Name → Prop where
  | done {disk : Disk Name} : Crash [] disk disk
  | inside {op : DiskOp Name} {ops : List (DiskOp Name)} {disk left : Disk Name}
      (htorn : op.Torn disk left) : Crash (op :: ops) disk left
  | later {op : DiskOp Name} {ops : List (DiskOp Name)} {disk left : Disk Name}
      (hrest : Crash ops (op.run disk) left) : Crash (op :: ops) disk left

theorem Crash.frame {ops : List (DiskOp Name)} {disk left : Disk Name} {name : Name}
    (hcrash : Crash ops disk left) (hname : ∀ op ∈ ops, name ∉ op.touches) :
    left name = disk name := by
  induction hcrash with
  | done => rfl
  | inside htorn => exact htorn.frame (hname _ List.mem_cons_self)
  | later _ ih =>
      rw [ih fun op hmem => hname op (List.mem_cons_of_mem _ hmem)]
      exact DiskOp.run_frame (hname _ List.mem_cons_self)

/-- The new content goes to a temporary file, which is then renamed over the target. -/
def replaceFile (tmp target : Name) (bytes : ByteString) : List (DiskOp Name) :=
  [.create tmp bytes, .rename tmp target]

theorem runAll_replaceFile (tmp target : Name) (bytes : ByteString) (disk : Disk Name) :
    runAll (replaceFile tmp target bytes) disk =
      Function.update (Function.update disk target (some bytes)) tmp none := by
  by_cases hsame : target = tmp
  · subst hsame
    simp [replaceFile, DiskOp.run]
  · simp only [replaceFile, runAll_cons, runAll_nil, DiskOp.run, Function.update_self]
    rw [Function.update_comm hsame, Function.update_idem, Function.update_comm hsame]

/-- A crash leaves the old file beside any temporary one, or the new file. -/
theorem crash_replaceFile {tmp target : Name} {bytes : ByteString} {disk left : Disk Name}
    (hcrash : Crash (replaceFile tmp target bytes) disk left) :
    (∃ content, left = Function.update disk tmp content) ∨
      left = runAll (replaceFile tmp target bytes) disk := by
  cases hcrash with
  | inside htorn =>
      cases htorn with
      | untouched => exact Or.inl ⟨disk tmp, (Function.update_eq_self tmp disk).symm⟩
      | unfinished content => exact Or.inl ⟨content, rfl⟩
  | later hrest =>
      cases hrest with
      | inside htorn =>
          cases htorn with
          | untouched => exact Or.inl ⟨some bytes, rfl⟩
          | renamed => exact Or.inr rfl
      | later hdone =>
          cases hdone with
          | done => exact Or.inr rfl

end

end Blobsitter.Library
