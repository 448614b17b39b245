import Blobsitter.Library.ByteString
import Blobsitter.Library.Fallible

/-!
# Hashing rules of the reference crate

Every hash of the protocol is keccak-256 of a byte string that starts with its own
domain tag.  The hash function itself is external and stays a parameter; the
preimages are the source's byte layouts.
-/

namespace Blobsitter.Reference

open Library

/-- A 31-byte chunk, the protocol's only unit of data. -/
abbrev Chunk := Word 31

/-- A 32-byte hash: leaves, nodes, peaks, roots, seeds, versioned hashes. -/
abbrev Hash := Word 32

/-- A 20-byte account address. -/
abbrev Address := Word 20

/-- How a call of the crate stops without a value: a panic, or an `Err` text. -/
inductive Fault where
  | panic (message : String)
  | err (message : String)
  deriving DecidableEq, Repr

def Fault.message : Fault → String
  | .panic message => message
  | .err message => message

/-- `assert!` with a message. -/
def assertThat (p : Prop) [Decidable p] (message : String) : Except Fault Unit :=
  if p then .ok () else .error (.panic message)

theorem assertThat_eq_ok {p : Prop} [Decidable p] {message : String} {u : Unit} :
    assertThat p message = .ok u ↔ p := by
  unfold assertThat
  split <;> simp_all

theorem assertThat_ok {p : Prop} [Decidable p] {message : String} (hp : p) :
    assertThat p message = .ok () := if_pos hp

namespace Tag

def leaf : UInt8 := 0x00
def node : UInt8 := 0x01
def root : UInt8 := 0x02
def fsZ : UInt8 := 0x03
def custody : UInt8 := 0x04

end Tag

def leafPreimage (chunk : Chunk) : ByteString := Tag.leaf :: chunk.toList

def nodePreimage (left right : Hash) : ByteString :=
  Tag.node :: (left.toList ++ right.toList)

def rootPreimage (leafCount : Nat) (peaks : List Hash) : ByteString :=
  Tag.root :: (beBytes 8 leafCount ++ packWords peaks)

theorem leafPreimage_inj {first second : Chunk}
    (heq : leafPreimage first = leafPreimage second) : first = second :=
  word_ext (List.cons.inj heq).2

theorem nodePreimage_inj {left right left' right' : Hash}
    (heq : nodePreimage left right = nodePreimage left' right') :
    left = left' ∧ right = right' := by
  obtain ⟨hleft, hright⟩ := List.append_inj (List.cons.inj heq).2 (by simp)
  exact ⟨word_ext hleft, word_ext hright⟩

/-- The leaf count and the whole peak list are read back from a bagged preimage. -/
theorem rootPreimage_inj {n n' : Nat} {peaks peaks' : List Hash}
    (hn : n < 2 ^ 64) (hn' : n' < 2 ^ 64)
    (heq : rootPreimage n peaks = rootPreimage n' peaks') : n = n' ∧ peaks = peaks' := by
  obtain ⟨hcount, hpeaks⟩ := List.append_inj (List.cons.inj heq).2 (by simp)
  have hpow : (256 : Nat) ^ 8 = 2 ^ 64 := by norm_num
  exact ⟨beBytes_inj (hpow ▸ hn) (hpow ▸ hn') hcount, packWords_inj_of_pos (by omega) hpeaks⟩

section Hashes

variable (keccak256 : ByteString → Hash)

/-- `H(0x00 ‖ chunk)`. -/
def leaf (chunk : Chunk) : Hash := keccak256 (leafPreimage chunk)

/-- `H(0x01 ‖ left ‖ right)`; `left` covers the older leaves. -/
def node (left right : Hash) : Hash := keccak256 (nodePreimage left right)

/-- Bagged root `H(0x02 ‖ u64be(n) ‖ peaks…)`, peaks tallest first. -/
def root (leafCount : Nat) (peaks : List Hash) : Hash :=
  keccak256 (rootPreimage leafCount peaks)

end Hashes

/-- No two different strings, one from each set, have the same hash. -/
def NoCollision (keccak256 : ByteString → Hash) (first second : Set ByteString) : Prop :=
  ∀ x ∈ first, ∀ y ∈ second, keccak256 x = keccak256 y → x = y

theorem NoCollision.mono {keccak256 : ByteString → Hash} {first second small other : Set ByteString}
    (hfree : NoCollision keccak256 first second) (hfirst : small ⊆ first)
    (hsecond : other ⊆ second) : NoCollision keccak256 small other :=
  fun x hx y hy => hfree x (hfirst hx) y (hsecond hy)

end Blobsitter.Reference
