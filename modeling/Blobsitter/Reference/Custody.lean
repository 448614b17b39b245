import Blobsitter.Reference.Hashing
import Mathlib.Data.Nat.ModEq

/-!
# Custody samples

Where a custody proof has to look, and the public values that it commits.  The index
reduces a 256-bit hash with a 128-bit remainder, one byte after the other.
-/

namespace Blobsitter.Reference

open Library

/-- `0x04 ‖ instance ‖ seed ‖ u64be(providerId) ‖ u64be(j)`. -/
def custodyPreimage (instanceAddress : Address) (seed : Hash) (providerId j : Nat) : ByteString :=
  Tag.custody :: (instanceAddress.toList ++ seed.toList ++ beBytes 8 providerId ++ beBytes 8 j)

/-- One byte of the reduction; the shift drops what passes 128 bits. -/
def custodyRemainder (leafCount rem : Nat) (byte : UInt8) : Nat :=
  ((rem <<< 8) % 2 ^ 128 ||| byte.toNat) % leafCount

/-- `custody_index`. -/
def custodyIndex (keccak256 : ByteString → Hash) (instanceAddress : Address) (seed : Hash)
    (providerId j leafCount : Nat) : Except Fault Nat := do
  assertThat (leafCount > 0) "cannot sample an empty dataset"
  let h := keccak256 (custodyPreimage instanceAddress seed providerId j)
  return (h.toList.foldl (custodyRemainder leafCount) 0) % 2 ^ 64

/-- The remainder before byte `k`. -/
def remainderBefore (leafCount : Nat) (bytes : ByteString) (k : Nat) : Nat :=
  (bytes.take k).foldl (custodyRemainder leafCount) 0

/-- `public_values::custody`. -/
def custodyPublicValues (instanceAddress : Address) (providerId : Nat) (seed root : Hash)
    (leafCount k : Nat) : ByteString :=
  instanceAddress.toList ++ beBytes 8 providerId ++ seed.toList ++ root.toList ++
    beBytes 8 leafCount ++ beBytes 8 k

/-- The accumulator loses nothing: what it holds before each byte, the shift, and the byte that
goes into the empty place. -/
structure StreamsExactly (leafCount : Nat) (bytes : ByteString) : Prop where
  remainder : ∀ k, remainderBefore leafCount bytes k = beNat (bytes.take k) % leafCount
  shift : ∀ k, remainderBefore leafCount bytes k <<< 8 < 2 ^ 128
  byte : ∀ (k : Nat) (byte : UInt8), bytes[k]? = some byte →
    (remainderBefore leafCount bytes k <<< 8 ||| byte.toNat) =
        remainderBefore leafCount bytes k * 256 + byte.toNat ∧
      remainderBefore leafCount bytes k * 256 + byte.toNat < 2 ^ 128

/-- A byte goes into the place that the shift has emptied. -/
theorem shift_or_byte (rem : Nat) (byte : UInt8) :
    (rem <<< 8 ||| byte.toNat) = rem * 256 + byte.toNat := by
  have hbyte : byte.toNat < 2 ^ 8 := byte.toNat_lt
  rw [← Nat.shiftLeft_add_eq_or_of_lt hbyte, Nat.shiftLeft_eq]

/-- A remainder of a 64-bit modulus stays in 128 bits. -/
theorem shift_fits {rem : Nat} (hrem : rem < 2 ^ 64) : rem <<< 8 < 2 ^ 128 := by
  rw [Nat.shiftLeft_eq]
  omega

theorem custodyRemainder_eq {leafCount rem : Nat} (byte : UInt8) (hfits : leafCount < 2 ^ 64)
    (hrem : rem < leafCount) :
    custodyRemainder leafCount rem byte = (rem * 256 + byte.toNat) % leafCount := by
  rw [custodyRemainder, Nat.mod_eq_of_lt (shift_fits (hrem.trans hfits)), shift_or_byte]

theorem foldl_custodyRemainder {leafCount : Nat} (hpos : 0 < leafCount) (hfits : leafCount < 2 ^ 64)
    (bytes : ByteString) (value : Nat) :
    bytes.foldl (custodyRemainder leafCount) (value % leafCount) =
      bytes.foldl (fun acc byte => acc * 256 + byte.toNat) value % leafCount := by
  induction bytes generalizing value with
  | nil => rfl
  | cons byte rest ih =>
      have hstep : (value % leafCount * 256 + byte.toNat) % leafCount =
          (value * 256 + byte.toNat) % leafCount :=
        ((Nat.mod_modEq value leafCount).mul_right 256).add_right byte.toNat
      rw [List.foldl_cons, List.foldl_cons,
        custodyRemainder_eq byte hfits (Nat.mod_lt _ hpos), hstep, ih]

theorem streamsExactly {leafCount : Nat} (hpos : 0 < leafCount) (hfits : leafCount < 2 ^ 64)
    (bytes : ByteString) : StreamsExactly leafCount bytes := by
  have hremainder : ∀ k, remainderBefore leafCount bytes k = beNat (bytes.take k) % leafCount := by
    intro k
    have hfold := foldl_custodyRemainder hpos hfits (bytes.take k) 0
    rw [Nat.zero_mod] at hfold
    exact hfold
  have hbelow : ∀ k, remainderBefore leafCount bytes k < 2 ^ 64 := by
    intro k
    rw [hremainder k]
    exact (Nat.mod_lt _ hpos).trans hfits
  constructor
  · exact hremainder
  · intro k
    exact shift_fits (hbelow k)
  · intro k byte _
    have hrem := hbelow k
    have hbyte : byte.toNat < 2 ^ 8 := byte.toNat_lt
    exact ⟨shift_or_byte _ byte, by omega⟩

theorem custodyPreimage_length (instanceAddress : Address) (seed : Hash) (providerId j : Nat) :
    (custodyPreimage instanceAddress seed providerId j).length = 69 := by
  simp [custodyPreimage]

/-- The index is the big-endian hash modulo the leaf count. -/
theorem custodyIndex_eq (keccak256 : ByteString → Hash) (instanceAddress : Address) (seed : Hash)
    (providerId j : Nat) {leafCount : Nat} (hpos : 0 < leafCount) (hfits : leafCount < 2 ^ 64) :
    custodyIndex keccak256 instanceAddress seed providerId j leafCount =
      .ok (wordNat (keccak256 (custodyPreimage instanceAddress seed providerId j)) %
        leafCount) := by
  have hfold := foldl_custodyRemainder hpos hfits
    (keccak256 (custodyPreimage instanceAddress seed providerId j)).toList 0
  rw [Nat.zero_mod] at hfold
  have hlt := Nat.mod_lt
    (wordNat (keccak256 (custodyPreimage instanceAddress seed providerId j))) hpos
  rw [custodyIndex, assertThat_ok hpos, ok_bind]
  simp only [hfold]
  change Except.ok (wordNat _ % leafCount % 2 ^ 64) = _
  rw [Nat.mod_eq_of_lt (hlt.trans hfits)]

/-- Every field is read back from the packed public values. -/
theorem custodyPublicValues_inj {account account' : Address} {id id' : Nat}
    {seed seed' root root' : Hash} {n n' k k' : Nat} (hid : id < 2 ^ 64) (hid' : id' < 2 ^ 64)
    (hn : n < 2 ^ 64) (hn' : n' < 2 ^ 64) (hk : k < 2 ^ 64) (hk' : k' < 2 ^ 64)
    (heq : custodyPublicValues account id seed root n k =
      custodyPublicValues account' id' seed' root' n' k') :
    account = account' ∧ id = id' ∧ seed = seed' ∧ root = root' ∧ n = n' ∧ k = k' := by
  have hpow : (256 : Nat) ^ 8 = 2 ^ 64 := by norm_num
  obtain ⟨heq, hlast⟩ := List.append_inj' heq (by simp)
  obtain ⟨heq, hcount⟩ := List.append_inj' heq (by simp)
  obtain ⟨heq, hroot⟩ := List.append_inj' heq (by simp)
  obtain ⟨heq, hseed⟩ := List.append_inj' heq (by simp)
  obtain ⟨haccount, hprovider⟩ := List.append_inj' heq (by simp)
  exact ⟨word_ext haccount, beBytes_inj (hpow ▸ hid) (hpow ▸ hid') hprovider, word_ext hseed,
    word_ext hroot, beBytes_inj (hpow ▸ hn) (hpow ▸ hn') hcount,
    beBytes_inj (hpow ▸ hk) (hpow ▸ hk') hlast⟩

end Blobsitter.Reference
