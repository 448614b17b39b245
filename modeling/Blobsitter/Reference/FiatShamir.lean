import Blobsitter.Reference.Decompose
import Blobsitter.Reference.Scalar

/-!
# The evaluation point and its preimage

The preimage lists three sequences of hashes without their lengths.  The two leaf
counts at its end determine the first and the last length, so that no other
declaration has the same preimage.
-/

namespace Blobsitter.Reference

open Library

def fsZPreimage (instanceAddress : Address) (blobVersionedHashes priorPeaks newSubtreePeaks : List Hash)
    (priorLeafCount newLeafCount : Nat) : ByteString :=
  Tag.fsZ :: (instanceAddress.toList ++ packWords blobVersionedHashes ++ packWords priorPeaks ++
    packWords newSubtreePeaks ++ beBytes 8 priorLeafCount ++ beBytes 8 newLeafCount)

/-- The evaluation point: the preimage's hash reduced into the field. -/
def fsZ (keccak256 : ByteString → Hash) (instanceAddress : Address)
    (blobVersionedHashes priorPeaks newSubtreePeaks : List Hash)
    (priorLeafCount newLeafCount : Nat) : Hash :=
  beWord 32 (wordNat (keccak256 (fsZPreimage instanceAddress blobVersionedHashes priorPeaks
    newSubtreePeaks priorLeafCount newLeafCount)) % rBls)

/-- `public_values::equivalence`. -/
def equivalencePublicValues (preimageHash : Hash) (ys : List Hash) : ByteString :=
  preimageHash.toList ++ packWords ys

theorem equivalencePublicValues_inj {first second : Hash} {ys ys' : List Hash}
    (heq : equivalencePublicValues first ys = equivalencePublicValues second ys') :
    first = second ∧ ys = ys' := by
  obtain ⟨hhash, hys⟩ := List.append_inj heq (by simp)
  exact ⟨word_ext hhash, packWords_inj_of_pos (by decide) hys⟩

/-- The lengths that the leaf counts of an update determine. -/
structure WellCounted (blobVersionedHashes newSubtreePeaks : List Hash)
    (priorLeafCount newLeafCount : Nat) : Prop where
  grows : priorLeafCount < newLeafCount
  fits : newLeafCount < 2 ^ 64
  blobs : blobVersionedHashes.length = (newLeafCount - priorLeafCount + 4095) / 4096
  subtrees : newSubtreePeaks.length =
    (updateHeights priorLeafCount (newLeafCount - priorLeafCount)).length

/-- A preimage cannot be split into another declaration. -/
theorem fsZPreimage_inj {account account' : Address} {hashes hashes' peaks peaks' roots roots' : List Hash}
    {n0 n0' n1 n1' : Nat} (hcounted : WellCounted hashes roots n0 n1)
    (hcounted' : WellCounted hashes' roots' n0' n1')
    (heq : fsZPreimage account hashes peaks roots n0 n1 =
      fsZPreimage account' hashes' peaks' roots' n0' n1') :
    account = account' ∧ hashes = hashes' ∧ peaks = peaks' ∧ roots = roots' ∧ n0 = n0' ∧
      n1 = n1' := by
  have hword : ∀ {account : Address} {hashes peaks roots : List Hash} {n0 n1 : Nat},
      fsZPreimage account hashes peaks roots n0 n1 = Tag.fsZ :: (account.toList ++
        (packWords (hashes ++ (peaks ++ roots)) ++ (beBytes 8 n0 ++ beBytes 8 n1))) := by
    intro account hashes peaks roots n0 n1
    rw [fsZPreimage, packWords_append, packWords_append]
    simp only [List.append_assoc]
  rw [hword, hword] at heq
  obtain ⟨haccount, hrest⟩ := List.append_inj (List.cons.inj heq).2 (by simp)
  obtain ⟨hlists, hcounts⟩ := List.append_inj' hrest (by simp)
  obtain ⟨hn0, hn1⟩ := List.append_inj hcounts (by simp)
  have hpow : (2 : Nat) ^ 64 = 256 ^ 8 := rfl
  have hprior : n0 = n0' := beBytes_inj (hpow ▸ hcounted.grows.trans hcounted.fits)
    (hpow ▸ hcounted'.grows.trans hcounted'.fits) hn0
  have hnew : n1 = n1' := beBytes_inj (hpow ▸ hcounted.fits) (hpow ▸ hcounted'.fits) hn1
  subst hprior hnew
  have hwords := packWords_inj_of_pos (by decide) hlists
  obtain ⟨hhashes, hothers⟩ := List.append_inj hwords (hcounted.blobs.trans hcounted'.blobs.symm)
  obtain ⟨hpeaks, hroots⟩ := List.append_inj' hothers
    (hcounted.subtrees.trans hcounted'.subtrees.symm)
  exact ⟨word_ext haccount, hhashes, hpeaks, hroots, rfl, rfl⟩

end Blobsitter.Reference
