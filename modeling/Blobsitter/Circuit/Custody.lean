import Blobsitter.Reference.Custody
import Blobsitter.Reference.Verify

/-!
# The custody guest

The guest bags the peaks against the pinned root and verifies one sample at every
derived index.  A run that returns has checked them all.
-/

namespace Blobsitter.Circuit

open Library
open Reference

/-- One sample: the raw chunk and its sibling path. -/
structure CustodySample where
  chunk : Chunk
  path : List Hash
  deriving DecidableEq

/-- Witness and bound quantities of one custody proof; the numbers are 64-bit. -/
structure CustodyInput where
  instanceAddress : Address
  providerId : Nat
  seed : Hash
  root : Hash
  leafCount : Nat
  k : Nat
  peaks : List Hash
  samples : List CustodySample
  providerFits : providerId < 2 ^ 64
  leafCountFits : leafCount < 2 ^ 64
  kFits : k < 2 ^ 64

section

variable (keccak256 : ByteString → Hash) (input : CustodyInput)

/-- The loop over the samples, from ordinal `j` on. -/
def checkSamples : List CustodySample → Nat → Except Fault Unit
  | [], _ => .ok ()
  | sample :: rest, j => do
      let idx ← custodyIndex keccak256 input.instanceAddress input.seed input.providerId j
        input.leafCount
      let included ← verify keccak256 sample.chunk idx sample.path input.leafCount input.peaks
      assertThat (included = true) "sample failed inclusion"
      checkSamples rest (j + 1)

/-- Proves one custody period; returns the committed public values. -/
def custody : Except Fault ByteString := do
  assertThat (input.leafCount > 0) "empty snapshot admits no witness"
  assertThat (root keccak256 input.leafCount input.peaks = input.root) "peak list != pinned root"
  assertThat (input.samples.length = input.k) "sample count"
  checkSamples keccak256 input input.samples 0
  return custodyPublicValues input.instanceAddress input.providerId input.seed input.root
    input.leafCount input.k

/-- The sample is the one of ordinal `j`, and its inclusion verifies. -/
def Included (j : Nat) (sample : CustodySample) : Prop :=
  ∃ idx, custodyIndex keccak256 input.instanceAddress input.seed input.providerId j
      input.leafCount = .ok idx ∧
    verify keccak256 sample.chunk idx sample.path input.leafCount input.peaks = .ok true

end

section

variable {keccak256 : ByteString → Hash} {input : CustodyInput}

theorem checkSamples_eq_ok {samples : List CustodySample} {j : Nat} :
    checkSamples keccak256 input samples j = .ok () ↔
      ∀ (i : Nat) sample, samples[i]? = some sample →
        Included keccak256 input (j + i) sample := by
  induction samples generalizing j with
  | nil =>
      refine iff_of_true rfl ?_
      intro i sample hsample
      cases hsample
  | cons first rest ih =>
      have hshift : ∀ i, j + 1 + i = j + (i + 1) := by omega
      simp only [checkSamples, bind_eq_ok, assertThat_eq_ok, ih, hshift]
      constructor
      · rintro ⟨idx, hidx, included, hverify, _, rfl, hrest⟩ i sample hsample
        cases i with
        | zero =>
            obtain rfl := Option.some.inj hsample
            exact ⟨idx, hidx, hverify⟩
        | succ i => exact hrest i sample hsample
      · intro hall
        obtain ⟨idx, hidx, hverify⟩ := hall 0 first rfl
        exact ⟨idx, hidx, true, hverify, (), rfl, fun i sample hsample =>
          hall (i + 1) sample hsample⟩

/-- The guest returns exactly when every check passes, and then the bound quantities. -/
theorem custody_eq_ok {publicValues : ByteString} :
    custody keccak256 input = .ok publicValues ↔ 0 < input.leafCount ∧
      root keccak256 input.leafCount input.peaks = input.root ∧ input.samples.length = input.k ∧
      (∀ (j : Nat) sample, input.samples[j]? = some sample → Included keccak256 input j sample) ∧
      publicValues = custodyPublicValues input.instanceAddress input.providerId input.seed
        input.root input.leafCount input.k := by
  have hsamples := @checkSamples_eq_ok keccak256 input input.samples 0
  simp only [Nat.zero_add] at hsamples
  simp only [custody, bind_eq_ok, assertThat_eq_ok, pure_eq_ok, ← hsamples]
  constructor
  · rintro ⟨_, hpos, _, hroot, _, hcount, ⟨⟩, hchecked, rfl⟩
    exact ⟨hpos, hroot, hcount, hchecked, rfl⟩
  · rintro ⟨hpos, hroot, hcount, hchecked, rfl⟩
    exact ⟨(), hpos, (), hroot, (), hcount, (), hchecked, rfl⟩

end

end Blobsitter.Circuit
