import Blobsitter.Circuit.Custody
import Blobsitter.Contract.Answers
import Blobsitter.Daemon.Custody

/-!
# One custody proof, three programs

The daemon builds the witness, the guest checks it and commits the public values, and
the contract rebuilds these values from its own record.  The three derive the same
positions, cut the dataset at the same count and pack the same bytes.
-/

namespace Blobsitter.Daemon

open Library
open Reference (Chunk Hash NoCollision rootPreimage custodyPublicValues honestPath)
open Circuit (CustodyInput CustodySample custody Included)

/-- `to_circuit_input`: the same values, type for type. -/
def CustodyWitness.toCircuitInput (w : CustodyWitness) : CustodyInput where
  instanceAddress := w.instanceAddress
  providerId := w.providerId
  seed := w.seed
  root := w.root
  leafCount := w.leafCount
  k := w.k
  peaks := w.peaks
  samples := w.samples.map fun s => ⟨s.chunk, s.path⟩
  providerFits := w.providerFits
  leafCountFits := w.leafCountFits
  kFits := w.kFits

/-- A list of chunks as a stream; the zero chunk follows the last one. -/
def streamOf (chunks : List Chunk) (i : Nat) : Chunk := chunks.getD i (Vector.replicate 31 0)

theorem streamOf_getElem? {chunks : List Chunk} {i : Nat} (hi : i < chunks.length) :
    chunks[i]? = some (streamOf chunks i) := by
  rw [streamOf, List.getD_eq_getElem?_getD, List.getElem?_eq_getElem hi, Option.getD_some]

/-- The readable chunks of the store are the listed ones. -/
def Store.Holds (store : Store) (disk : Disk DataFile) (chunks : List Chunk) : Prop :=
  ∀ i chunk, store.chunk disk i = .ok chunk ↔ chunks[i]? = some chunk

/-- The daemon plans for this provider of this deployment. -/
structure CustodyParams.Matches (params : CustodyParams) (dep : Contract.Deployment)
    (id : Nat) : Prop where
  instanceAddress : params.instanceAddress = dep.self
  providerId : params.providerId = id
  custodyK : params.custodyK = dep.params.custodyK

/-- The record holds a commit to the first `n` chunks. -/
structure CommitsTo (keccak256 : ByteString → Hash) (chunks : List Chunk) (n : Nat)
    (record : Contract.Provider) : Prop where
  pending : record.commitPeriodPlusOne ≠ 0
  pin : (record.commitRoot, record.commitLeafCount) =
    Contract.pinAt keccak256 (streamOf chunks) n

/-- The bytes that the contract hands to its verifier for the pending commit. -/
def expectedPublicValues (dep : Contract.Deployment) (providerId : Nat)
    (record : Contract.Provider) : ByteString :=
  Contract.encodeCustodyPublicValues dep providerId record.commitSeed record.commitRoot
    record.commitLeafCount dep.params.custodyK

/-- The strings that the guest hashes, its positions aside. -/
def guestPreimages (keccak256 : ByteString → Hash) (input : CustodyInput) : Set ByteString :=
  {x | x = rootPreimage input.leafCount input.peaks ∨
    ∃ j sample index, input.samples[j]? = some sample ∧
      Reference.custodyIndex keccak256 input.instanceAddress input.seed input.providerId j
        input.leafCount = .ok index ∧
      x ∈ Contract.proofPreimages keccak256 ⟨sample.chunk, sample.path⟩ index input.leafCount}

section

variable {keccak256 : ByteString → Hash} {dep : Contract.Deployment} {store : Store}
variable {disk : Disk DataFile} {chunks : List Chunk} {params : CustodyParams} {providerId n : Nat}
variable {record : Contract.Provider}

/-- The position of ordinal `j`: the hash, as one number, modulo the count. -/
def samplePosition (keccak256 : ByteString → Hash) (dep : Contract.Deployment) (seed : Hash)
    (providerId n j : Nat) : Nat :=
  wordNat (keccak256 (Reference.custodyPreimage dep.self seed providerId j)) % n

/-- Solidity reduces the 256-bit hash at once. -/
theorem contract_custodyIndex_eq (seed : Hash) (j : Nat) (hpos : 0 < n) (hfits : n < 2 ^ 64) :
    Contract.custodyIndex keccak256 dep seed providerId j n =
      .ok (samplePosition keccak256 dep seed providerId n j) := by
  have hpreimage : [0x04] ++ dep.self.toList ++ seed.toList ++ beBytes 8 providerId ++ beBytes 8 j =
      Reference.custodyPreimage dep.self seed providerId j := rfl
  have hlt : samplePosition keccak256 dep seed providerId n j < n := Nat.mod_lt _ hpos
  refine bind_eq_ok.mpr ⟨_, Contract.checkedMod_eq_ok.mpr ⟨hpos.ne', rfl⟩, ?_⟩
  rw [hpreimage]
  change Except.ok (samplePosition keccak256 dep seed providerId n j % 2 ^ 64) = _
  rw [Nat.mod_eq_of_lt (hlt.trans hfits)]

/-- Rust reduces it byte by byte, to the same position. -/
theorem reference_custodyIndex_eq (seed : Hash) (j : Nat) (hpos : 0 < n) (hfits : n < 2 ^ 64) :
    Reference.custodyIndex keccak256 dep.self seed providerId j n =
      .ok (samplePosition keccak256 dep seed providerId n j) :=
  Reference.custodyIndex_eq keccak256 dep.self seed providerId j hpos hfits

/-- The two derivations agree, below the count, and the one in Rust loses no bit on the way. -/
theorem custodyIndex_agrees (keccak256 : ByteString → Hash) (dep : Contract.Deployment)
    (seed : Hash) (providerId j : Nat) (hpos : 0 < n) (hfits : n < 2 ^ 64) :
    ∃ preimage index, preimage = Reference.custodyPreimage dep.self seed providerId j ∧
      preimage.length = 69 ∧
      Reference.custodyIndex keccak256 dep.self seed providerId j n = .ok index ∧
      Contract.custodyIndex keccak256 dep seed providerId j n = .ok index ∧
      index = wordNat (keccak256 preimage) % n ∧ index < n ∧
      Reference.StreamsExactly n (keccak256 preimage).toList := by
  refine ⟨_, samplePosition keccak256 dep seed providerId n j, rfl, ?_, ?_, ?_, rfl, ?_, ?_⟩
  · exact Reference.custodyPreimage_length _ _ _ _
  · exact reference_custodyIndex_eq seed j hpos hfits
  · exact contract_custodyIndex_eq seed j hpos hfits
  · exact Nat.mod_lt _ hpos
  · exact Reference.streamsExactly hpos hfits _

theorem custodyIndex_agrees_five :
    ∃ preimage index, preimage = Reference.custodyPreimage Contract.sampleDeployment.self
        (Vector.replicate 32 7) 1 3 ∧
      preimage.length = 69 ∧
      Reference.custodyIndex Keccak.keccak256 Contract.sampleDeployment.self
        (Vector.replicate 32 7) 1 3 5 = .ok index ∧
      Contract.custodyIndex Keccak.keccak256 Contract.sampleDeployment
        (Vector.replicate 32 7) 1 3 5 = .ok index ∧
      index = wordNat (Keccak.keccak256 preimage) % 5 ∧ index < 5 ∧
      Reference.StreamsExactly 5 (Keccak.keccak256 preimage).toList :=
  custodyIndex_agrees Keccak.keccak256 Contract.sampleDeployment (Vector.replicate 32 7) 1 3
    (by decide) (by decide)

theorem CommitsTo.commit (hcommits : CommitsTo keccak256 chunks n record) (hfits : n < 2 ^ 64) :
    ∃ commit, (ProviderView.ofProvider record).commit = some commit ∧
      commit.seed = record.commitSeed ∧ commit.root = record.commitRoot ∧
      commit.leafCount = n := by
  have hcount : record.commitLeafCount % 2 ^ 64 = n := by
    rw [(Prod.mk.inj hcommits.pin).2, Nat.mod_eq_of_lt hfits]
  exact ⟨_, if_pos hcommits.pending, rfl, rfl, hcount⟩

theorem Store.Holds.reader (hholds : store.Holds disk chunks) (hpos : 0 < n)
    (hle : n ≤ chunks.length) : (store.reader disk).Holds (streamOf chunks) n := by
  have hbelow : ∀ i < n, i < store.frontier.leafCount ∧
      ChunkFile.read disk i = .ok (streamOf chunks i) := by
    intro i hi
    have hchunk := (hholds i _).mpr (streamOf_getElem? (hi.trans_le hle))
    unfold Store.chunk at hchunk
    split at hchunk
    · cases hchunk
    · rename_i hin
      exact ⟨not_le.mp hin, hchunk⟩
  refine ⟨?_, fun i hi => (hbelow i hi).2⟩
  have hlast := (hbelow (n - 1) (by omega)).1
  change n ≤ store.frontier.leafCount
  omega

/-- The positions that the daemon derives. -/
theorem sampleIndices_eq (hparams : params.Matches dep providerId) {commit : Commit}
    (hpos : 0 < commit.leafCount) (count : Nat) :
    sampleIndices params keccak256 commit count = .ok ((List.range count).map
      (samplePosition keccak256 dep commit.seed providerId commit.leafCount)) := by
  apply mapM_eq_ok_map
  intro j _
  rw [hparams.instanceAddress, hparams.providerId]
  exact reference_custodyIndex_eq commit.seed j hpos commit.leafCountFits

/-- The witness carries what the commit binds, the honest peaks, and the honest proof of
every position. -/
structure HonestWitness (keccak256 : ByteString → Hash) (dep : Contract.Deployment)
    (chunks : List Chunk) (id : Nat) (commit : Commit) (w : CustodyWitness) : Prop where
  instanceAddress : w.instanceAddress = dep.self
  providerId : w.providerId = id
  seed : w.seed = commit.seed
  root : w.root = commit.root
  leafCount : w.leafCount = commit.leafCount
  k : w.k = dep.params.custodyK
  peaks : w.peaks = Contract.firstPeaks keccak256 (streamOf chunks) commit.leafCount
  samples : w.samples = ((List.range dep.params.custodyK).map
    (samplePosition keccak256 dep commit.seed id commit.leafCount)).map fun index =>
      ⟨streamOf chunks index, honestPath keccak256 (streamOf chunks) index commit.leafCount⟩

theorem buildWitness_honest (hholds : store.Holds disk chunks)
    (hparams : params.Matches dep providerId) {commit : Commit} (hpos : 0 < commit.leafCount)
    (hle : commit.leafCount ≤ chunks.length)
    (hroot : commit.root = Contract.MMR.bagRoot keccak256 commit.leafCount
      (Contract.firstPeaks keccak256 (streamOf chunks) commit.leafCount)) :
    ∃ w, buildWitness keccak256 params commit (store.reader disk) = .ok w ∧
      HonestWitness keccak256 dep chunks providerId commit w := by
  have hfits := commit.leafCountFits
  have hindices := @sampleIndices_eq keccak256 _ _ _ hparams commit hpos params.custodyK
  have hbelow : ∀ index ∈ (List.range params.custodyK).map
      (samplePosition keccak256 dep commit.seed providerId commit.leafCount),
        index < commit.leafCount := by
    intro index hmem
    obtain ⟨j, _, rfl⟩ := List.mem_map.mp hmem
    exact Nat.mod_lt _ hpos
  have hset := @buildProofSet_served keccak256 (store.reader disk) (streamOf chunks)
    commit.leafCount (fun _ => rfl) (hholds.reader hpos hle) hfits _ hbelow commit.root hroot.symm
  refine ⟨_, bind_eq_ok.mpr ⟨_, mapError_eq_ok.mpr hindices, bind_eq_ok.mpr ⟨_, hset, rfl⟩⟩,
    hparams.instanceAddress, hparams.providerId, rfl, rfl, rfl, hparams.custodyK, rfl, ?_⟩
  rw [← hparams.custodyK]

/-- The sample of an ordinal is the chunk at its position with the honest path. -/
theorem HonestWitness.sample_eq {commit : Commit} {w : CustodyWitness}
    (hhonest : HonestWitness keccak256 dep chunks providerId commit w) {j : Nat}
    {sample : CustodySample} (hsample : w.toCircuitInput.samples[j]? = some sample) :
    sample = ⟨streamOf chunks (samplePosition keccak256 dep commit.seed providerId
        commit.leafCount j),
      honestPath keccak256 (streamOf chunks) (samplePosition keccak256 dep commit.seed providerId
        commit.leafCount j) commit.leafCount⟩ := by
  change (w.samples.map _)[j]? = some sample at hsample
  rw [hhonest.samples, List.getElem?_map, List.getElem?_map, List.getElem?_map] at hsample
  obtain ⟨_, hproven, rfl⟩ := Option.map_eq_some_iff.mp hsample
  obtain ⟨_, hposition, rfl⟩ := Option.map_eq_some_iff.mp hproven
  obtain ⟨ordinal, hordinal, rfl⟩ := Option.map_eq_some_iff.mp hposition
  obtain rfl : j = ordinal := by
    obtain ⟨_, hget⟩ := List.getElem?_eq_some_iff.mp hordinal
    rw [List.getElem_range] at hget
    exact hget
  rfl

/-- Every sample of an honest witness verifies at its position. -/
theorem HonestWitness.included {commit : Commit} {w : CustodyWitness}
    (hhonest : HonestWitness keccak256 dep chunks providerId commit w)
    (hpos : 0 < commit.leafCount) {j : Nat} {sample : CustodySample}
    (hsample : w.toCircuitInput.samples[j]? = some sample) :
    Included keccak256 w.toCircuitInput j sample := by
  have hfits := commit.leafCountFits
  obtain rfl := hhonest.sample_eq hsample
  have hindex := @reference_custodyIndex_eq keccak256 dep providerId _ commit.seed j hpos hfits
  have hverify := Reference.verify_honestPath keccak256 (streamOf chunks)
    (show samplePosition keccak256 dep commit.seed providerId commit.leafCount j <
      commit.leafCount from Nat.mod_lt _ hpos) hfits
  refine ⟨samplePosition keccak256 dep commit.seed providerId commit.leafCount j, ?_, ?_⟩
  · change Reference.custodyIndex keccak256 w.instanceAddress w.seed w.providerId j w.leafCount = _
    rw [hhonest.instanceAddress, hhonest.seed, hhonest.providerId, hhonest.leafCount, hindex]
  · change Reference.verify keccak256 _ _ _ w.leafCount w.peaks = _
    rw [hhonest.leafCount, hhonest.peaks]
    exact hverify

/-- For an honest witness the guest hashes strings of the pinned tree only. -/
theorem HonestWitness.guestPreimages_subset {commit : Commit} {w : CustodyWitness}
    (hhonest : HonestWitness keccak256 dep chunks providerId commit w)
    (hpos : 0 < commit.leafCount) :
    guestPreimages keccak256 w.toCircuitInput ⊆
      Contract.pinPreimages keccak256 (streamOf chunks) commit.leafCount := by
  have hfits := commit.leafCountFits
  rintro x (rfl | ⟨j, sample, index, hsample, hindex, hx⟩)
  · change rootPreimage w.leafCount w.peaks ∈ _
    rw [hhonest.leafCount, hhonest.peaks]
    exact Set.mem_insert _ _
  · obtain rfl := hhonest.sample_eq hsample
    change Reference.custodyIndex keccak256 w.instanceAddress w.seed w.providerId j w.leafCount =
      .ok index at hindex
    change x ∈ Contract.proofPreimages keccak256 _ index w.leafCount at hx
    rw [hhonest.leafCount] at hindex hx
    rw [hhonest.instanceAddress, hhonest.seed, hhonest.providerId,
      reference_custodyIndex_eq commit.seed j hpos hfits] at hindex
    obtain rfl := Except.ok.inj hindex
    exact Set.mem_insert_of_mem _
      (Contract.proofPreimages_honest keccak256 (streamOf chunks) hfits (Nat.mod_lt _ hpos) hx)

/-- The guest accepts an honest witness, and returns the bytes of the contract. -/
theorem HonestWitness.custody_eq {commit : Commit} {w : CustodyWitness}
    (hhonest : HonestWitness keccak256 dep chunks providerId commit w)
    (hpos : 0 < commit.leafCount)
    (hroot : commit.root = Contract.MMR.bagRoot keccak256 commit.leafCount
      (Contract.firstPeaks keccak256 (streamOf chunks) commit.leafCount)) :
    custody keccak256 w.toCircuitInput = .ok (Contract.encodeCustodyPublicValues dep providerId
      commit.seed commit.root commit.leafCount dep.params.custodyK) := by
  refine Circuit.custody_eq_ok.mpr ⟨?_, ?_, ?_, fun j sample => hhonest.included hpos, ?_⟩
  · change 0 < w.leafCount
    rw [hhonest.leafCount]
    exact hpos
  · change Reference.root keccak256 w.leafCount w.peaks = w.root
    rw [hhonest.leafCount, hhonest.peaks, hhonest.root, hroot]
    rfl
  · change (w.samples.map _).length = w.k
    rw [hhonest.samples, List.length_map, List.length_map, List.length_map, List.length_range,
      hhonest.k]
  · change _ = custodyPublicValues w.instanceAddress w.providerId w.seed w.root w.leafCount w.k
    rw [hhonest.instanceAddress, hhonest.providerId, hhonest.seed, hhonest.root, hhonest.leafCount,
      hhonest.k]
    rfl

/-! ## Only the samples of the dataset are accepted -/

/-- Bytes that agree bind every field of the input. -/
theorem custody_binds {input : CustodyInput} (hparams : params.Matches dep providerId)
    (hfits : record.commitLeafCount < 2 ^ 64)
    (hcustody : custody keccak256 input = .ok (expectedPublicValues dep providerId record)) :
    input.instanceAddress = dep.self ∧ input.providerId = providerId ∧
      input.seed = record.commitSeed ∧ input.root = record.commitRoot ∧
      input.leafCount = record.commitLeafCount ∧ input.k = dep.params.custodyK := by
  obtain ⟨_, _, _, _, hvalues⟩ := Circuit.custody_eq_ok.mp hcustody
  have hid : providerId < 2 ^ 64 := hparams.providerId ▸ params.providerFits
  have hk : dep.params.custodyK < 2 ^ 64 := dep.inRange.custodyK.trans (by decide)
  exact Reference.custodyPublicValues_inj input.providerFits hid input.leafCountFits hfits
    input.kFits hk hvalues.symm

theorem custody_sound {input : CustodyInput} (hparams : params.Matches dep providerId)
    (hcommits : CommitsTo keccak256 chunks n record) (hpos : 0 < n) (hle : n ≤ chunks.length)
    (hfits : n < 2 ^ 64)
    (hcustody : custody keccak256 input = .ok (expectedPublicValues dep providerId record))
    (hfree : NoCollision keccak256 (Contract.pinPreimages keccak256 (streamOf chunks) n)
      (guestPreimages keccak256 input)) :
    input.samples.length = dep.params.custodyK ∧
      ∀ (j : Nat) sample, input.samples[j]? = some sample → ∃ index,
        Contract.custodyIndex keccak256 dep record.commitSeed providerId j n = .ok index ∧
        chunks[index]? = some sample.chunk := by
  obtain ⟨hpinRoot, rfl⟩ := Prod.mk.inj hcommits.pin
  obtain ⟨hself, hid, hseed, hroot, hcount, hk⟩ := custody_binds hparams hfits hcustody
  obtain ⟨_, hbagged, hlength, hincluded, _⟩ := Circuit.custody_eq_ok.mp hcustody
  have hpeaks : input.peaks =
      Contract.firstPeaks keccak256 (streamOf chunks) record.commitLeafCount := by
    rw [hcount, hroot, hpinRoot] at hbagged
    exact Contract.pin_sound hfits (Prod.ext hbagged rfl) (Or.inl (hcount ▸ rfl)) hfree
  refine ⟨hlength.trans hk, ?_⟩
  intro j sample hsample
  obtain ⟨index, hindex, hverify⟩ := hincluded j sample hsample
  have hseen : Contract.proofPreimages keccak256 ⟨sample.chunk, sample.path⟩ index
      input.leafCount ⊆ guestPreimages keccak256 input :=
    fun x hx => Or.inr ⟨j, sample, index, hsample, hindex, hx⟩
  rw [hcount] at hseen hverify
  rw [hself, hseed, hid, hcount, reference_custodyIndex_eq record.commitSeed j hpos hfits] at hindex
  -- the guest and the contract reach one verdict
  obtain ⟨accepted, hours, htheirs⟩ :=
    @Contract.MMR.verify_eq keccak256 sample.chunk index record.commitLeafCount sample.path
      input.peaks hfits
  obtain rfl : true = accepted := Except.ok.inj (hverify.symm.trans htheirs)
  rw [hpeaks] at hours
  obtain ⟨hbelow, hchunk⟩ := @Contract.verify_sound keccak256 (streamOf chunks)
    ⟨sample.chunk, sample.path⟩ _ _ hfits hours (hfree.mono (Set.subset_insert _ _) hseen)
  refine ⟨index, ?_, ?_⟩
  · rw [contract_custodyIndex_eq record.commitSeed j hpos hfits]
    exact congrArg Except.ok (Except.ok.inj hindex)
  · rw [streamOf_getElem? (hbelow.trans_le hle), ← hchunk]

/-- A store with the committed chunks can always prove the month: the witness builds,
the guest accepts it, and its bytes are the contract's.  And a guest run that returns
these bytes has seen the dataset's own chunk at every position. -/
theorem custody_agreement (hholds : store.Holds disk chunks)
    (hparams : params.Matches dep providerId) (hcommits : CommitsTo keccak256 chunks n record)
    (hpos : 0 < n) (hle : n ≤ chunks.length) (hfits : n < 2 ^ 64) :
    (∃ commit w, (ProviderView.ofProvider record).commit = some commit ∧
      buildWitness keccak256 params commit (store.reader disk) = .ok w ∧
      custody keccak256 w.toCircuitInput = .ok (Contract.encodeCustodyPublicValues dep providerId
        record.commitSeed record.commitRoot n dep.params.custodyK)) ∧
    ∀ input : CustodyInput,
      custody keccak256 input = .ok (Contract.encodeCustodyPublicValues dep providerId
        record.commitSeed record.commitRoot n dep.params.custodyK) →
      NoCollision keccak256 (Contract.pinPreimages keccak256 (streamOf chunks) n)
        (guestPreimages keccak256 input) →
      input.samples.length = dep.params.custodyK ∧
        ∀ (j : Nat) sample, input.samples[j]? = some sample → ∃ index,
          Contract.custodyIndex keccak256 dep record.commitSeed providerId j n = .ok index ∧
          chunks[index]? = some sample.chunk := by
  obtain ⟨hpinRoot, hpinCount⟩ := Prod.mk.inj hcommits.pin
  refine ⟨?_, ?_⟩
  · obtain ⟨commit, hcommit, hseed, hroot, rfl⟩ := hcommits.commit hfits
    have hbagged := hroot.trans hpinRoot
    obtain ⟨w, hbuild, hhonest⟩ := buildWitness_honest hholds hparams hpos hle hbagged
    refine ⟨commit, w, hcommit, hbuild, ?_⟩
    rw [← hseed, ← hroot]
    exact hhonest.custody_eq hpos hbagged
  · intro input hcustody hfree
    rw [← hpinCount] at hcustody
    exact custody_sound hparams hcommits hpos hle hfits hcustody hfree

end

/-- A store that has ingested these chunks in one declaration. -/
def sampleStore (chunks : List Chunk) : Store :=
  ⟨⟨1, chunks.length, Contract.firstPeaks Keccak.keccak256 (streamOf chunks) chunks.length⟩⟩

def sampleDisk (chunks : List Chunk) : Disk DataFile :=
  Function.update (fun _ => none) .chunks (some (packWords chunks))

theorem sampleStore_holds (chunks : List Chunk) :
    (sampleStore chunks).Holds (sampleDisk chunks) chunks :=
  fun _ _ => Store.chunk_eq_ok (Function.update_self ..) rfl

/-- A loop with short periods. -/
def sampleCustodyParams : CustodyParams where
  instanceAddress := Vector.replicate 20 2
  providerId := 1
  custodyPeriod := 10
  lapseGrace := 5
  custodyK := 4
  maxSample := 2
  escapeThreshold := 3
  providerFits := Contract.one_fits
  custodyKFits := Contract.sampleDeployment.inRange.custodyK

theorem sampleCustodyParams_matches :
    sampleCustodyParams.Matches Contract.sampleDeployment 1 := ⟨rfl, rfl, rfl⟩

open Reference (threeChunks threeNodes threeStrings threeStrings_hashes threeStream)

theorem streamOf_threeChunks : streamOf threeChunks = threeStream := rfl

/-- A commit of the first period, to the first two chunks. -/
def twoChunkRecord : Contract.Provider :=
  { Contract.Provider.empty with
    status := .active
    commitPeriodPlusOne := 1
    commitRoot := (Contract.pinAt Keccak.keccak256 (streamOf threeChunks) 2).1
    commitLeafCount := 2 }

theorem twoChunkRecord_commits : CommitsTo Keccak.keccak256 threeChunks 2 twoChunkRecord :=
  ⟨Nat.one_ne_zero, rfl⟩

/-- The strings over the three chunks, and that of the snapshot's root. -/
def snapshotStrings : List ByteString :=
  rootPreimage 2 [threeNodes.getD 0 default] :: threeStrings

theorem snapshotStrings_nodup : (snapshotStrings.map Keccak.keccak256).Nodup := by
  have hroot : Keccak.keccak256 (rootPreimage 2 [threeNodes.getD 0 default]) =
      beWord 32 0xabd55f6559d12798650314a2a265c7d97fc18ba05dce2f34f4c43d8bd040e0b1 := by
    decide +kernel
  rw [snapshotStrings, List.map_cons, hroot, threeStrings_hashes]
  decide +kernel

theorem snapshot_strings :
    Contract.pinPreimages Keccak.keccak256 (streamOf threeChunks) 2 ⊆ {x | x ∈ snapshotStrings} := by
  rintro x (rfl | hx)
  · have hpeaks : Contract.firstPeaks Keccak.keccak256 (streamOf threeChunks) 2 =
        [threeNodes.getD 0 default] := by
      rw [← Reference.threeChunks_nodes, ← Reference.threeChunks_leaves]
      rfl
    rw [hpeaks]
    exact List.mem_cons_self
  · refine List.mem_cons_of_mem _ (Reference.threeStream_strings ?_)
    rcases hx with ⟨i, hi, rfl⟩ | ⟨pos, level, hend, rfl⟩
    · rw [streamOf_threeChunks]
      exact Or.inl ⟨i, Nat.lt_succ_of_lt hi, rfl⟩
    · rw [streamOf_threeChunks]
      exact Or.inr ⟨pos, level, Nat.le_succ_of_le hend, rfl⟩

theorem custody_agreement_snapshot : ∃ commit w,
    (ProviderView.ofProvider twoChunkRecord).commit = some commit ∧
      buildWitness Keccak.keccak256 sampleCustodyParams commit
        ((sampleStore threeChunks).reader (sampleDisk threeChunks)) = .ok w ∧
      w.samples.length = 4 ∧
      ∀ (j : Nat) sample, w.toCircuitInput.samples[j]? = some sample → ∃ index,
        Contract.custodyIndex Keccak.keccak256 Contract.sampleDeployment twoChunkRecord.commitSeed 1
          j 2 = .ok index ∧ threeChunks[index]? = some sample.chunk := by
  obtain ⟨⟨commit, w, hcommit, hbuild, hcustody⟩, hsound⟩ := custody_agreement
    (sampleStore_holds threeChunks) sampleCustodyParams_matches twoChunkRecord_commits Nat.two_pos
    (show 2 ≤ 3 by decide) (by decide)
  obtain ⟨sameCommit, hsame, _, hroot, hcount⟩ := twoChunkRecord_commits.commit (by decide)
  obtain rfl : commit = sameCommit := Option.some.inj (hcommit.symm.trans hsame)
  have hpinned : commit.root = Contract.MMR.bagRoot Keccak.keccak256 commit.leafCount
      (Contract.firstPeaks Keccak.keccak256 (streamOf threeChunks) commit.leafCount) := by
    rw [hroot, hcount]
    exact congrArg Prod.fst twoChunkRecord_commits.pin
  obtain ⟨sameWitness, hagain, hhonest⟩ := buildWitness_honest (sampleStore_holds threeChunks)
    sampleCustodyParams_matches (hcount ▸ Nat.two_pos) (hcount.trans_le (show 2 ≤ 3 by decide))
    hpinned
  obtain rfl : w = sameWitness := Except.ok.inj (hbuild.symm.trans hagain)
  have hguest := hhonest.guestPreimages_subset (hcount ▸ Nat.two_pos)
  rw [hcount] at hguest
  obtain ⟨hlength, hchunks⟩ := hsound w.toCircuitInput hcustody
    ((Reference.noCollision_of_nodup snapshotStrings_nodup).mono snapshot_strings
      (hguest.trans snapshot_strings))
  refine ⟨commit, w, hcommit, hbuild, ?_, hchunks⟩
  exact (List.length_map ..).symm.trans hlength

end Blobsitter.Daemon
