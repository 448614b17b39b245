import Blobsitter.Carrier.Coverage
import Blobsitter.Circuit.Witnesses
import Blobsitter.Contract.Declarations

/-!
# Declaring the pattern

The publisher's half of a declaration: the next pattern chunks are packed, committed to,
opened at the evaluation point and signed, all from what the endpoint says about the
instance.  What comes out passes the carrier's checks, is proved by the guest, and is
accepted by the contract, which then commits to the longer pattern.
-/

namespace Blobsitter.Testkit

open Library
open Reference (Chunk Hash Address Scalar packed packSlice blobElements blobPolynomial toBe rBls
  updateHeights)
open Intents (DeclarationIntent IntentPackage Kzg Opening Validated versionedHash validate)
open Carrier (Header Provider Views Serves CarriedBy localChecks carriedCall slotSeconds)
open Circuit (EquivalenceInput equivalence blobScalars patternChunk)
open Contract (Block Chain Deployment Msg Outcome Reachable Storage World Accepted firstPeaks
  chunksFrom zeroAddress zeroHash)

/-- `c_kzg` on the publisher's side: it opens a blob at a point. -/
structure PublisherKzg extends Kzg where
  computeKzgProof : ByteString → Hash → Except String (Word 48 × Hash)

/-- One instance behind its endpoint, the publisher's key, and the proof that the verifier
accepts. -/
structure Harness where
  chainId : Nat
  instanceAddress : Address
  views : Views
  latest : Except String (Option Nat)
  signHash : Hash → Except String (Word 65)
  validProof : ByteString
  chainIdFits : chainId < 2 ^ 64

inductive HarnessError where
  | rpc (message : String)
  | panicked (message : String)

theorem word_fits (n : Nat) : n % 2 ^ 64 < 2 ^ 64 := Nat.mod_lt n (Nat.two_pow_pos 64)

/-- The 65 bytes of a signature; the wallet takes a recovery byte from 27 on. -/
def signPackageDigest (harness : Harness) (digest : Hash) : Except HarnessError ByteString := do
  let bytes ← (harness.signHash digest).mapError .rpc
  let recovery := bytes.get ⟨64, Nat.lt_succ_self 64⟩
  return if recovery < 27 then (bytes.set 64 (recovery + 27) (Nat.lt_succ_self 64)).toList
    else bytes.toList

/-- The intent over these roots, valid for an hour from the latest block on. -/
def intentOf (nonce : Nat) (latest : Option Nat) (versionedHashes newSubtreePeaks : List Hash)
    (newLeafCount : Nat) (designatedCarrier : Address) : DeclarationIntent where
  nonce := nonce % 2 ^ 64
  deadline := (latest.getD 0 + 3600) % 2 ^ 64
  blobVersionedHashes := versionedHashes
  newSubtreePeaks := newSubtreePeaks
  newLeafCount := newLeafCount % 2 ^ 64
  designatedCarrier := designatedCarrier
  appPointer := zeroHash
  nonceFits := word_fits nonce
  deadlineFits := word_fits _
  newLeafCountFits := word_fits newLeafCount

def Harness.unsigned (harness : Harness) (intent : DeclarationIntent) (blobs : List ByteString)
    (openings : List Opening) : IntentPackage where
  chainId := harness.chainId
  instanceAddress := harness.instanceAddress
  body := .declaration intent blobs openings harness.validProof
  signature := []
  chainIdFits := harness.chainIdFits

section

variable (keccak256 : ByteString → Hash) (sha256 : ByteString → Word 32) (kzg : PublisherKzg)

/-- One opening at `z` for each blob with its commitment. -/
def computeOpenings (z : Hash) (blobs : List ByteString) (commitments : List (Word 48)) :
    Except HarnessError (List Opening) :=
  (blobs.zip commitments).mapM fun pair => do
    let opened ← (kzg.computeKzgProof pair.1 z).mapError .rpc
    return ⟨opened.2, pair.2, opened.1⟩

/-- `build_declaration_package`: the next `m` pattern chunks on top of the instance's state. -/
def buildDeclarationPackage (harness : Harness) (m : Nat) (designatedCarrier : Address) :
    Except HarnessError IntentPackage := do
  let nonce ← harness.views.declarationNonce.mapError .rpc
  let n0 ← harness.views.leafCount.mapError .rpc
  let priorPeaks ← harness.views.allPeaks.mapError .rpc
  let n1 := (n0 + m) % 2 ^ 64
  let chunks := (List.range' n0 (n1 - n0)).map patternChunk
  let blobs ← (Reference.pack chunks).mapError fun fault => .panicked fault.message
  let newSubtreePeaks ← (Reference.updateSubtreeRoots keccak256 n0 chunks).mapError fun fault =>
    .panicked fault.message
  let commitments ← blobs.mapM fun raw => (kzg.blobToKzgCommitment raw).mapError .rpc
  let versionedHashes := commitments.map (versionedHash sha256)
  let z := Reference.fsZ keccak256 harness.instanceAddress versionedHashes priorPeaks newSubtreePeaks
    n0 n1
  let openings ← computeOpenings kzg z blobs commitments
  let latest ← harness.latest.mapError .rpc
  let package := harness.unsigned (intentOf nonce latest versionedHashes newSubtreePeaks (n0 + m)
    designatedCarrier) blobs openings
  let signature ← signPackageDigest harness (package.signingDigest keccak256)
  return { package with signature := signature }

end

/-- A blob whose elements are below the modulus. -/
def Canonical (raw : ByteString) : Prop :=
  raw.length = Reference.blobBytes ∧ ∀ e ∈ blobElements raw, wordNat e < rBls

/-- The value at `z` of the polynomial that a blob stores. -/
noncomputable def blobValue (raw : ByteString) (z : Hash) : Hash :=
  toBe ((blobPolynomial (blobScalars raw)).eval (wordNat z : Scalar))

/-- The library commits to canonical blobs, opens them to their values, and verifies what
it has opened. -/
structure PublisherKzg.Opens (kzg : PublisherKzg) (commit : ByteString → Word 48)
    (prove : ByteString → Hash → Word 48) : Prop where
  commits : ∀ raw, Canonical raw → kzg.blobToKzgCommitment raw = .ok (commit raw)
  opens : ∀ raw z, Canonical raw → wordNat z < rBls →
    kzg.computeKzgProof raw z = .ok (prove raw z, blobValue raw z)
  verifies : ∀ raw z, Canonical raw → wordNat z < rBls →
    kzg.verifyKzgProof (commit raw) z (blobValue raw z) (prove raw z) = .ok true

/-- The view functions in one state. -/
def viewsOf (dep : Deployment) (s : Storage) : Views where
  publisher := .ok dep.params.publisher
  declarationNonce := .ok s.declarationNonce
  appPointerNonce := .ok s.appPointerNonce
  successorNonce := .ok s.successorNonce
  leafCount := .ok s.leafCount
  allPeaks := .ok s.peaks

/-- The carrier's endpoint answers, and from this state. -/
structure Live (provider : Provider) (header : Header) (dep : Deployment) (pinned : Block)
    (s : Storage) : Prop where
  chainId : provider.chainId = .ok pinned.chainid
  latest : provider.latest = .ok (some header)
  timestamp : header.timestamp = pinned.timestamp
  views : provider.views dep.self header.number = viewsOf dep s

/-- The harness stands for the instance, reads the same state at time `built`, and signs what
the publisher's wallet accepts. -/
structure Harness.Publishes (harness : Harness) (provider : Provider) (header : Header)
    (dep : Deployment) (pinned : Block) (s : Storage) (built : Nat) : Prop where
  chainId : harness.chainId = pinned.chainid
  instanceAddress : harness.instanceAddress = dep.self
  views : harness.views = viewsOf dep s
  latest : harness.latest = .ok (some built)
  signs : ∀ digest, ∃ signature, signPackageDigest harness digest = .ok signature ∧
    provider.isValidSignature dep.params.publisher header.number digest signature =
      .returned (Carrier.erc1271Magic ++ List.replicate 28 0)

/-- The carrier's transaction, included by the next slot, and the verifier's answer on it. -/
structure Carriage (sha256 : ByteString → Word 32) (kzg : Kzg) (provider : Provider)
    (header : Header) (dep : Deployment) (pinned block : Block) (carrier : Address)
    (blobs : List ByteString) (msg : Msg) (publicValues proof : ByteString) : Prop where
  sender : msg.sender = carrier
  outside : Contract.Outside dep msg.sender
  value : msg.value = 0
  carried : CarriedBy sha256 kzg provider header dep blobs msg
  chainid : block.chainid = pinned.chainid
  inTime : block.timestamp ≤ pinned.timestamp + slotSeconds
  priced : ∃ amount, Contract.reimbursement dep block msg blobs.length true = .ok amount
  verified : msg.verifyProof Contract.equivalenceVkey publicValues proof = true

section

variable {keccak256 : ByteString → Hash} {sha256 : ByteString → Word 32} {kzg : PublisherKzg}
variable {harness : Harness} {provider : Provider} {header : Header} {dep : Deployment}
variable {pinned block : Block} {s : Storage} {msg : Msg} {built m : Nat}
variable {designatedCarrier carrier : Address}
variable {commit : ByteString → Word 48} {prove : ByteString → Hash → Word 48}
variable {package : IntentPackage} {intent : DeclarationIntent} {blobs : List ByteString}
variable {openings : List Opening} {stream : Nat → Chunk}

theorem Live.serves (hlive : Live provider header dep pinned s) :
    Serves provider header dep pinned s := by
  constructor
  case latest =>
    intro latest hanswer
    rw [hlive.latest] at hanswer
    exact (Option.some.inj (Except.ok.inj hanswer)).symm
  case timestamp => exact hlive.timestamp
  case chainId =>
    intro id hanswer
    rw [hlive.chainId] at hanswer
    exact (Except.ok.inj hanswer).symm
  all_goals
    intro answer hanswer
    rw [hlive.views] at hanswer
    exact (Except.ok.inj hanswer).symm

theorem signPackageDigest_length {digest : Hash} {signature : ByteString}
    (hok : signPackageDigest harness digest = .ok signature) : signature.length = 65 := by
  obtain ⟨bytes, _, hok⟩ := bind_eq_ok.mp hok
  obtain rfl := pure_eq_ok.mp hok
  split
  · exact Vector.length_toList
  · exact Vector.length_toList

theorem packed_canonical {chunks : List Chunk} {raw : ByteString} (hmem : raw ∈ packed chunks) :
    Canonical raw := by
  obtain ⟨slice, hfits, rfl⟩ := Circuit.mem_packed hmem
  exact ⟨Reference.packSlice_length hfits, Circuit.packSlice_canonical⟩

/-- The high byte of every element is zero. -/
theorem packed_nonCanonicalElement {chunks : List Chunk} {raw : ByteString}
    (hmem : raw ∈ packed chunks) : Intents.nonCanonicalElement raw = none := by
  obtain ⟨slice, _, rfl⟩ := Circuit.mem_packed hmem
  rw [Intents.nonCanonicalElement, List.find?_eq_none]
  intro i hi
  obtain ⟨element, hslice, hhigh, _⟩ := @Reference.packSlice_element slice i (List.mem_range.mp hi)
  have hfirst := congrArg (·[0]?) hslice
  simp only [List.getElem?_take_of_lt (Nat.succ_pos 31), List.getElem?_drop, Nat.add_zero] at hfirst
  rw [List.getD_eq_getElem?_getD, hfirst, Vector.getElem?_toList,
    Vector.getElem?_eq_getElem (Nat.succ_pos 31), hhigh]
  exact Bool.not_eq_true _ ▸ rfl

/-- The last blob has the chunks that fill no blob. -/
theorem packed_getLast? {chunks : List Chunk} (hsome : chunks ≠ []) :
    ∃ slice, (packed chunks).getLast? = some (packSlice slice) ∧
      (chunks.length % Reference.fieldElementsPerBlob ≠ 0 →
        slice.length = chunks.length % Reference.fieldElementsPerBlob) := by
  induction hlen : chunks.length using Nat.strong_induction_on generalizing chunks with
  | _ length ih =>
      have hwidth : Reference.fieldElementsPerBlob = 4096 := rfl
      have hpos : 0 < chunks.length := List.length_pos_of_ne_nil hsome
      rw [Reference.packed_cons hsome]
      by_cases hrest : chunks.drop Reference.fieldElementsPerBlob = []
      · refine ⟨chunks.take Reference.fieldElementsPerBlob, ?_, ?_⟩
        · rw [hrest]
          rfl
        · have hle := List.drop_eq_nil_iff.mp hrest
          rw [List.length_take]
          rw [hwidth] at hle ⊢
          omega
      · have hdrop : (chunks.drop Reference.fieldElementsPerBlob).length =
            chunks.length - Reference.fieldElementsPerBlob := List.length_drop
        obtain ⟨slice, hlast, htail⟩ := ih _ (by omega) hrest rfl
        refine ⟨slice, ?_, ?_⟩
        · rw [List.getLast?_cons, hlast]
          rfl
        · have hlong := List.length_pos_of_ne_nil hrest
          rw [hdrop] at htail hlong
          rw [hwidth] at htail hlong ⊢
          omega

/-- Past the chunks the last blob is zero. -/
theorem packed_checkTail {chunks : List Chunk} (hsome : chunks ≠ []) :
    Carrier.checkTail chunks.length (packed chunks) = .ok () := by
  obtain ⟨slice, hlast, hlength⟩ := packed_getLast? hsome
  unfold Carrier.checkTail
  simp only
  split
  · rfl
  · rename_i htail
    have hnone : Carrier.nonZeroElement (chunks.length % Reference.fieldElementsPerBlob)
        (packSlice slice) = none := by
      rw [Carrier.nonZeroElement, List.find?_eq_none]
      intro i hi
      obtain ⟨hlow, hhigh⟩ := List.mem_range'_1.mp hi
      obtain ⟨element, hslice, _, hzero⟩ := @Reference.packSlice_element slice i (by omega)
      obtain rfl := hzero (by omega)
      rw [hslice, Bool.not_eq_true]
      exact Reference.eq_zeroElement.mp rfl
    rw [hlast]
    simp only [hnone]

/-! ## The package -/

/-- The evaluation point of a declaration on top of this state. -/
def evaluationPoint (keccak256 : ByteString → Hash) (dep : Deployment) (s : Storage)
    (intent : DeclarationIntent) : Hash :=
  Reference.fsZ keccak256 dep.self intent.blobVersionedHashes s.peaks intent.newSubtreePeaks
    s.leafCount intent.newLeafCount

/-- The package of the next `m` pattern chunks. -/
structure Built (keccak256 : ByteString → Hash) (sha256 : ByteString → Word 32) (harness : Harness)
    (dep : Deployment) (s : Storage) (built m : Nat) (designatedCarrier : Address)
    (commit : ByteString → Word 48) (prove : ByteString → Hash → Word 48) (package : IntentPackage)
    (intent : DeclarationIntent) (blobs : List ByteString) (openings : List Opening) : Prop where
  chainId : package.chainId = harness.chainId
  instanceAddress : package.instanceAddress = dep.self
  body : package.body = .declaration intent blobs openings harness.validProof
  signed : signPackageDigest harness (package.signingDigest keccak256) = .ok package.signature
  nonce : intent.nonce = s.declarationNonce
  deadline : intent.deadline = built + 3600
  newLeafCount : intent.newLeafCount = s.leafCount + m
  carrier : intent.designatedCarrier = designatedCarrier
  packing : blobs = packed (chunksFrom patternChunk s.leafCount m)
  hashes : intent.blobVersionedHashes = blobs.map fun raw => versionedHash sha256 (commit raw)
  roots : Reference.updateSubtreeRoots keccak256 s.leafCount
    (chunksFrom patternChunk s.leafCount m) = .ok intent.newSubtreePeaks
  opened : openings = blobs.map fun raw =>
    ⟨blobValue raw (evaluationPoint keccak256 dep s intent), commit raw,
      prove raw (evaluationPoint keccak256 dep s intent)⟩

/-- What the publisher hands to the guest. -/
def witnessOf (dep : Deployment) (s : Storage) (intent : DeclarationIntent) (blobs : List ByteString)
    (hfits : s.leafCount < 2 ^ 64) : EquivalenceInput where
  instanceAddress := dep.self
  blobVersionedHashes := intent.blobVersionedHashes
  priorPeaks := s.peaks
  priorLeafCount := s.leafCount
  newLeafCount := intent.newLeafCount
  blobs := blobs
  priorFits := hfits
  newFits := intent.newLeafCountFits

theorem evaluationPoint_lt : wordNat (evaluationPoint keccak256 dep s intent) < rBls :=
  Circuit.wordNat_reduced _

theorem computeOpenings_ok (hkzg : kzg.Opens commit prove) {z : Hash} (hz : wordNat z < rBls)
    (hcanonical : ∀ raw ∈ blobs, Canonical raw) :
    computeOpenings kzg z blobs (blobs.map commit) =
      .ok (blobs.map fun raw => ⟨blobValue raw z, commit raw, prove raw z⟩) := by
  unfold computeOpenings
  rw [← List.map_prod_left_eq_zip, List.mapM_map]
  refine mapM_eq_ok_map fun raw hmem => ?_
  change (kzg.computeKzgProof raw z).mapError HarnessError.rpc >>= _ = _
  rw [hkzg.opens raw z (hcanonical raw hmem) hz]
  rfl

/-- The builder succeeds. -/
theorem buildDeclarationPackage_ok
    (hpublishes : harness.Publishes provider header dep pinned s built)
    (hkzg : kzg.Opens commit prove) (hm : 1 ≤ m) (hfits : s.leafCount + m < 2 ^ 64)
    (hnonce : s.declarationNonce < 2 ^ 64) (hdeadline : built + 3600 < 2 ^ 64) :
    ∃ package intent blobs openings,
      buildDeclarationPackage keccak256 sha256 kzg harness m designatedCarrier = .ok package ∧
        Built keccak256 sha256 harness dep s built m designatedCarrier commit prove package intent
          blobs openings := by
  have hcount : (s.leafCount + m) % 2 ^ 64 = s.leafCount + m := Nat.mod_eq_of_lt hfits
  have hchunks : (List.range' s.leafCount ((s.leafCount + m) % 2 ^ 64 - s.leafCount)).map
      patternChunk = chunksFrom patternChunk s.leafCount m := by
    rw [hcount, Nat.add_sub_cancel_left]
    rfl
  have hroots := Contract.updateSubtreeRoots_chunksFrom keccak256 patternChunk hm hfits
  obtain ⟨raws, hraws⟩ : ∃ raws, raws = packed (chunksFrom patternChunk s.leafCount m) := ⟨_, rfl⟩
  have hcanonical : ∀ raw ∈ raws, Canonical raw := by
    intro raw hmem
    rw [hraws] at hmem
    exact packed_canonical hmem
  have hcommitments : raws.mapM (fun raw =>
      (kzg.blobToKzgCommitment raw).mapError HarnessError.rpc) = .ok (raws.map commit) := by
    refine mapM_eq_ok_map fun raw hmem => ?_
    rw [hkzg.commits raw (hcanonical raw hmem)]
    rfl
  obtain ⟨roots, hroots⟩ : ∃ roots, Reference.updateSubtreeRoots keccak256 s.leafCount
      (chunksFrom patternChunk s.leafCount m) = .ok roots := ⟨_, hroots⟩
  have hopenings := computeOpenings_ok hkzg (z := Reference.fsZ keccak256 dep.self
    ((raws.map commit).map (versionedHash sha256)) s.peaks roots s.leafCount (s.leafCount + m))
    (Circuit.wordNat_reduced _) hcanonical
  obtain ⟨intent, hintent⟩ : ∃ intent, intent = intentOf s.declarationNonce (some built)
      ((raws.map commit).map (versionedHash sha256)) roots (s.leafCount + m) designatedCarrier :=
    ⟨_, rfl⟩
  have hleafCount : intent.newLeafCount = s.leafCount + m := by
    rw [hintent]
    exact hcount
  obtain ⟨openings, hopened⟩ : ∃ openings : List Opening, openings = raws.map fun raw =>
      ⟨blobValue raw (evaluationPoint keccak256 dep s intent), commit raw,
        prove raw (evaluationPoint keccak256 dep s intent)⟩ := ⟨_, rfl⟩
  have hpoint : Reference.fsZ keccak256 dep.self ((raws.map commit).map (versionedHash sha256)) s.peaks
      roots s.leafCount (s.leafCount + m) = evaluationPoint keccak256 dep s intent := by
    rw [evaluationPoint, hleafCount, hintent]
    rfl
  rw [hpoint, ← hopened] at hopenings
  obtain ⟨signature, hsigned, _⟩ := hpublishes.signs
    ((harness.unsigned intent raws openings).signingDigest keccak256)
  refine ⟨{ harness.unsigned intent raws openings with signature := signature }, intent, raws,
    openings, ?_, rfl, hpublishes.instanceAddress, rfl, hsigned, ?_, ?_, hleafCount, ?_, hraws, ?_, ?_,
    hopened⟩
  · unfold buildDeclarationPackage
    rw [hpublishes.views, hpublishes.latest, hpublishes.instanceAddress]
    refine bind_eq_ok.mpr ⟨s.declarationNonce, rfl, bind_eq_ok.mpr ⟨s.leafCount, rfl, ?_⟩⟩
    refine bind_eq_ok.mpr ⟨s.peaks, rfl, ?_⟩
    simp only [hchunks]
    refine bind_eq_ok.mpr ⟨raws, mapError_eq_ok.mpr ?_, ?_⟩
    · rw [Reference.pack_eq, hraws]
    refine bind_eq_ok.mpr ⟨roots, mapError_eq_ok.mpr hroots, ?_⟩
    refine bind_eq_ok.mpr ⟨raws.map commit, hcommitments, ?_⟩
    simp only [hcount, hpoint]
    refine bind_eq_ok.mpr ⟨openings, hopenings, bind_eq_ok.mpr ⟨some built, rfl, ?_⟩⟩
    rw [← hintent]
    exact bind_eq_ok.mpr ⟨signature, hsigned, rfl⟩
  · rw [hintent]
    exact Nat.mod_eq_of_lt hnonce
  · rw [hintent]
    exact Nat.mod_eq_of_lt hdeadline
  · rw [hintent]
    rfl
  · rw [hintent]
    exact List.map_map
  · rw [hintent]
    exact hroots

namespace Built

variable (hbuilt : Built keccak256 sha256 harness dep s built m designatedCarrier commit prove package
  intent blobs openings)

include hbuilt

theorem canonical {raw : ByteString} (hmem : raw ∈ blobs) : Canonical raw := by
  rw [hbuilt.packing] at hmem
  exact packed_canonical hmem

theorem blobCount : blobs.length = (m + 4095) / 4096 := by
  rw [hbuilt.packing, Reference.packed_length, Contract.chunksFrom_length]

/-- Each blob is the signed one. -/
theorem blobMatches (hkzg : kzg.Opens commit prove) {j : Nat} {raw : ByteString}
    (hraw : blobs[j]? = some raw) :
    Intents.BlobMatches sha256 kzg.toKzg intent openings j raw (commit raw) := by
  have hcanonical := hbuilt.canonical (List.mem_of_getElem? hraw)
  refine ⟨hcanonical.1, hkzg.commits raw hcanonical, ?_, ?_⟩
  · rw [hbuilt.hashes, List.getElem?_map, hraw]
    rfl
  · rw [hbuilt.opened, List.getElem?_map, hraw]
    exact ⟨_, rfl, rfl⟩

/-- The package passes the static validation. -/
theorem valid (hkzg : kzg.Opens commit prove) (hm : 1 ≤ m) :
    validate sha256 kzg.toKzg package = .ok ⟨blobs.map commit⟩ := by
  have hlength := signPackageDigest_length hbuilt.signed
  have hcount := hbuilt.blobCount
  have hsome : ¬blobs.isEmpty = true := by
    rw [List.isEmpty_iff_length_eq_zero]
    omega
  have hcounts : ¬(intent.blobVersionedHashes.length ≠ blobs.length ∨
      openings.length ≠ blobs.length) := by
    rw [hbuilt.hashes, hbuilt.opened, List.length_map, List.length_map]
    simp
  have hblobs : Intents.validateBlobs sha256 kzg.toKzg intent openings blobs 0 =
      .ok (blobs.map commit) := by
    refine Intents.validateBlobs_ok fun j raw hraw => ⟨?_, ?_⟩
    · rw [Nat.zero_add]
      exact hbuilt.blobMatches hkzg hraw
    · have hmem := List.mem_of_getElem? hraw
      rw [hbuilt.packing] at hmem
      exact packed_nonCanonicalElement hmem
  unfold validate
  rw [if_neg (not_not_intro hlength), hbuilt.body]
  simp only
  rw [if_neg hsome, if_neg hcounts, hblobs]
  rfl

theorem commonChecks (hpublishes : harness.Publishes provider header dep pinned s built)
    (hlive : Live provider header dep pinned s) (hdeadline : built + 3600 < 2 ^ 64)
    (hfresh : pinned.timestamp + slotSeconds < built + 3600) :
    Carrier.commonChecks keccak256 provider package = .ok header := by
  have hchain : pinned.chainid = package.chainId := by
    rw [hbuilt.chainId, hpublishes.chainId]
  have htime : ¬(header.timestamp + slotSeconds) % 2 ^ 64 ≥ package.deadline := by
    have hlast : package.deadline = built + 3600 := by
      rw [IntentPackage.deadline, hbuilt.body]
      exact hbuilt.deadline
    rw [hlast, hlive.timestamp, Nat.mod_eq_of_lt (hfresh.trans hdeadline)]
    exact not_le.mpr hfresh
  have hpublisher : (provider.views package.instanceAddress header.number).publisher =
      .ok dep.params.publisher := by
    rw [hbuilt.instanceAddress, hlive.views]
    rfl
  have hwallet : Carrier.walletAccepts (provider.isValidSignature dep.params.publisher header.number
      (package.signingDigest keccak256) package.signature) = .ok () := by
    obtain ⟨signature, hsigned, hanswer⟩ := hpublishes.signs (package.signingDigest keccak256)
    obtain rfl : package.signature = signature := Except.ok.inj (hbuilt.signed.symm.trans hsigned)
    rw [hanswer]
    rfl
  unfold Carrier.commonChecks
  rw [hlive.chainId, hlive.latest]
  refine bind_eq_ok.mpr ⟨pinned.chainid, rfl, ?_⟩
  refine bind_eq_ok.mpr ⟨(), Carrier.rejectIf_eq_ok.mpr (not_not_intro hchain), ?_⟩
  refine bind_eq_ok.mpr ⟨some header, rfl, bind_eq_ok.mpr ⟨header, rfl, ?_⟩⟩
  refine bind_eq_ok.mpr ⟨(), Carrier.rejectIf_eq_ok.mpr htime, ?_⟩
  refine bind_eq_ok.mpr ⟨dep.params.publisher, ?_, ?_⟩
  · rw [hpublisher]
    rfl
  · exact bind_eq_ok.mpr ⟨(), hwallet, rfl⟩

theorem checkOpenings (hkzg : kzg.Opens commit prove) :
    Carrier.checkOpenings kzg.toKzg (evaluationPoint keccak256 dep s intent) openings 0 = .ok () := by
  have hverified : ∀ (raws : List ByteString) (index : Nat), (∀ raw ∈ raws, Canonical raw) →
      Carrier.checkOpenings kzg.toKzg (evaluationPoint keccak256 dep s intent)
        (raws.map fun raw => ⟨blobValue raw (evaluationPoint keccak256 dep s intent), commit raw,
          prove raw (evaluationPoint keccak256 dep s intent)⟩) index = .ok () := by
    intro raws
    induction raws with
    | nil => exact fun _ _ => rfl
    | cons raw rest ih =>
        intro index hcanonical
        rw [List.map_cons, Carrier.checkOpenings]
        simp only [hkzg.verifies raw _ (hcanonical raw List.mem_cons_self) evaluationPoint_lt]
        exact ih (index + 1) fun other hmem => hcanonical other (List.mem_cons_of_mem raw hmem)
  rw [hbuilt.opened]
  exact hverified blobs 0 fun raw hmem => hbuilt.canonical hmem

theorem subtreeCount (hm : 1 ≤ m) (hfits : s.leafCount + m < 2 ^ 64) :
    intent.newSubtreePeaks.length = (updateHeights s.leafCount m).length := by
  have hsome : chunksFrom patternChunk s.leafCount m ≠ [] := by
    rw [← List.length_pos_iff, Contract.chunksFrom_length]
    exact hm
  have hlength := Circuit.updateSubtreeRoots_length hsome (by
    rw [Contract.chunksFrom_length]
    exact hfits) hbuilt.roots
  rwa [Contract.chunksFrom_length] at hlength

/-- The package passes every check of a declaration that needs no simulation. -/
theorem declarationChecks (hlive : Live provider header dep pinned s)
    (hkzg : kzg.Opens commit prove) (hm : 1 ≤ m) (hfits : s.leafCount + m < 2 ^ 64)
    (hcarrier : designatedCarrier = zeroAddress ∨ designatedCarrier = carrier) :
    Carrier.declarationChecks keccak256 kzg.toKzg (provider.views dep.self header.number) dep.self
      carrier intent blobs openings = .ok () := by
  have hcount : intent.newLeafCount - s.leafCount = m := by
    rw [hbuilt.newLeafCount, Nat.add_sub_cancel_left]
  have hdesignated : ¬(intent.designatedCarrier ≠ zeroAddress ∧ intent.designatedCarrier ≠ carrier) := by
    rw [hbuilt.carrier]
    rintro ⟨hzero, hother⟩
    rcases hcarrier with rfl | rfl
    · exact hzero rfl
    · exact hother rfl
  have hblobs : blobs.length = Carrier.divCeil m Reference.fieldElementsPerBlob := by
    rw [Carrier.divCeil_eq, hbuilt.blobCount]
  have hsome : chunksFrom patternChunk s.leafCount m ≠ [] := by
    rw [← List.length_pos_iff, Contract.chunksFrom_length]
    exact hm
  have hsubtrees := hbuilt.subtreeCount hm hfits
  have htail : Carrier.checkTail m blobs = .ok () := by
    have hpacked := packed_checkTail hsome
    rw [Contract.chunksFrom_length, ← hbuilt.packing] at hpacked
    exact hpacked
  unfold Carrier.declarationChecks
  rw [hlive.views]
  refine bind_eq_ok.mpr ⟨s.declarationNonce, rfl, ?_⟩
  refine bind_eq_ok.mpr ⟨(), Carrier.rejectIf_eq_ok.mpr (not_not_intro hbuilt.nonce), ?_⟩
  refine bind_eq_ok.mpr ⟨(), Carrier.rejectIf_eq_ok.mpr hdesignated, ?_⟩
  refine bind_eq_ok.mpr ⟨s.leafCount, rfl, ?_⟩
  simp only [hcount]
  refine bind_eq_ok.mpr ⟨(), Carrier.rejectIf_eq_ok.mpr (Nat.ne_of_gt hm), ?_⟩
  refine bind_eq_ok.mpr ⟨(), Carrier.rejectIf_eq_ok.mpr (not_not_intro hblobs), ?_⟩
  refine bind_eq_ok.mpr ⟨updateHeights s.leafCount m, ?_, ?_⟩
  · rw [Reference.decompose_eq hm]
    rfl
  refine bind_eq_ok.mpr ⟨(), Carrier.rejectIf_eq_ok.mpr (not_not_intro hsubtrees), ?_⟩
  refine bind_eq_ok.mpr ⟨(), htail, bind_eq_ok.mpr ⟨s.peaks, rfl, ?_⟩⟩
  exact hbuilt.checkOpenings hkzg

theorem localChecks (hpublishes : harness.Publishes provider header dep pinned s built)
    (hlive : Live provider header dep pinned s) (hkzg : kzg.Opens commit prove) (hm : 1 ≤ m)
    (hfits : s.leafCount + m < 2 ^ 64) (hdeadline : built + 3600 < 2 ^ 64)
    (hfresh : pinned.timestamp + slotSeconds < built + 3600)
    (hcarrier : designatedCarrier = zeroAddress ∨ designatedCarrier = carrier) :
    localChecks keccak256 kzg.toKzg provider package carrier = .ok () := by
  unfold Carrier.localChecks
  refine bind_eq_ok.mpr ⟨header, hbuilt.commonChecks hpublishes hlive hdeadline hfresh, ?_⟩
  simp only [hbuilt.body, hbuilt.instanceAddress]
  exact hbuilt.declarationChecks hlive hkzg hm hfits hcarrier

/-- The guest proves the package, and commits to what the contract computes. -/
theorem proved (hm : 1 ≤ m) (hfits : s.leafCount < 2 ^ 64) :
    equivalence keccak256 (witnessOf dep s intent blobs hfits) =
      .ok (Contract.equivalencePublicValues (Contract.fsPreimageHash keccak256 dep
        intent.blobVersionedHashes s.peaks intent.newSubtreePeaks s.leafCount intent.newLeafCount)
        (openings.map Carrier.toContractOpening)) := by
  have hgrows : s.leafCount < intent.newLeafCount := by
    rw [hbuilt.newLeafCount]
    omega
  have hcount : (chunksFrom patternChunk s.leafCount m).length =
      intent.newLeafCount - s.leafCount := by
    rw [Contract.chunksFrom_length, hbuilt.newLeafCount, Nat.add_sub_cancel_left]
  have hhashes : intent.blobVersionedHashes.length =
      ((chunksFrom patternChunk s.leafCount m).length + 4095) / 4096 := by
    rw [hbuilt.hashes, List.length_map, hbuilt.blobCount, Contract.chunksFrom_length]
  obtain ⟨subtrees, hroots, hok⟩ := @Circuit.equivalence_honest keccak256
    (witnessOf dep s intent blobs hfits) _ hgrows hcount hbuilt.packing hhashes
  obtain rfl : intent.newSubtreePeaks = subtrees := Except.ok.inj (hbuilt.roots.symm.trans hroots)
  rw [hok, Contract.equivalencePublicValues_eq, hbuilt.opened, List.map_map, List.map_map]
  rfl

/-- The instance's peaks after the update are those of the longer stream. -/
theorem applyUpdate (hm : 1 ≤ m) (hfits : s.leafCount + m < 2 ^ 64)
    (hstream : ∀ i, s.leafCount ≤ i → i < s.leafCount + m → stream i = patternChunk i)
    (hpeaks : s.peaks = firstPeaks keccak256 stream s.leafCount) :
    Contract.MMR.applyUpdate keccak256 s.peaks s.leafCount intent.newSubtreePeaks
      (updateHeights s.leafCount m) =
        .ok (firstPeaks keccak256 stream (s.leafCount + m), s.leafCount + m) := by
  have hchunks : chunksFrom stream s.leafCount m = chunksFrom patternChunk s.leafCount m := by
    refine List.map_congr_left fun i hi => ?_
    obtain ⟨hlow, hhigh⟩ := List.mem_range'_1.mp hi
    exact hstream i hlow hhigh
  rw [hpeaks]
  refine Contract.applyUpdate_firstPeaks keccak256 stream hm hfits ?_
  rw [hchunks]
  exact hbuilt.roots

/-- Carried within the next slot, with an accepted proof, the package is dispatched. -/
theorem dispatched (hpublishes : harness.Publishes provider header dep pinned s built)
    (hlive : Live provider header dep pinned s) (hkzg : kzg.Opens commit prove) (hm : 1 ≤ m)
    (hfits : s.leafCount + m < 2 ^ 64) (hdeadline : built + 3600 < 2 ^ 64)
    (hfresh : pinned.timestamp + slotSeconds < built + 3600)
    (hcarrier : designatedCarrier = zeroAddress ∨ designatedCarrier = carrier)
    (hfree : s.entered = false) (hnonce : s.declarationNonce ≤ s.leafCount)
    (hgrown : s.activityCheckpointLeafCount ≤ s.leafCount)
    (hstream : ∀ i, s.leafCount ≤ i → i < s.leafCount + m → stream i = patternChunk i)
    (hpeaks : s.peaks = firstPeaks keccak256 stream s.leafCount)
    (hcarriage : Carriage sha256 kzg.toKzg provider header dep pinned block carrier blobs msg
      (Contract.equivalencePublicValues (Contract.fsPreimageHash keccak256 dep
        intent.blobVersionedHashes s.peaks intent.newSubtreePeaks s.leafCount intent.newLeafCount)
        (openings.map Carrier.toContractOpening)) harness.validProof) :
    ∃ amount, Contract.dispatch keccak256 dep block msg s (carriedCall package) =
      .ok (Contract.declareOutcome dep block msg s intent.toContract
        (firstPeaks keccak256 stream (s.leafCount + m)) (s.leafCount + m) amount) := by
  obtain ⟨hsender, _, hvalue, hcarried, hchain, htime, ⟨amount, hamount⟩, hproven⟩ := hcarriage
  obtain ⟨_, hpassed⟩ := Carrier.commonChecks_passed hlive.serves hbuilt.instanceAddress
    (hbuilt.commonChecks hpublishes hlive hdeadline hfresh)
  have hvalid := Intents.validate_declaration hbuilt.body (hbuilt.valid hkzg hm)
  have hblobs := hbuilt.blobCount
  have hsig : Contract.requireValidSignature msg (Contract.declarationDigest keccak256 dep block
      intent.toContract) package.signature = .ok () := by
    rw [Carrier.declarationDigest_eq hbuilt.instanceAddress hbuilt.body
      (hchain.trans hpassed.chain)]
    exact Carrier.requireValidSignature_ok hcarried hpassed
  have hextra : msg.blobhash blobs.length = zeroHash := by
    rw [Msg.blobhash, List.getD_eq_default _ _ hcarried.blobCount.le]
  have hdesignated : intent.designatedCarrier = zeroAddress ∨
      intent.designatedCarrier = msg.sender := by
    rw [hbuilt.carrier, hsender]
    exact hcarrier
  have hlast : block.timestamp ≤ intent.deadline := by
    rw [hbuilt.deadline]
    exact htime.trans hfresh.le
  have hopened := Carrier.checkOpenings_carried hvalid hcarried
    (Carrier.checkOpenings_eq_ok (hbuilt.checkOpenings hkzg))
  have hhashes := Carrier.checkBlobHashes_carried hvalid hcarried
  have hhashCount := hvalid.hashCount
  have hopeningCount := hvalid.openingCount
  rw [hblobs] at hextra hopened hhashes hamount hhashCount hopeningCount
  have hheights := Contract.MMR.decompose_eq_heights hfits
  have hgrows := hbuilt.newLeafCount
  have hnext : intent.nonce + 1 < 2 ^ 64 := by
    rw [hbuilt.nonce]
    omega
  have hbody : Contract.declareFor keccak256 dep block msg s intent.toContract package.signature
      (openings.map Carrier.toContractOpening) harness.validProof =
        .ok (Contract.declareOutcome dep block msg s intent.toContract
          (firstPeaks keccak256 stream (s.leafCount + m)) (s.leafCount + m) amount) :=
    Contract.declareFor_ok hfree hlast hbuilt.nonce hdesignated hsig hgrows hm hhashCount
      ((List.length_map _).trans hopeningCount) hhashes hextra hheights (hbuilt.subtreeCount hm hfits)
      hopened hproven (hbuilt.applyUpdate hm hfits hstream hpeaks) hnext
      (hgrown.trans (Nat.le_add_right _ _)) hamount
  have hguard : ¬((Contract.Call.declareFor intent.toContract package.signature
      (openings.map Carrier.toContractOpening) harness.validProof).inRange = false ∨
      (Contract.Call.declareFor intent.toContract package.signature
        (openings.map Carrier.toContractOpening) harness.validProof).payable = false ∧
          msg.value ≠ 0) := by
    have hrange : (Contract.Call.declareFor intent.toContract package.signature
        (openings.map Carrier.toContractOpening) harness.validProof).inRange = true := by
      simp only [Contract.Call.inRange, Bool.and_eq_true, decide_eq_true_eq]
      exact ⟨⟨intent.nonceFits, intent.deadlineFits⟩, intent.newLeafCountFits⟩
    rw [hrange, hvalue]
    simp
  refine ⟨amount, ?_⟩
  rw [carriedCall, hbuilt.body]
  simp only [Contract.dispatch]
  rw [Contract.revertIf_ok hguard, ok_bind]
  exact hbody

end Built

/-- A publisher's declaration goes through.  On a reachable state whose dataset the peaks commit
to, the package of the next `m` pattern chunks is built, passes the carrier's static validation
and every local check, and is proved by the guest; and a carrier's transaction of the next slot
whose proof the verifier accepts for the guest's public values is accepted by the contract, which
then commits to the dataset with the `m` chunks appended. -/
theorem pattern_declaration_accepted {world : World} (hreach : Reachable keccak256 dep world)
    (hfree : world.state.store.entered = false)
    (hlive : Live provider header dep pinned world.state.store)
    (hpublishes : harness.Publishes provider header dep pinned world.state.store built)
    (hkzg : kzg.Opens commit prove)
    (hpeaks : world.state.store.peaks =
      firstPeaks keccak256 stream world.state.store.leafCount)
    (hstream : ∀ i, world.state.store.leafCount ≤ i → i < world.state.store.leafCount + m →
      stream i = patternChunk i)
    (hm : 1 ≤ m) (hfits : world.state.store.leafCount + m < 2 ^ 64)
    (hdeadline : built + 3600 < 2 ^ 64) (hfresh : pinned.timestamp + slotSeconds < built + 3600)
    (hcarrier : designatedCarrier = zeroAddress ∨ designatedCarrier = carrier) :
    ∃ package intent blobs openings publicValues,
      buildDeclarationPackage keccak256 sha256 kzg harness m designatedCarrier = .ok package ∧
      package.body = .declaration intent blobs openings harness.validProof ∧
      blobs = packed (chunksFrom patternChunk world.state.store.leafCount m) ∧
      validate sha256 kzg.toKzg package = .ok ⟨blobs.map commit⟩ ∧
      localChecks keccak256 kzg.toKzg provider package carrier = .ok () ∧
      equivalence keccak256 (witnessOf dep world.state.store intent blobs
        hreach.published.declared.fits) = .ok publicValues ∧
      ∀ block msg, world.state.ether + msg.value < Contract.etherBound →
        Carriage sha256 kzg.toKzg provider header dep pinned block carrier blobs msg publicValues
          harness.validProof →
        ∃ out, Accepted keccak256 dep block world.state msg (carriedCall package) out ∧
          out.storage.leafCount = world.state.store.leafCount + m ∧
          out.storage.peaks = firstPeaks keccak256 stream (world.state.store.leafCount + m) ∧
          out.storage.declarationNonce = world.state.store.declarationNonce + 1 := by
  have hdeclared := hreach.published.declared
  have hnonce := hdeclared.nonce_le.trans_lt hdeclared.fits
  obtain ⟨package, intent, blobs, openings, hbuild, hbuilt⟩ :=
    buildDeclarationPackage_ok hpublishes hkzg hm hfits hnonce hdeadline
  refine ⟨package, intent, blobs, openings, _, hbuild, hbuilt.body, hbuilt.packing,
    hbuilt.valid hkzg hm,
    hbuilt.localChecks hpublishes hlive hkzg hm hfits hdeadline hfresh hcarrier,
    hbuilt.proved hm hdeclared.fits, ?_⟩
  intro block msg hbound hcarriage
  obtain ⟨amount, hdispatched⟩ := hbuilt.dispatched hpublishes hlive hkzg hm hfits hdeadline hfresh
    hcarrier hfree hdeclared.nonce_le hdeclared.checkpoint hstream hpeaks hcarriage
  refine ⟨_, ⟨hcarriage.outside, hbound, hdispatched⟩, rfl, rfl, ?_⟩
  exact congrArg (· + 1) hbuilt.nonce

end

/-! ## The first eight chunks

A fresh instance at the address of the contract tests' fixture, whose commitment and proof
these are. -/

def fixtureCommitment : Word 48 :=
  ⟨#[0xaa, 0x84, 0xb8, 0x86, 0xbd, 0xc8, 0x56, 0x85, 0x82, 0xb4, 0x2f, 0x1b, 0x92, 0x6c, 0x7e,
    0x9c, 0x4b, 0x1f, 0xc8, 0x7c, 0x18, 0x4f, 0xa7, 0x75, 0x36, 0x27, 0x5c, 0xf0, 0x2e, 0xf4,
    0x2a, 0xee, 0x89, 0x0b, 0x4c, 0x47, 0xc0, 0x3f, 0xbe, 0x95, 0x96, 0x4a, 0xc9, 0x98, 0x25,
    0x5c, 0x1f, 0x90], rfl⟩

def fixtureProof : Word 48 :=
  ⟨#[0x80, 0xcf, 0xee, 0x81, 0xe0, 0xc8, 0x09, 0x65, 0xff, 0x42, 0xc0, 0x21, 0xc2, 0x32, 0x69,
    0x5b, 0x36, 0x0e, 0x97, 0x2c, 0x59, 0xc1, 0x7f, 0x30, 0x86, 0x2b, 0x2e, 0x62, 0x8e, 0x81,
    0xf4, 0xc1, 0x1b, 0xb3, 0x4b, 0x71, 0x15, 0x5c, 0x08, 0xb2, 0xac, 0xa0, 0x67, 0xaa, 0x0a,
    0x31, 0x50, 0x0f], rfl⟩

def fixtureSha256 : Word 32 :=
  ⟨#[0x3f, 0xe3, 0xc7, 0x80, 0x78, 0x6a, 0x32, 0xd9, 0x6b, 0xbd, 0x69, 0x98, 0x22, 0x54, 0xff,
    0xf0, 0x3d, 0xd5, 0x6d, 0xe8, 0x90, 0x0c, 0x06, 0xd0, 0x4c, 0x2d, 0x21, 0xc6, 0x13, 0x03,
    0xcc, 0x7d], rfl⟩

def fixtureAddress : Address :=
  ⟨#[0x00, 0x11, 0x22, 0x33, 0x44, 0x55, 0x66, 0x77, 0x88, 0x99, 0xaa, 0xbb, 0xcc, 0xdd, 0xee,
    0xff, 0x00, 0x11, 0x22, 0x33], rfl⟩

/-- The library on the fixture's blob. -/
def fixtureKzg : PublisherKzg where
  blobToKzgCommitment _ := .ok fixtureCommitment
  verifyKzgProof commitment _ _ proof :=
    .ok (commitment == fixtureCommitment && proof == fixtureProof)
  computeBlobKzgProof _ _ := .error "not in the fixture"
  computeKzgProof raw z :=
    match Reference.barycentricEval (blobElements raw) z with
    | .ok y => .ok (fixtureProof, y)
    | .error fault => .error fault.message

theorem fixtureAddress_ne_paymaster : fixtureAddress ≠ Contract.sampleDeployment.paymaster := by
  decide

def fixtureDeployment : Deployment :=
  { Contract.sampleDeployment with
    self := fixtureAddress
    self_ne_paymaster := fixtureAddress_ne_paymaster }

def fixtureWorld : World :=
  ⟨Contract.stakeBlock, Chain.deployed fixtureDeployment Contract.stakeBlock, []⟩

def fixtureProvider : Provider where
  chainId := .ok 1
  latest := .ok (some ⟨1, 7⟩)
  views _ _ := viewsOf fixtureDeployment fixtureWorld.state.store
  isValidSignature _ _ _ _ := .returned (Carrier.erc1271Magic ++ List.replicate 28 0)
  blobBaseFee := .ok 1
  estimateGas _ := .ok 21000

def fixtureHarness : Harness where
  chainId := 1
  instanceAddress := fixtureAddress
  views := viewsOf fixtureDeployment fixtureWorld.state.store
  latest := .ok (some 7)
  signHash _ := .ok (Vector.replicate 65 27)
  validProof := (Keccak.keccak256 (Contract.ascii "blobsitter.test.valid-proof")).toList
  chainIdFits := Contract.one_fits

/-- The carrier's transaction; the verifier accepts one proof. -/
def fixtureMsg : Msg :=
  { Contract.carrierMsg with
    blobHashes := [versionedHash (fun _ => fixtureSha256) fixtureCommitment]
    wallet := fun _ _ => some (Carrier.erc1271Magic ++ List.replicate 28 0)
    verifyProof := fun _ _ proof => decide (proof = fixtureHarness.validProof) }

theorem fixtureKzg_opens : fixtureKzg.Opens (fun _ => fixtureCommitment) fun _ _ => fixtureProof := by
  constructor
  case commits => exact fun _ _ => rfl
  case opens =>
    intro raw z hcanonical hz
    have hlength : (blobElements raw).length = Reference.fieldElementsPerBlob :=
      splitWords_length (by decide) (by rw [hcanonical.1, Reference.blobBytes, Nat.mul_comm])
    simp only [fixtureKzg, Reference.barycentricEval_eq hlength hcanonical.2 hz]
    rfl
  case verifies =>
    intro raw z _ _
    change Except.ok (fixtureCommitment == fixtureCommitment && fixtureProof == fixtureProof) = _
    rw [beq_self_eq_true, beq_self_eq_true, Bool.and_true]

theorem fixtureHarness_publishes : fixtureHarness.Publishes fixtureProvider ⟨1, 7⟩ fixtureDeployment
    Contract.stakeBlock fixtureWorld.state.store 7 := by
  constructor
  case chainId => rfl
  case instanceAddress => rfl
  case views => rfl
  case latest => rfl
  case signs => exact fun digest => ⟨_, rfl, rfl⟩

theorem fixtureMsg_verifyProof (vkey : Hash) (publicValues proof : ByteString) :
    fixtureMsg.verifyProof vkey publicValues proof = decide (proof = fixtureHarness.validProof) := rfl

theorem fixtureMsg_carries {blobs : List ByteString} {publicValues : ByteString}
    (hcount : blobs.length = 1) :
    Carriage (fun _ => fixtureSha256) fixtureKzg.toKzg fixtureProvider ⟨1, 7⟩ fixtureDeployment
      Contract.stakeBlock Contract.stakeBlock fixtureMsg.sender blobs fixtureMsg publicValues
      fixtureHarness.validProof := by
  constructor
  case sender => rfl
  case outside => decide
  case value => rfl
  case chainid => rfl
  case inTime => decide
  case priced =>
    rw [hcount]
    exact ⟨177072, by decide +kernel⟩
  case verified => rw [fixtureMsg_verifyProof, decide_eq_true_eq]
  case carried =>
    constructor
    case wallet =>
      rintro digest signature data heq
      obtain rfl := Carrier.WalletAnswer.returned.inj heq
      exact ⟨rfl, ⟨#[0x16, 0x26, 0xba, 0x7e], rfl⟩, rfl⟩
    case blobCount => exact hcount.symm
    case blobHash =>
      rintro j raw commitment hraw heq
      obtain rfl := Except.ok.inj heq
      have hj : j < blobs.length := (List.getElem?_eq_some_iff.mp hraw).1
      obtain rfl : j = 0 := by omega
      rfl
    case precompile => exact fun _ _ _ _ _ => rfl

theorem pattern_declaration_accepted_eight : ∃ package out,
    buildDeclarationPackage Keccak.keccak256 (fun _ => fixtureSha256) fixtureKzg fixtureHarness 8
        zeroAddress = .ok package ∧
      Accepted Keccak.keccak256 fixtureDeployment Contract.stakeBlock fixtureWorld.state fixtureMsg
        (carriedCall package) out ∧
      out.storage.leafCount = 8 := by
  have hreach : Reachable Keccak.keccak256 fixtureDeployment fixtureWorld :=
    ⟨Contract.stakeBlock, .refl⟩
  have hlive : Live fixtureProvider ⟨1, 7⟩ fixtureDeployment Contract.stakeBlock
      fixtureWorld.state.store := ⟨rfl, rfl, rfl, rfl⟩
  have hpeaks : fixtureWorld.state.store.peaks =
      firstPeaks Keccak.keccak256 patternChunk fixtureWorld.state.store.leafCount :=
    (Contract.firstPeaks_zero Keccak.keccak256 patternChunk).symm
  have hfits : fixtureWorld.state.store.leafCount + 8 < 2 ^ 64 := Contract.eight_fits
  obtain ⟨package, intent, blobs, openings, publicValues, hbuild, _, hpacked, _, _, _, haccepts⟩ :=
    pattern_declaration_accepted hreach rfl hlive fixtureHarness_publishes fixtureKzg_opens hpeaks
      (fun _ _ _ => rfl) (by decide) hfits (by decide) (by decide) (Or.inl rfl)
  have hcount : blobs.length = 1 := by
    rw [hpacked, Reference.packed_length, Contract.chunksFrom_length]
  obtain ⟨out, haccepted, hleafCount, _⟩ := haccepts Contract.stakeBlock fixtureMsg (by decide)
    (fixtureMsg_carries hcount)
  exact ⟨package, out, hbuild, haccepted, hleafCount⟩

end Blobsitter.Testkit
