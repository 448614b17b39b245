import Blobsitter.Carrier.Preflight

/-!
# Preflight covers the contract's checks

Every check of `declareFor` before the equivalence proof has a counterpart in the static
validation or in the local checks of the preflight, so that a package that passes both is
not turned down by one of them in the next slot.
-/

namespace Blobsitter.Carrier

open Library
open Reference (Hash Address updateHeights)
open Intents (DeclarationIntent IntentPackage Kzg Opening Validated ValidDeclaration versionedHash
  validate)
open Contract (Deployment Block Msg Storage Revert zeroAddress zeroHash)

/-- The checks of `declareFor` on the intent, its shape and its openings. -/
def covered : Revert → Bool
  | .intentExpired _ => true
  | .wrongNonce _ => true
  | .notDesignatedCarrier _ => true
  | .badSignature => true
  | .emptyUpdate => true
  | .blobCountMismatch _ => true
  | .blobHashMismatch _ => true
  | .unexpectedExtraBlob => true
  | .subtreeCountMismatch _ => true
  | .pointEvaluationFailed _ => true
  | _ => false

/-- What the endpoint answers about the pinned block is the state of the contract. -/
structure Serves (provider : Provider) (header : Header) (dep : Deployment) (pinned : Block)
    (s : Storage) : Prop where
  latest : ∀ latest, provider.latest = .ok (some latest) → latest = header
  timestamp : header.timestamp = pinned.timestamp
  chainId : ∀ id, provider.chainId = .ok id → id = pinned.chainid
  publisher : ∀ account, (provider.views dep.self header.number).publisher = .ok account →
    account = dep.params.publisher
  declarationNonce : ∀ nonce, (provider.views dep.self header.number).declarationNonce = .ok nonce →
    nonce = s.declarationNonce
  leafCount : ∀ count, (provider.views dep.self header.number).leafCount = .ok count →
    count = s.leafCount
  allPeaks : ∀ peaks, (provider.views dep.self header.number).allPeaks = .ok peaks →
    peaks = s.peaks

/-- The transaction has the package's blobs; the wallet gives it the clean word it gave the
preflight, and the precompile accepts what the library verifies. -/
structure CarriedBy (sha256 : ByteString → Word 32) (kzg : Kzg) (provider : Provider)
    (header : Header) (dep : Deployment) (blobs : List ByteString) (msg : Msg) : Prop where
  wallet : ∀ digest signature data,
    provider.isValidSignature dep.params.publisher header.number digest signature = .returned data →
    msg.wallet digest signature = some data ∧
      ∃ value : Word 4, data = value.toList ++ List.replicate 28 0
  blobCount : msg.blobHashes.length = blobs.length
  blobHash : ∀ (j : Nat) raw commitment, blobs[j]? = some raw →
    kzg.blobToKzgCommitment raw = .ok commitment →
    msg.blobHashes[j]? = some (versionedHash sha256 commitment)
  precompile : ∀ commitment z y proof, kzg.verifyKzgProof commitment z y proof = .ok true →
    msg.pointEvaluation ((versionedHash sha256 commitment).toList ++ z.toList ++ y.toList ++
      commitment.toList ++ proof.toList) = true

section

variable {keccak256 : ByteString → Hash} {sha256 : ByteString → Word 32} {kzg : Kzg}
variable {provider : Provider} {header : Header} {dep : Deployment} {pinned block : Block}
variable {s : Storage} {msg : Msg} {package : IntentPackage} {carrier : Address}
variable {intent : DeclarationIntent} {blobs : List ByteString} {openings : List Opening}
variable {equivalenceProof : ByteString} {validated : Validated}

/-- The common checks, read against the pinned state. -/
structure CommonPassed (keccak256 : ByteString → Hash) (provider : Provider) (header : Header)
    (dep : Deployment) (pinned : Block) (package : IntentPackage) : Prop where
  chain : pinned.chainid = package.chainId
  inTime : (pinned.timestamp + slotSeconds) % 2 ^ 64 < package.deadline
  wallet : ∃ data, provider.isValidSignature dep.params.publisher header.number
      (package.signingDigest keccak256) package.signature = .returned data ∧
    32 ≤ data.length ∧ data.take 4 = erc1271Magic

theorem commonChecks_passed {found : Header} (hserves : Serves provider header dep pinned s)
    (hself : package.instanceAddress = dep.self)
    (hok : commonChecks keccak256 provider package = .ok found) :
    found = header ∧ CommonPassed keccak256 provider header dep pinned package := by
  obtain ⟨chainId, hchain, hok⟩ := bind_eq_ok.mp hok
  obtain ⟨_, hsame, hok⟩ := bind_eq_ok.mp hok
  obtain ⟨latest, hlatest, hok⟩ := bind_eq_ok.mp hok
  obtain ⟨last, hlast, hok⟩ := bind_eq_ok.mp hok
  obtain ⟨_, htime, hok⟩ := bind_eq_ok.mp hok
  obtain ⟨publisher, hpublisher, hok⟩ := bind_eq_ok.mp hok
  obtain ⟨_, hwallet, hok⟩ := bind_eq_ok.mp hok
  obtain rfl := pure_eq_ok.mp hok
  cases latest with
  | none => cases hlast
  | some first =>
      obtain rfl : first = last := Except.ok.inj hlast
      obtain rfl := hserves.latest first (mapError_eq_ok.mp hlatest)
      rw [hself] at hpublisher
      obtain rfl := hserves.publisher publisher (mapError_eq_ok.mp hpublisher)
      rw [rejectIf_eq_ok, not_not, hserves.chainId chainId (mapError_eq_ok.mp hchain)] at hsame
      rw [rejectIf_eq_ok, ge_iff_le, not_le, hserves.timestamp] at htime
      obtain ⟨data, hanswer, hlength, hmagic⟩ := walletAccepts_eq_ok hwallet
      exact ⟨rfl, hsame, htime, data, hanswer, hlength, hmagic⟩

/-- The checks of a declaration, read against the pinned state. -/
structure DeclarationPassed (keccak256 : ByteString → Hash) (kzg : Kzg) (dep : Deployment)
    (s : Storage) (carrier : Address) (intent : DeclarationIntent) (blobs : List ByteString)
    (openings : List Opening) : Prop where
  nonce : intent.nonce = s.declarationNonce
  carrier : ¬(intent.designatedCarrier ≠ zeroAddress ∧ intent.designatedCarrier ≠ carrier)
  grows : s.leafCount < intent.newLeafCount
  blobCount : blobs.length = (intent.newLeafCount - s.leafCount + 4095) / 4096
  subtreeCount : intent.newSubtreePeaks.length =
    (updateHeights s.leafCount (intent.newLeafCount - s.leafCount)).length
  opened : ∀ opening ∈ openings, kzg.verifyKzgProof opening.commitment
    (Contract.reduceModulus (Contract.fsPreimageHash keccak256 dep intent.blobVersionedHashes s.peaks
      intent.newSubtreePeaks s.leafCount intent.newLeafCount)) opening.y opening.kzgProof = .ok true

theorem declarationChecks_passed (hserves : Serves provider header dep pinned s)
    (hok : declarationChecks keccak256 kzg (provider.views dep.self header.number) dep.self carrier
      intent blobs openings = .ok ()) :
    DeclarationPassed keccak256 kzg dep s carrier intent blobs openings := by
  obtain ⟨nonce, hread, hok⟩ := bind_eq_ok.mp hok
  obtain ⟨_, hnonce, hok⟩ := bind_eq_ok.mp hok
  obtain ⟨_, hcarrier, hok⟩ := bind_eq_ok.mp hok
  obtain ⟨n0, hcount, hok⟩ := bind_eq_ok.mp hok
  obtain ⟨_, hgrows, hok⟩ := bind_eq_ok.mp hok
  obtain ⟨_, hblobs, hok⟩ := bind_eq_ok.mp hok
  obtain ⟨heights, hheights, hok⟩ := bind_eq_ok.mp hok
  obtain ⟨_, hsubtrees, hok⟩ := bind_eq_ok.mp hok
  obtain ⟨_, _, hok⟩ := bind_eq_ok.mp hok
  obtain ⟨peaks, hpeaks, hopenings⟩ := bind_eq_ok.mp hok
  obtain rfl := hserves.declarationNonce nonce (mapError_eq_ok.mp hread)
  obtain rfl := hserves.leafCount n0 (mapError_eq_ok.mp hcount)
  obtain rfl := hserves.allPeaks peaks (mapError_eq_ok.mp hpeaks)
  rw [rejectIf_eq_ok, not_not] at hnonce hblobs hsubtrees
  rw [rejectIf_eq_ok] at hcarrier hgrows
  have hpositive : 1 ≤ intent.newLeafCount - s.leafCount := Nat.pos_of_ne_zero hgrows
  rw [Reference.decompose_eq hpositive] at hheights
  obtain rfl := Except.ok.inj (mapError_eq_ok.mp hheights)
  rw [divCeil_eq] at hblobs
  exact ⟨hnonce, hcarrier, by omega, hblobs, hsubtrees, checkOpenings_eq_ok hopenings⟩

theorem localChecks_passed (hserves : Serves provider header dep pinned s)
    (hself : package.instanceAddress = dep.self)
    (hbody : package.body = .declaration intent blobs openings equivalenceProof)
    (hok : localChecks keccak256 kzg provider package carrier = .ok ()) :
    CommonPassed keccak256 provider header dep pinned package ∧
      DeclarationPassed keccak256 kzg dep s carrier intent blobs openings := by
  obtain ⟨found, hcommon, hok⟩ := bind_eq_ok.mp hok
  obtain ⟨rfl, hpassed⟩ := commonChecks_passed hserves hself hcommon
  rw [hbody, hself] at hok
  exact ⟨hpassed, declarationChecks_passed hserves hok⟩

/-- The wallet's clean word is the one the contract compares. -/
theorem requireValidSignature_ok (hcarried : CarriedBy sha256 kzg provider header dep blobs msg)
    (hcommon : CommonPassed keccak256 provider header dep pinned package) :
    Contract.requireValidSignature msg (package.signingDigest keccak256) package.signature =
      .ok () := by
  obtain ⟨data, hanswer, hlength, hmagic⟩ := hcommon.wallet
  obtain ⟨hsame, value, rfl⟩ := hcarried.wallet _ _ _ hanswer
  have hvalue : value.toList = erc1271Magic := by
    rw [← hmagic]
    exact (List.take_left' Vector.length_toList).symm
  unfold Contract.requireValidSignature
  rw [hsame, hvalue]
  rfl

theorem checkBlobHashes_carried (hvalid : ValidDeclaration sha256 kzg intent blobs openings)
    (hcarried : CarriedBy sha256 kzg provider header dep blobs msg) :
    Contract.checkBlobHashes msg intent.blobVersionedHashes blobs.length 0 = .ok () := by
  refine Contract.checkBlobHashes_ok msg ?_
  intro j hj
  rw [Nat.zero_add]
  obtain ⟨commitment, hmatches⟩ := hvalid.matching j _ (List.getElem?_eq_getElem hj)
  have hhash := hcarried.blobHash j _ commitment (List.getElem?_eq_getElem hj) hmatches.committed
  rw [hmatches.signed, Contract.Msg.blobhash, List.getD_eq_getElem?_getD, hhash]
  rfl

theorem checkOpenings_carried {z : Hash} (hvalid : ValidDeclaration sha256 kzg intent blobs openings)
    (hcarried : CarriedBy sha256 kzg provider header dep blobs msg)
    (hopened : ∀ opening ∈ openings,
      kzg.verifyKzgProof opening.commitment z opening.y opening.kzgProof = .ok true) :
    Contract.checkOpenings msg intent.blobVersionedHashes z (openings.map toContractOpening)
      blobs.length 0 = .ok () := by
  refine Contract.checkOpenings_ok msg ?_
  intro j hj
  rw [Nat.zero_add]
  obtain ⟨commitment, hmatches⟩ := hvalid.matching j _ (List.getElem?_eq_getElem hj)
  obtain ⟨opening, hopening, rfl⟩ := hmatches.opened
  refine ⟨_, toContractOpening opening, hmatches.signed, ?_, ?_⟩
  · rw [List.getElem?_map, hopening]
    rfl
  · exact hcarried.precompile _ _ _ _ (hopened opening (List.mem_of_getElem? hopening))

/-- An uncovered guard, and what comes behind it, raise uncovered errors only. -/
theorem covered_revertIf {α : Type} {bad : Prop} [Decidable bad] {e e' : Revert}
    {rest : Unit → Except Revert α} (hother : covered e' = false)
    (herror : (Contract.revertIf bad e' >>= rest) = .error e)
    (hrest : rest () = .error e → covered e = false) : covered e = false := by
  rcases bind_eq_error.mp herror with hguard | ⟨_, _, herror⟩
  · rw [← (Contract.revertIf_eq_error.mp hguard).2]
    exact hother
  · exact hrest herror

/-- Checked arithmetic raises panics only. -/
theorem covered_orPanic {α β : Type} {x : Contract.Checked α} {e : Revert}
    {rest : α → Except Revert β} (herror : (x.orPanic >>= rest) = .error e)
    (hrest : ∀ a, rest a = .error e → covered e = false) : covered e = false := by
  rcases bind_eq_error.mp herror with hpanic | ⟨a, _, herror⟩
  · obtain ⟨_, _, rfl⟩ := Contract.orPanic_eq_error.mp hpanic
    rfl
  · exact hrest a herror

/-- The covered checks of `declareFor` pass, for `count` blobs. -/
structure GuardsPassed (keccak256 : ByteString → Hash) (dep : Deployment) (block : Block) (msg : Msg)
    (s : Storage) (d : Contract.Declaration) (publisherSig : ByteString)
    (opened : List Contract.BlobOpening) (count : Nat) : Prop where
  inTime : ¬block.timestamp > d.deadline
  nonce : d.nonce = s.declarationNonce
  carrier : ¬(d.designatedCarrier ≠ zeroAddress ∧ d.designatedCarrier ≠ msg.sender)
  signature : Contract.requireValidSignature msg (Contract.declarationDigest keccak256 dep block d)
    publisherSig = .ok ()
  grows : s.leafCount < d.newLeafCount
  fits : d.newLeafCount < 2 ^ 64
  blobCount : (d.newLeafCount - s.leafCount + 4095) / 4096 = count
  hashCount : d.blobVersionedHashes.length = count
  openingCount : opened.length = count
  blobHashes : Contract.checkBlobHashes msg d.blobVersionedHashes count 0 = .ok ()
  noExtra : msg.blobhash count = zeroHash
  subtreeCount : d.newSubtreePeaks.length =
    (updateHeights s.leafCount (d.newLeafCount - s.leafCount)).length
  openings : Contract.checkOpenings msg d.blobVersionedHashes
    (Contract.reduceModulus (Contract.fsPreimageHash keccak256 dep d.blobVersionedHashes s.peaks
      d.newSubtreePeaks s.leafCount d.newLeafCount)) opened count 0 = .ok ()

/-- What remains of `declareFor` raises uncovered errors only. -/
theorem GuardsPassed.covered_eq_false {d : Contract.Declaration} {publisherSig : ByteString}
    {opened : List Contract.BlobOpening} {count : Nat}
    (hpassed : GuardsPassed keccak256 dep block msg s d publisherSig opened count) {e : Revert}
    (herror : Contract.declareFor keccak256 dep block msg s d publisherSig opened equivalenceProof =
      .error e) : covered e = false := by
  have hgrows := hpassed.grows
  have hfits := hpassed.fits
  have hcounts : ¬(d.blobVersionedHashes.length ≠ count ∨ opened.length ≠ count) := by
    rw [not_or, not_not, not_not]
    exact ⟨hpassed.hashCount, hpassed.openingCount⟩
  unfold Contract.declareFor at herror
  refine covered_revertIf rfl herror fun herror => ?_
  -- intent validity
  rw [Contract.revertIf_ok hpassed.inTime, ok_bind,
    Contract.revertIf_ok (not_not_intro hpassed.nonce), ok_bind,
    Contract.revertIf_ok hpassed.carrier, ok_bind, hpassed.signature, ok_bind] at herror
  -- shape
  rw [Contract.revertIf_ok (not_le.mpr hgrows), ok_bind,
    Contract.orPanic_eq_ok.mpr (Contract.checkedSub_ok hgrows.le), ok_bind] at herror
  simp only [hpassed.blobCount] at herror
  rw [Contract.revertIf_ok hcounts, ok_bind, hpassed.blobHashes, ok_bind,
    Contract.revertIf_ok (not_not_intro hpassed.noExtra), ok_bind,
    Contract.orPanic_eq_ok.mpr (Contract.MMR.decompose_eq_heights (by omega)), ok_bind,
    Contract.revertIf_ok (not_not_intro hpassed.subtreeCount), ok_bind,
    hpassed.openings, ok_bind] at herror
  -- the proof and the effects
  refine covered_revertIf rfl herror fun herror => ?_
  refine covered_orPanic herror fun applied herror => ?_
  refine covered_orPanic herror fun nonce herror => ?_
  refine covered_orPanic herror fun grown herror => ?_
  refine covered_orPanic herror fun amount herror => ?_
  cases herror

/-- The digest that the carrier asks the wallet about is the contract's. -/
theorem declarationDigest_eq (hself : package.instanceAddress = dep.self)
    (hbody : package.body = .declaration intent blobs openings equivalenceProof)
    (hchain : block.chainid = package.chainId) :
    Contract.declarationDigest keccak256 dep block intent.toContract =
      package.signingDigest keccak256 := by
  have hsigned : package.body.signed = .declaration intent := by
    rw [hbody]
    rfl
  rw [Intents.signingDigest_eq_contract hchain hself.symm, hsigned]
  rfl

/-- A declaration package that the static validation and the local checks accept is not
turned down by any check of `declareFor` that they cover, when the same carrier sends it
against the same state in a block no later than the next slot. -/
theorem preflight_covers_declareFor (hserves : Serves provider header dep pinned s)
    (hself : package.instanceAddress = dep.self)
    (hbody : package.body = .declaration intent blobs openings equivalenceProof)
    (hcarried : CarriedBy sha256 kzg provider header dep blobs msg)
    (hvalid : validate sha256 kzg package = .ok validated)
    (hlocal : localChecks keccak256 kzg provider package carrier = .ok ())
    (hsender : msg.sender = carrier) (hchain : block.chainid = pinned.chainid) {slot : Block}
    (hslot : slot.timestamp = pinned.timestamp + slotSeconds)
    (hlate : block.timestamp ≤ slot.timestamp) {e : Revert}
    (herror : Contract.declareFor keccak256 dep block msg s intent.toContract package.signature
      (openings.map toContractOpening) equivalenceProof = .error e) : covered e = false := by
  obtain ⟨hcommon, hpassed⟩ := localChecks_passed hserves hself hbody hlocal
  have hmatch := Intents.validate_declaration hbody hvalid
  have htime : ¬block.timestamp > intent.deadline := by
    have hmargin := hcommon.inTime
    -- the margin's addition does not wrap: the next slot has a timestamp
    rw [← hslot, Nat.mod_eq_of_lt slot.timestamp_lt, IntentPackage.deadline, hbody] at hmargin
    exact not_lt.mpr (hlate.trans hmargin.le)
  have hcovered : GuardsPassed keccak256 dep block msg s intent.toContract package.signature
      (openings.map toContractOpening) blobs.length := by
    constructor
    case inTime => exact htime
    case nonce => exact hpassed.nonce
    case carrier => exact hsender ▸ hpassed.carrier
    case signature =>
      rw [declarationDigest_eq hself hbody (hchain.trans hcommon.chain)]
      exact requireValidSignature_ok hcarried hcommon
    case grows => exact hpassed.grows
    case fits => exact intent.newLeafCountFits
    case blobCount => exact hpassed.blobCount.symm
    case hashCount => exact hmatch.hashCount
    case openingCount => exact (List.length_map _).trans hmatch.openingCount
    case blobHashes => exact checkBlobHashes_carried hmatch hcarried
    case noExtra =>
      rw [Contract.Msg.blobhash, List.getD_eq_default _ _ hcarried.blobCount.le]
    case subtreeCount => exact hpassed.subtreeCount
    case openings => exact checkOpenings_carried hmatch hcarried hpassed.opened
  exact hcovered.covered_eq_false herror

end

/-! ## The zero blob, carried -/

def zeroBlob : ByteString := List.replicate Reference.blobBytes 0

/-- The point at infinity, compressed. -/
def infinity : Word 48 := (Vector.replicate 48 0).set 0 0xc0

def infinitySha256 : Word 32 :=
  ⟨#[0x5f, 0x06, 0x57, 0xf3, 0x75, 0x54, 0xc7, 0x81, 0x40, 0x2a, 0x22, 0x91, 0x7d, 0xee, 0x2f, 0x75,
    0xde, 0xf7, 0xab, 0x96, 0x6d, 0x7b, 0x77, 0x09, 0x05, 0x39, 0x8e, 0xba, 0x3c, 0x44, 0x40, 0x14],
    rfl⟩

/-- The library on the zero blob: it opens to zero everywhere. -/
def infinityKzg : Kzg where
  blobToKzgCommitment _ := .ok infinity
  verifyKzgProof _ _ _ _ := .ok true
  computeBlobKzgProof _ _ := .ok infinity

theorem twenty_fits : 20 < 2 ^ 64 := by decide

def carriedIntent : DeclarationIntent where
  nonce := 0
  deadline := 20
  blobVersionedHashes := [versionedHash (fun _ => infinitySha256) infinity]
  newSubtreePeaks := Contract.zeroDeclaration.newSubtreePeaks
  newLeafCount := 1
  designatedCarrier := zeroAddress
  appPointer := zeroHash
  nonceFits := Contract.zero_fits
  deadlineFits := twenty_fits
  newLeafCountFits := Contract.one_fits

def carriedOpening : Opening := ⟨zeroHash, infinity, infinity⟩

def carriedPackage : IntentPackage where
  chainId := 1
  instanceAddress := Contract.sampleDeployment.self
  body := .declaration carriedIntent [zeroBlob] [carriedOpening] []
  signature := List.replicate 65 0
  chainIdFits := Contract.one_fits

def carriedHeader : Header := ⟨1, 7⟩

/-- An endpoint whose instance is fresh. -/
def freshProvider : Provider where
  chainId := .ok 1
  latest := .ok (some carriedHeader)
  views _ _ := ⟨.ok Contract.sampleDeployment.params.publisher, .ok 0, .ok 0, .ok 0, .ok 0, .ok []⟩
  isValidSignature _ _ _ _ := .returned Contract.erc1271Magic
  blobBaseFee := .ok 1
  estimateGas _ := .ok 21000

theorem nineteen_fits : 19 < 2 ^ 64 := by decide

def nextSlot : Block := Contract.sampleBlock 19 nineteen_fits

/-- The carrier's transaction, with a verifier that accepts nothing. -/
def unprovenMsg : Msg :=
  { Contract.carrierMsg with
    blobHashes := carriedIntent.blobVersionedHashes
    verifyProof := fun _ _ _ => false }

theorem zeroBlob_canonical : Intents.nonCanonicalElement zeroBlob = none := by
  rw [Intents.nonCanonicalElement, List.find?_eq_none]
  intro element _
  have hzero : zeroBlob.getD (element * 32) 0 = 0 := by
    rw [zeroBlob, List.getD_eq_getElem?_getD, List.getElem?_replicate]
    split <;> rfl
  rw [hzero]
  decide

theorem checkTail_ok {m : Nat} {blobs : List ByteString} {last : ByteString}
    (hlast : blobs.getLast? = some last)
    (hzero : nonZeroElement (m % Reference.fieldElementsPerBlob) last = none) :
    checkTail m blobs = .ok () := by
  simp only [checkTail, hlast, hzero, ite_self]

theorem zeroBlob_nonZeroElement (tailStart : Nat) : nonZeroElement tailStart zeroBlob = none := by
  rw [nonZeroElement, List.find?_eq_none]
  intro element _
  rw [Bool.not_eq_true, List.any_eq_false]
  intro byte hbyte
  have hmem : byte ∈ zeroBlob := List.mem_of_mem_drop (List.mem_of_mem_take hbyte)
  rw [List.eq_of_mem_replicate hmem]
  decide

theorem carriedPackage_valid : validate (fun _ => infinitySha256) infinityKzg carriedPackage =
    .ok ⟨[infinity]⟩ := by
  have hsize : zeroBlob.length = Reference.blobBytes := List.length_replicate
  have hblob : Intents.validateBlob (fun _ => infinitySha256) infinityKzg carriedIntent
      [carriedOpening] 0 zeroBlob = .ok infinity := by
    unfold Intents.validateBlob
    rw [if_neg (not_not_intro hsize), zeroBlob_canonical]
    rfl
  change (do
    let commitments ← (do
      let commitment ← Intents.validateBlob (fun _ => infinitySha256) infinityKzg carriedIntent
        [carriedOpening] 0 zeroBlob
      return [commitment])
    return (⟨commitments⟩ : Validated)) = _
  rw [hblob]
  rfl

theorem carriedPackage_passes : localChecks Keccak.keccak256 infinityKzg freshProvider carriedPackage
    unprovenMsg.sender = .ok () := by
  have hcommon : commonChecks Keccak.keccak256 freshProvider carriedPackage = .ok carriedHeader := rfl
  refine bind_eq_ok.mpr ⟨carriedHeader, hcommon, ?_⟩
  have hnonce : rejectIf (carriedIntent.nonce ≠ 0) (.nonceMismatch carriedIntent.nonce 0) = .ok () :=
    rfl
  have hheights : (Reference.decompose 0 (carriedIntent.newLeafCount - 0)).mapError
      (fun fault => PreflightError.panicked fault.message) = .ok [0] := rfl
  have htail : checkTail (carriedIntent.newLeafCount - 0) [zeroBlob] = .ok () :=
    checkTail_ok List.getLast?_singleton (zeroBlob_nonZeroElement _)
  refine bind_eq_ok.mpr ⟨0, rfl, bind_eq_ok.mpr ⟨(), hnonce, ?_⟩⟩
  refine bind_eq_ok.mpr ⟨(), rfl, bind_eq_ok.mpr ⟨0, rfl, ?_⟩⟩
  refine bind_eq_ok.mpr ⟨(), rfl, bind_eq_ok.mpr ⟨(), rfl, ?_⟩⟩
  refine bind_eq_ok.mpr ⟨[0], hheights, bind_eq_ok.mpr ⟨(), rfl, ?_⟩⟩
  exact bind_eq_ok.mpr ⟨(), htail, bind_eq_ok.mpr ⟨[], rfl, rfl⟩⟩

theorem freshProvider_serves : Serves freshProvider carriedHeader Contract.sampleDeployment
    Contract.stakeBlock Contract.stakedWorld.state.store := by
  constructor
  case latest =>
    rintro latest heq
    exact (Option.some.inj (Except.ok.inj heq)).symm
  case timestamp => rfl
  case chainId => exact fun id heq => (Except.ok.inj heq).symm
  case publisher => exact fun account heq => (Except.ok.inj heq).symm
  case declarationNonce => exact fun nonce heq => (Except.ok.inj heq).symm
  case leafCount => exact fun count heq => (Except.ok.inj heq).symm
  case allPeaks => exact fun peaks heq => (Except.ok.inj heq).symm

theorem unprovenMsg_carries : CarriedBy (fun _ => infinitySha256) infinityKzg freshProvider
    carriedHeader Contract.sampleDeployment [zeroBlob] unprovenMsg := by
  constructor
  case wallet =>
    rintro digest signature data heq
    obtain rfl := WalletAnswer.returned.inj heq
    exact ⟨rfl, ⟨#[0x16, 0x26, 0xba, 0x7e], rfl⟩, rfl⟩
  case blobCount => rfl
  case blobHash =>
    rintro j raw commitment hraw heq
    obtain rfl := Except.ok.inj heq
    cases j with
    | zero => rfl
    | succ j => cases hraw
  case precompile => exact fun _ _ _ _ _ => rfl

set_option maxRecDepth 10000 in
/-- The package passes, and what turns it down is its proof. -/
theorem preflight_covers_unproven :
    Contract.declareFor Keccak.keccak256 Contract.sampleDeployment Contract.stakeBlock unprovenMsg
        Contract.stakedWorld.state.store carriedIntent.toContract carriedPackage.signature
        ([carriedOpening].map toContractOpening) [] = .error .invalidEquivalenceProof ∧
      covered .invalidEquivalenceProof = false := by
  refine ⟨rfl, ?_⟩
  have hslot : nextSlot.timestamp = Contract.stakeBlock.timestamp + slotSeconds := rfl
  exact preflight_covers_declareFor freshProvider_serves rfl rfl unprovenMsg_carries
    carriedPackage_valid carriedPackage_passes rfl rfl hslot (by decide) rfl

end Blobsitter.Carrier
