import Blobsitter.Contract.World
import Blobsitter.Intents.Package

/-!
# One digest, one intent

A signature is over a digest only.  The strings hashed on the way to it have fixed
layouts, so that without a collision among them the digest gives back the intent, its
instance and its chain; the contract hashes the same strings.
-/

namespace Blobsitter.Intents

open Library
open Reference (Hash Address)
open Reference.Eip712 (asBytes eip712DomainType declarationType setAppPointerType setSuccessorType
  domainName domainVersion domainPreimage digestPreimage u256 addrWord)

/-- What the publisher signs: the intent of a package, without what is carried beside it. -/
inductive SignedIntent where
  | declaration (intent : DeclarationIntent)
  | setAppPointer (intent : AppPointerIntent)
  | setSuccessor (intent : SuccessorIntent)

def IntentBody.signed : IntentBody → SignedIntent
  | .declaration intent _ _ _ => .declaration intent
  | .setAppPointer intent => .setAppPointer intent
  | .setSuccessor intent => .setSuccessor intent

/-- The strings whose hashes the encoded struct contains: type and arrays. -/
def IntentBody.parts : IntentBody → List ByteString
  | .declaration intent _ _ _ => [asBytes declarationType, packWords intent.blobVersionedHashes,
      packWords intent.newSubtreePeaks]
  | .setAppPointer _ => [asBytes setAppPointerType]
  | .setSuccessor _ => [asBytes setSuccessorType]

section

variable (keccak256 : ByteString → Hash)

def IntentBody.preimage : IntentBody → ByteString
  | .declaration intent _ _ _ => intent.toEip712.preimage keccak256
  | .setAppPointer intent => intent.toEip712.preimage keccak256
  | .setSuccessor intent => intent.toEip712.preimage keccak256

/-- Every string that `signing_digest` hashes, the outermost first. -/
def IntentPackage.signingStrings (package : IntentPackage) : List ByteString :=
  digestPreimage (keccak256 (domainPreimage keccak256 package.chainId package.instanceAddress))
      (keccak256 (package.body.preimage keccak256)) ::
    domainPreimage keccak256 package.chainId package.instanceAddress ::
    asBytes eip712DomainType :: asBytes domainName :: asBytes domainVersion ::
    package.body.preimage keccak256 :: package.body.parts

/-- No two different strings at one place of the two lists have the same hash. -/
def NoCollisionAt (first second : List ByteString) : Prop :=
  ∀ pair ∈ first.zip second, keccak256 pair.1 = keccak256 pair.2 → pair.1 = pair.2

theorem noCollisionAt_cons {x y : ByteString} {xs ys : List ByteString} :
    NoCollisionAt keccak256 (x :: xs) (y :: ys) ↔
      (keccak256 x = keccak256 y → x = y) ∧ NoCollisionAt keccak256 xs ys := by
  unfold NoCollisionAt
  rw [List.zip_cons_cons, List.forall_mem_cons]

theorem noCollisionAt_self (strings : List ByteString) :
    NoCollisionAt keccak256 strings strings := by
  induction strings with
  | nil =>
      intro pair hmem
      cases hmem
  | cons x xs ih => exact (noCollisionAt_cons keccak256).mpr ⟨fun _ => rfl, ih⟩

theorem IntentBody.structHash_eq (body : IntentBody) :
    body.structHash keccak256 = keccak256 (body.preimage keccak256) := by
  cases body with
  | declaration => rfl
  | setAppPointer => rfl
  | setSuccessor => rfl

theorem IntentPackage.signingDigest_eq (package : IntentPackage) :
    package.signingDigest keccak256 = keccak256 (digestPreimage
      (keccak256 (domainPreimage keccak256 package.chainId package.instanceAddress))
      (keccak256 (package.body.preimage keccak256))) := by
  rw [← IntentBody.structHash_eq keccak256 package.body]
  rfl

end

section

variable (keccak256 : ByteString → Hash) (dep : Contract.Deployment) (block : Contract.Block)

open Contract (ascii abiNat abiAddress domainTypehash declarationTypehash setAppPointerTypehash
  setSuccessorTypehash)

def DeclarationIntent.toContract (intent : DeclarationIntent) : Contract.Declaration where
  nonce := intent.nonce
  deadline := intent.deadline
  blobVersionedHashes := intent.blobVersionedHashes
  newSubtreePeaks := intent.newSubtreePeaks
  newLeafCount := intent.newLeafCount
  designatedCarrier := intent.designatedCarrier
  appPointer := intent.appPointer

/-- The encoded domain of `domainSeparator`. -/
def contractDomain : ByteString :=
  (domainTypehash keccak256).toList ++ (keccak256 (ascii "blobsitter")).toList ++
    (keccak256 (ascii "1")).toList ++ abiNat block.chainid ++ abiAddress dep.self

/-- The encoded struct of the digest function of the intent's kind. -/
def contractStruct : SignedIntent → ByteString
  | .declaration d => (declarationTypehash keccak256).toList ++ abiNat d.nonce ++ abiNat d.deadline ++
      (keccak256 (packWords d.blobVersionedHashes)).toList ++
      (keccak256 (packWords d.newSubtreePeaks)).toList ++
      abiNat d.newLeafCount ++ abiAddress d.designatedCarrier ++ d.appPointer.toList
  | .setAppPointer p => (setAppPointerTypehash keccak256).toList ++ abiNat p.nonce ++
      abiNat p.deadline ++ p.pointer.toList
  | .setSuccessor t => (setSuccessorTypehash keccak256).toList ++ abiNat t.nonce ++
      abiNat t.deadline ++ abiAddress t.target

/-- The strings whose hashes the encoded struct contains. -/
def contractParts : SignedIntent → List ByteString
  | .declaration d => [ascii
      "Declaration(uint64 nonce,uint64 deadline,bytes32[] blobVersionedHashes,bytes32[] newSubtreePeaks,uint64 newLeafCount,address designatedCarrier,bytes32 appPointer)",
      packWords d.blobVersionedHashes, packWords d.newSubtreePeaks]
  | .setAppPointer _ => [ascii "SetAppPointer(uint64 nonce,uint64 deadline,bytes32 appPointer)"]
  | .setSuccessor _ => [ascii "SetSuccessor(uint64 nonce,uint64 deadline,address successor)"]

/-- Every string hashed on the contract for the digest of the intent. -/
def contractStrings (intent : SignedIntent) : List ByteString :=
  ([0x19, 0x01] ++ (keccak256 (contractDomain keccak256 dep block)).toList ++
      (keccak256 (contractStruct keccak256 intent)).toList) ::
    contractDomain keccak256 dep block ::
    ascii "EIP712Domain(string name,string version,uint256 chainId,address verifyingContract)" ::
    ascii "blobsitter" :: ascii "1" :: contractStruct keccak256 intent :: contractParts intent

/-- The digest function of the intent's kind. -/
def contractDigest : SignedIntent → Hash
  | .declaration d => Contract.declarationDigest keccak256 dep block d.toContract
  | .setAppPointer p => Contract.setAppPointerDigest keccak256 dep block p.nonce p.deadline p.pointer
  | .setSuccessor t => Contract.setSuccessorDigest keccak256 dep block t.nonce t.deadline t.target

theorem contractDigest_eq (intent : SignedIntent) :
    contractDigest keccak256 dep block intent =
      keccak256 ([0x19, 0x01] ++ (keccak256 (contractDomain keccak256 dep block)).toList ++
        (keccak256 (contractStruct keccak256 intent)).toList) := by
  cases intent with
  | declaration => rfl
  | setAppPointer => rfl
  | setSuccessor => rfl

end

section

variable {keccak256 : ByteString → Hash} {dep : Contract.Deployment} {block : Contract.Block}
variable {package : IntentPackage}

/-- A 64-bit number fills the same word in both encodings. -/
theorem u256_toList_eq {x : Nat} (hx : x < 2 ^ 64) : (u256 x).toList = Contract.abiNat x := by
  have hpow : (256 : Nat) ^ 8 = 2 ^ 64 := by norm_num
  rw [Reference.Eip712.u256_toList]
  exact (beBytes_padded (hpow ▸ hx) 24).symm

theorem addrWord_toList_eq (a : Address) : (addrWord a).toList = Contract.abiAddress a :=
  Reference.Eip712.addrWord_toList a

theorem domainPreimage_eq (hchain : block.chainid = package.chainId)
    (hself : dep.self = package.instanceAddress) :
    domainPreimage keccak256 package.chainId package.instanceAddress =
      contractDomain keccak256 dep block := by
  unfold domainPreimage contractDomain
  simp only [packWords_cons, packWords_nil, List.append_nil, List.append_assoc,
    u256_toList_eq package.chainIdFits, addrWord_toList_eq, hchain, hself]
  rfl

theorem IntentBody.preimage_eq (body : IntentBody) :
    body.preimage keccak256 = contractStruct keccak256 body.signed := by
  cases body with
  | declaration intent =>
      unfold IntentBody.preimage IntentBody.signed contractStruct Reference.Eip712.Declaration.preimage
        DeclarationIntent.toEip712
      simp only [packWords_cons, packWords_nil, List.append_nil, List.append_assoc,
        u256_toList_eq intent.nonceFits, u256_toList_eq intent.deadlineFits,
        u256_toList_eq intent.newLeafCountFits, addrWord_toList_eq]
      rfl
  | setAppPointer intent =>
      unfold IntentBody.preimage IntentBody.signed contractStruct
        Reference.Eip712.SetAppPointer.preimage AppPointerIntent.toEip712
      simp only [packWords_cons, packWords_nil, List.append_nil, List.append_assoc,
        u256_toList_eq intent.nonceFits, u256_toList_eq intent.deadlineFits]
      rfl
  | setSuccessor intent =>
      unfold IntentBody.preimage IntentBody.signed contractStruct
        Reference.Eip712.SetSuccessor.preimage SuccessorIntent.toEip712
      simp only [packWords_cons, packWords_nil, List.append_nil, List.append_assoc,
        u256_toList_eq intent.nonceFits, u256_toList_eq intent.deadlineFits, addrWord_toList_eq]
      rfl

theorem IntentBody.parts_eq (body : IntentBody) : body.parts = contractParts body.signed := by
  cases body with
  | declaration => rfl
  | setAppPointer => rfl
  | setSuccessor => rfl

theorem signingStrings_eq (hchain : block.chainid = package.chainId)
    (hself : dep.self = package.instanceAddress) :
    package.signingStrings keccak256 = contractStrings keccak256 dep block package.body.signed := by
  unfold IntentPackage.signingStrings contractStrings digestPreimage
  rw [domainPreimage_eq hchain hself, package.body.parts_eq, package.body.preimage_eq]
  rfl

theorem signingDigest_eq_contract (hchain : block.chainid = package.chainId)
    (hself : dep.self = package.instanceAddress) :
    package.signingDigest keccak256 = contractDigest keccak256 dep block package.body.signed := by
  rw [package.signingDigest_eq, domainPreimage_eq hchain hself, package.body.preimage_eq,
    contractDigest_eq]
  rfl

/-! ## The digest determines the intent -/

theorem DeclarationIntent.toEip712_inj {d d' : DeclarationIntent} (heq : d.toEip712 = d'.toEip712) :
    d = d' := by
  obtain ⟨⟩ := d
  obtain ⟨⟩ := d'
  cases heq
  rfl

theorem AppPointerIntent.toEip712_inj {p p' : AppPointerIntent} (heq : p.toEip712 = p'.toEip712) :
    p = p' := by
  obtain ⟨⟩ := p
  obtain ⟨⟩ := p'
  cases heq
  rfl

theorem SuccessorIntent.toEip712_inj {t t' : SuccessorIntent} (heq : t.toEip712 = t'.toEip712) :
    t = t' := by
  obtain ⟨⟩ := t
  obtain ⟨⟩ := t'
  cases heq
  rfl

/-- Bodies with one encoded struct are of one kind, and sign the same intent. -/
theorem IntentBody.signed_of_preimage {body body' : IntentBody}
    (hfree : NoCollisionAt keccak256 body.parts body'.parts)
    (heq : body.preimage keccak256 = body'.preimage keccak256) : body.signed = body'.signed := by
  have hlength := congrArg List.length heq
  cases body with
  | declaration intent _ _ _ =>
      cases body' with
      | declaration intent' _ _ _ =>
          simp only [IntentBody.parts, noCollisionAt_cons] at hfree
          obtain ⟨_, hhashes, hpeaks, _⟩ := hfree
          refine congrArg SignedIntent.declaration (DeclarationIntent.toEip712_inj
            (Reference.Eip712.Declaration.preimage_inj heq ?_ ?_))
          · intro hequal
            exact packWords_inj_of_pos (by decide) (hhashes hequal)
          · intro hequal
            exact packWords_inj_of_pos (by decide) (hpeaks hequal)
      | setAppPointer =>
          rw [IntentBody.preimage, IntentBody.preimage, Reference.Eip712.Declaration.preimage_length,
            Reference.Eip712.SetAppPointer.preimage_length] at hlength
          cases hlength
      | setSuccessor =>
          rw [IntentBody.preimage, IntentBody.preimage, Reference.Eip712.Declaration.preimage_length,
            Reference.Eip712.SetSuccessor.preimage_length] at hlength
          cases hlength
  | setAppPointer intent =>
      cases body' with
      | declaration =>
          rw [IntentBody.preimage, IntentBody.preimage, Reference.Eip712.Declaration.preimage_length,
            Reference.Eip712.SetAppPointer.preimage_length] at hlength
          cases hlength
      | setAppPointer intent' =>
          exact congrArg SignedIntent.setAppPointer
            (AppPointerIntent.toEip712_inj (Reference.Eip712.SetAppPointer.preimage_inj heq))
      | setSuccessor intent' =>
          simp only [IntentBody.parts, noCollisionAt_cons] at hfree
          refine absurd heq (Reference.Eip712.SetAppPointer.preimage_ne fun htypes => ?_)
          exact Reference.Eip712.setAppPointerType_ne (hfree.1 htypes)
  | setSuccessor intent =>
      cases body' with
      | declaration =>
          rw [IntentBody.preimage, IntentBody.preimage, Reference.Eip712.Declaration.preimage_length,
            Reference.Eip712.SetSuccessor.preimage_length] at hlength
          cases hlength
      | setAppPointer intent' =>
          simp only [IntentBody.parts, noCollisionAt_cons] at hfree
          refine absurd heq.symm (Reference.Eip712.SetAppPointer.preimage_ne fun htypes => ?_)
          exact Reference.Eip712.setAppPointerType_ne (hfree.1 htypes.symm).symm
      | setSuccessor intent' =>
          exact congrArg SignedIntent.setSuccessor
            (SuccessorIntent.toEip712_inj (Reference.Eip712.SetSuccessor.preimage_inj heq))

/-- As long as no two strings hashed at one place collide, packages with one digest carry
one intent, for one instance on one chain; and the contract hashes the same strings to the
same digest. -/
theorem signing_digest_binds {package package' : IntentPackage}
    (hfree : NoCollisionAt keccak256 (package.signingStrings keccak256)
      (package'.signingStrings keccak256)) :
    (package.signingDigest keccak256 = package'.signingDigest keccak256 →
      package.chainId = package'.chainId ∧ package.instanceAddress = package'.instanceAddress ∧
        package.body.signed = package'.body.signed) ∧
    ∀ dep block, block.chainid = package.chainId → dep.self = package.instanceAddress →
      package.signingStrings keccak256 =
          contractStrings keccak256 dep block package.body.signed ∧
        package.signingDigest keccak256 =
          contractDigest keccak256 dep block package.body.signed := by
  constructor
  · intro hdigest
    simp only [IntentPackage.signingStrings, noCollisionAt_cons] at hfree
    obtain ⟨houter, hdomain, _, _, _, hstruct, hparts⟩ := hfree
    rw [package.signingDigest_eq, package'.signingDigest_eq] at hdigest
    obtain ⟨hdomains, hstructs⟩ := Reference.Eip712.digestPreimage_inj (houter hdigest)
    obtain ⟨hchain, hinstance⟩ := Reference.Eip712.domainPreimage_inj package.chainIdFits
      package'.chainIdFits (hdomain hdomains)
    exact ⟨hchain, hinstance, IntentBody.signed_of_preimage hparts (hstruct hstructs)⟩
  · intro dep block hchain hself
    exact ⟨signingStrings_eq hchain hself, signingDigest_eq_contract hchain hself⟩

end

section

open Keccak (keccak256)

/-- A declaration of eight chunks under two peaks, the first of them as given. -/
def sampleDeclaration (peak : UInt8) : DeclarationIntent where
  nonce := 0
  deadline := 8
  blobVersionedHashes := [Vector.replicate 32 1]
  newSubtreePeaks := [Vector.replicate 32 peak, Vector.replicate 32 5]
  newLeafCount := 8
  designatedCarrier := Contract.zeroAddress
  appPointer := Contract.zeroHash
  nonceFits := Contract.zero_fits
  deadlineFits := Contract.eight_fits
  newLeafCountFits := Contract.eight_fits

def samplePackage (peak : UInt8) : IntentPackage where
  chainId := 1
  instanceAddress := Contract.sampleDeployment.self
  body := .declaration (sampleDeclaration peak) [] [] []
  signature := []
  chainIdFits := Contract.one_fits

def sampleTypehash : Hash :=
  beWord 32 0x0b9549d73687cc5f34893a3b0fd1c2f8ba042eee17e8e7b743da160074ff389c

def sampleSeparator : Hash :=
  beWord 32 0x9c78402f63677f7c5e1fb157f7572d33c1ac6b96e3609563e34554967e01a2a4

def sampleBlobs : Hash :=
  beWord 32 0xcebc8882fecbec7fb80d2cf4b312bec018884c2d66667c67a90508214bd8bafc

/-- The hashes of the sample that the peaks decide. -/
structure SampleHashes where
  peaks : Hash
  struct : Hash
  digest : Hash

def firstHashes : SampleHashes where
  peaks := beWord 32 0x9d363f7dde0657c69f609ca17da5c2d714108a90f7b24a497bdc1cc9c17385e5
  struct := beWord 32 0xf1a39db284c507b37d5e3b6fd7f9c92fc88e4dc86993d156415db48f5e768557
  digest := beWord 32 0xa4c45c507a30b437bbf44de2062b5e0a9e2768b2994ff43d8df3a5203ac9ae84

def secondHashes : SampleHashes where
  peaks := beWord 32 0x0cead91beb6243a6ab36cd85b4b0c5e8d9ab96d57302e050bfb12069d3e9d85f
  struct := beWord 32 0x030b14f717f43be61699d2f63e20660dcf28c6ee1b0b654bbe3bca9cf8d54930
  digest := beWord 32 0x3c13df91189d8407e2a0378bca0d267a1eede256d32e29102b88acb05143184b

/-- The encoded struct of the sample, given the hash of its peaks. -/
def sampleStruct (peaks : Hash) : ByteString :=
  packWords [sampleTypehash, u256 0, u256 8, sampleBlobs, peaks, u256 8,
    addrWord Contract.zeroAddress, Contract.zeroHash]

/-- Hash by hash from the peaks to the digest. -/
structure SampleHashes.Evaluated (hashes : SampleHashes) (peak : UInt8) : Prop where
  peaks : keccak256 (packWords [Vector.replicate 32 peak, Vector.replicate 32 5]) = hashes.peaks
  struct : keccak256 (sampleStruct hashes.peaks) = hashes.struct
  digest : keccak256 (digestPreimage sampleSeparator hashes.struct) = hashes.digest

/-- What the two samples hash alike. -/
structure SharedEvaluated : Prop where
  typehash : keccak256 (asBytes declarationType) = sampleTypehash
  separator :
    keccak256 (domainPreimage keccak256 1 Contract.sampleDeployment.self) = sampleSeparator
  blobs : keccak256 (packWords [Vector.replicate 32 1]) = sampleBlobs

theorem samples_evaluated :
    SharedEvaluated ∧ firstHashes.Evaluated 2 ∧ secondHashes.Evaluated 3 :=
  ⟨⟨by decide +kernel, by decide +kernel, by decide +kernel⟩,
    ⟨by decide +kernel, by decide +kernel, by decide +kernel⟩,
    ⟨by decide +kernel, by decide +kernel, by decide +kernel⟩⟩

theorem firstHashes_ne_secondHashes : firstHashes.peaks ≠ secondHashes.peaks ∧
    firstHashes.struct ≠ secondHashes.struct ∧ firstHashes.digest ≠ secondHashes.digest :=
  ⟨beWord_ne (by decide) (by decide) (by decide), beWord_ne (by decide) (by decide) (by decide),
    beWord_ne (by decide) (by decide) (by decide)⟩

theorem sampleBody_preimage {peak : UInt8} {peaks : Hash}
    (hpeaks : keccak256 (packWords (sampleDeclaration peak).newSubtreePeaks) = peaks) :
    (samplePackage peak).body.preimage keccak256 = sampleStruct peaks := by
  change packWords [keccak256 (asBytes declarationType), u256 0, u256 8,
    keccak256 (packWords [Vector.replicate 32 1]),
    keccak256 (packWords (sampleDeclaration peak).newSubtreePeaks), u256 8,
    addrWord Contract.zeroAddress, Contract.zeroHash] = _
  rw [samples_evaluated.1.typehash, samples_evaluated.1.blobs, hpeaks]
  rfl

/-- The three hashes of a sample, once they have been evaluated. -/
theorem samplePackage_hashes {peak : UInt8} {hashes : SampleHashes}
    (hevaluated : hashes.Evaluated peak) :
    keccak256 (packWords (sampleDeclaration peak).newSubtreePeaks) = hashes.peaks ∧
      keccak256 ((samplePackage peak).body.preimage keccak256) = hashes.struct ∧
      (samplePackage peak).signingDigest keccak256 = hashes.digest := by
  obtain ⟨hpeaks, hstruct, hdigest⟩ := hevaluated
  have hbody := sampleBody_preimage hpeaks
  refine ⟨hpeaks, hbody ▸ hstruct, ?_⟩
  rw [IntentPackage.signingDigest_eq, hbody, hstruct]
  change keccak256 (digestPreimage
    (keccak256 (domainPreimage keccak256 1 Contract.sampleDeployment.self)) hashes.struct) = _
  rw [samples_evaluated.1.separator, hdigest]

/-- Two declarations apart in one peak: strings of theirs that differ have different hashes. -/
theorem samples_noCollisionAt : NoCollisionAt keccak256
    ((samplePackage 2).signingStrings keccak256) ((samplePackage 3).signingStrings keccak256) := by
  obtain ⟨_, hfirst, hsecond⟩ := samples_evaluated
  obtain ⟨hpeaks, hstructs, hdigests⟩ := firstHashes_ne_secondHashes
  obtain ⟨hfirstPeaks, hfirstStruct, hfirstDigest⟩ := samplePackage_hashes hfirst
  obtain ⟨hsecondPeaks, hsecondStruct, hsecondDigest⟩ := samplePackage_hashes hsecond
  rw [← hfirstPeaks, ← hsecondPeaks] at hpeaks
  rw [← hfirstStruct, ← hsecondStruct] at hstructs
  rw [← hfirstDigest, ← hsecondDigest, IntentPackage.signingDigest_eq,
    IntentPackage.signingDigest_eq] at hdigests
  have hparts : NoCollisionAt keccak256 (samplePackage 2).body.parts
      (samplePackage 3).body.parts := by
    refine (noCollisionAt_cons keccak256).mpr ⟨fun _ => rfl, ?_⟩
    refine (noCollisionAt_cons keccak256).mpr ⟨fun _ => rfl, ?_⟩
    exact (noCollisionAt_cons keccak256).mpr
      ⟨fun h => absurd h hpeaks, noCollisionAt_self keccak256 []⟩
  simp only [IntentPackage.signingStrings, noCollisionAt_cons]
  exact ⟨fun h => absurd h hdigests, fun _ => rfl, fun _ => trivial, fun _ => trivial,
    fun _ => trivial, fun h => absurd h hstructs, hparts⟩

/-- The two declarations are told apart by their digests. -/
theorem signing_digest_binds_peaks :
    (samplePackage 2).signingDigest keccak256 ≠ (samplePackage 3).signingDigest keccak256 := by
  intro hdigest
  obtain ⟨_, _, hsigned⟩ := (signing_digest_binds samples_noCollisionAt).1 hdigest
  have hpeaks : (sampleDeclaration 2).newSubtreePeaks = (sampleDeclaration 3).newSubtreePeaks :=
    congrArg DeclarationIntent.newSubtreePeaks (SignedIntent.declaration.inj hsigned)
  have hbyte : (2 : UInt8) = 3 := congrArg (fun peak : Hash => peak[0]) (List.cons.inj hpeaks).1
  revert hbyte
  decide

end

end Blobsitter.Intents
