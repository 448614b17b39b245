import Blobsitter.Reference.Blob
import Blobsitter.Reference.Eip712

/-!
# Intent packages

A publisher signs an intent and hands it to a carrier with everything that carrying it
takes.  The digest is recomputed from the intent's fields; the static validation checks
what needs no chain.
-/

namespace Blobsitter.Intents

open Library
open Reference (Hash Address blobBytes fieldElementsPerBlob)

structure DeclarationIntent where
  nonce : Nat
  deadline : Nat
  blobVersionedHashes : List Hash
  newSubtreePeaks : List Hash
  newLeafCount : Nat
  designatedCarrier : Address
  appPointer : Hash
  nonceFits : nonce < 2 ^ 64
  deadlineFits : deadline < 2 ^ 64
  newLeafCountFits : newLeafCount < 2 ^ 64

structure AppPointerIntent where
  nonce : Nat
  deadline : Nat
  pointer : Hash
  nonceFits : nonce < 2 ^ 64
  deadlineFits : deadline < 2 ^ 64

structure SuccessorIntent where
  nonce : Nat
  deadline : Nat
  target : Address
  nonceFits : nonce < 2 ^ 64
  deadlineFits : deadline < 2 ^ 64

/-- One blob's opening at the declaration's evaluation point. -/
structure Opening where
  y : Hash
  commitment : Word 48
  kzgProof : Word 48

inductive IntentBody where
  | declaration (intent : DeclarationIntent) (blobs : List ByteString) (openings : List Opening)
      (equivalenceProof : ByteString)
  | setAppPointer (intent : AppPointerIntent)
  | setSuccessor (intent : SuccessorIntent)

structure IntentPackage where
  chainId : Nat
  instanceAddress : Address
  body : IntentBody
  signature : ByteString
  chainIdFits : chainId < 2 ^ 64

def IntentPackage.deadline (package : IntentPackage) : Nat :=
  match package.body with
  | .declaration intent _ _ _ => intent.deadline
  | .setAppPointer intent => intent.deadline
  | .setSuccessor intent => intent.deadline

def DeclarationIntent.toEip712 (intent : DeclarationIntent) : Reference.Eip712.Declaration where
  nonce := intent.nonce
  deadline := intent.deadline
  blobVersionedHashes := intent.blobVersionedHashes
  newSubtreePeaks := intent.newSubtreePeaks
  newLeafCount := intent.newLeafCount
  designatedCarrier := intent.designatedCarrier
  appPointer := intent.appPointer
  nonceFits := intent.nonceFits
  deadlineFits := intent.deadlineFits
  newLeafCountFits := intent.newLeafCountFits

def AppPointerIntent.toEip712 (intent : AppPointerIntent) : Reference.Eip712.SetAppPointer where
  nonce := intent.nonce
  deadline := intent.deadline
  appPointer := intent.pointer
  nonceFits := intent.nonceFits
  deadlineFits := intent.deadlineFits

def SuccessorIntent.toEip712 (intent : SuccessorIntent) : Reference.Eip712.SetSuccessor where
  nonce := intent.nonce
  deadline := intent.deadline
  successor := intent.target
  nonceFits := intent.nonceFits
  deadlineFits := intent.deadlineFits

section

variable (keccak256 : ByteString → Hash)

def IntentBody.structHash : IntentBody → Hash
  | .declaration intent _ _ _ => intent.toEip712.structHash keccak256
  | .setAppPointer intent => intent.toEip712.structHash keccak256
  | .setSuccessor intent => intent.toEip712.structHash keccak256

/-- `signing_digest`: what the publisher signed, recomputed from the package's fields. -/
def IntentPackage.signingDigest (package : IntentPackage) : Hash :=
  let domain := Reference.Eip712.domainSeparator keccak256 package.chainId package.instanceAddress
  Reference.Eip712.digest keccak256 domain (package.body.structHash keccak256)

end

inductive ValidateError where
  | noBlobs
  | countMismatch (hashes blobs openings : Nat)
  | wrongBlobLength (index len : Nat)
  | nonCanonical (index element : Nat)
  | blobIdentity (index : Nat) (computed signed : Hash)
  | openingCommitment (index : Nat)
  | signatureLength (len : Nat)
  | invalidBlob (index : Nat) (reason : String)
  | panicked (message : String)

/-- The commitments recomputed from the package's blobs. -/
structure Validated where
  commitments : List (Word 48)

/-- `c_kzg` with the settings of the chain: commitments to blobs, and the check of an
opening of a commitment at a point. -/
structure Kzg where
  blobToKzgCommitment : ByteString → Except String (Word 48)
  verifyKzgProof : Word 48 → Hash → Hash → Word 48 → Except String Bool
  computeBlobKzgProof : ByteString → Word 48 → Except String (Word 48)

section

variable (sha256 : ByteString → Word 32) (kzg : Kzg)

/-- `versioned_hash`: a version byte, then the rest of the commitment's hash. -/
def versionedHash (commitment : Word 48) : Hash :=
  (sha256 commitment.toList).set 0 0x01 (Nat.succ_pos 31)

/-- The first field element whose high byte is not zero. -/
def nonCanonicalElement (raw : ByteString) : Option Nat :=
  (List.range fieldElementsPerBlob).find? fun element => raw.getD (element * 32) 0 ≠ 0

/-- One pass of the loop: the blob's commitment, when the blob is the signed one. -/
def validateBlob (intent : DeclarationIntent) (openings : List Opening) (index : Nat)
    (raw : ByteString) : Except ValidateError (Word 48) :=
  if raw.length ≠ blobBytes then .error (.wrongBlobLength index raw.length)
  else
    match nonCanonicalElement raw with
    | some element => .error (.nonCanonical index element)
    | none => do
        let commitment ← (kzg.blobToKzgCommitment raw).mapError (.invalidBlob index)
        let computed := versionedHash sha256 commitment
        match intent.blobVersionedHashes[index]?, openings[index]? with
        | some signed, some opening =>
            if computed ≠ signed then .error (.blobIdentity index computed signed)
            else if opening.commitment ≠ commitment then .error (.openingCommitment index)
            else return commitment
        | _, _ => .error (.panicked "index out of bounds")

/-- The loop over the blobs, from blob `index` on. -/
def validateBlobs (intent : DeclarationIntent) (openings : List Opening) :
    List ByteString → Nat → Except ValidateError (List (Word 48))
  | [], _ => .ok []
  | raw :: rest, index => do
      let commitment ← validateBlob sha256 kzg intent openings index raw
      let commitments ← validateBlobs intent openings rest (index + 1)
      return commitment :: commitments

def validate (package : IntentPackage) : Except ValidateError Validated :=
  if package.signature.length ≠ 65 then .error (.signatureLength package.signature.length)
  else
    match package.body with
    | .declaration intent blobs openings _ =>
        if blobs.isEmpty then .error .noBlobs
        else if intent.blobVersionedHashes.length ≠ blobs.length ∨ openings.length ≠ blobs.length then
          .error (.countMismatch intent.blobVersionedHashes.length blobs.length openings.length)
        else do
          let commitments ← validateBlobs sha256 kzg intent openings blobs 0
          return ⟨commitments⟩
    | _ => .ok ⟨[]⟩

end

/-! ## What a valid package has -/

section

variable {sha256 : ByteString → Word 32} {kzg : Kzg} {intent : DeclarationIntent}
variable {openings : List Opening}

/-- The blob is the signed one, and its opening is of its commitment. -/
structure BlobMatches (sha256 : ByteString → Word 32) (kzg : Kzg) (intent : DeclarationIntent)
    (openings : List Opening) (index : Nat) (raw : ByteString) (commitment : Word 48) : Prop where
  size : raw.length = blobBytes
  committed : kzg.blobToKzgCommitment raw = .ok commitment
  signed : intent.blobVersionedHashes[index]? = some (versionedHash sha256 commitment)
  opened : ∃ opening, openings[index]? = some opening ∧ opening.commitment = commitment

theorem validateBlob_eq_ok {index : Nat} {raw : ByteString} {commitment : Word 48}
    (hok : validateBlob sha256 kzg intent openings index raw = .ok commitment) :
    BlobMatches sha256 kzg intent openings index raw commitment := by
  unfold validateBlob at hok
  split at hok
  · cases hok
  · rename_i hsize
    split at hok
    · cases hok
    · obtain ⟨found, hfound, hrest⟩ := bind_eq_ok.mp hok
      cases hcommit : kzg.blobToKzgCommitment raw with
      | error reason =>
          rw [hcommit] at hfound
          cases hfound
      | ok computed =>
          rw [hcommit] at hfound
          cases hfound
          simp only at hrest
          split at hrest
          · rename_i signed opening hsigned hopening
            split at hrest
            · cases hrest
            · rename_i hidentity
              split at hrest
              · cases hrest
              · rename_i hsame
                cases hrest
                refine ⟨not_not.mp hsize, hcommit, ?_, opening, hopening, not_not.mp hsame⟩
                rw [hsigned, not_not.mp hidentity]
          · cases hrest

theorem validateBlobs_eq_ok {blobs : List ByteString} {index : Nat} {commitments : List (Word 48)}
    (hok : validateBlobs sha256 kzg intent openings blobs index = .ok commitments) :
    ∀ (j : Nat) raw, blobs[j]? = some raw → ∃ commitment,
      BlobMatches sha256 kzg intent openings (index + j) raw commitment := by
  induction blobs generalizing index commitments with
  | nil =>
      intro j raw hraw
      cases hraw
  | cons first rest ih =>
      obtain ⟨commitment, hfirst, hok⟩ := bind_eq_ok.mp hok
      obtain ⟨others, hrest, _⟩ := bind_eq_ok.mp hok
      intro j raw hraw
      cases j with
      | zero =>
          obtain rfl := Option.some.inj hraw
          exact ⟨commitment, validateBlob_eq_ok hfirst⟩
      | succ j =>
          obtain ⟨found, hfound⟩ := ih hrest j raw hraw
          refine ⟨found, ?_⟩
          rwa [Nat.add_assoc, Nat.add_comm 1 j] at hfound

/-- A valid declaration has one signed hash and one opening for each of its blobs, and
each blob is the signed one. -/
structure ValidDeclaration (sha256 : ByteString → Word 32) (kzg : Kzg) (intent : DeclarationIntent)
    (blobs : List ByteString) (openings : List Opening) : Prop where
  hashCount : intent.blobVersionedHashes.length = blobs.length
  openingCount : openings.length = blobs.length
  matching : ∀ (j : Nat) raw, blobs[j]? = some raw → ∃ commitment,
    BlobMatches sha256 kzg intent openings j raw commitment

theorem validate_declaration {package : IntentPackage} {blobs : List ByteString}
    {equivalenceProof : ByteString} {validated : Validated}
    (hbody : package.body = .declaration intent blobs openings equivalenceProof)
    (hok : validate sha256 kzg package = .ok validated) :
    ValidDeclaration sha256 kzg intent blobs openings := by
  unfold validate at hok
  split at hok
  · cases hok
  · rw [hbody] at hok
    simp only at hok
    split at hok
    · cases hok
    · split at hok
      · cases hok
      · rename_i hcounts
        rw [not_or, not_not, not_not] at hcounts
        obtain ⟨commitments, hblobs, _⟩ := bind_eq_ok.mp hok
        refine ⟨hcounts.1, hcounts.2, ?_⟩
        intro j raw hraw
        have hfound := validateBlobs_eq_ok hblobs j raw hraw
        rwa [Nat.zero_add] at hfound

/-- A blob that is the signed one passes, when its elements' high bytes are zero. -/
theorem validateBlob_ok {index : Nat} {raw : ByteString} {commitment : Word 48}
    (hmatches : BlobMatches sha256 kzg intent openings index raw commitment)
    (hcanonical : nonCanonicalElement raw = none) :
    validateBlob sha256 kzg intent openings index raw = .ok commitment := by
  obtain ⟨opening, hopening, hsame⟩ := hmatches.opened
  unfold validateBlob
  rw [if_neg (not_not_intro hmatches.size), hcanonical]
  simp only
  rw [hmatches.committed, hmatches.signed, hopening]
  refine bind_eq_ok.mpr ⟨commitment, rfl, ?_⟩
  simp only
  rw [if_neg (not_not_intro rfl), if_neg (not_not_intro hsame)]
  rfl

theorem validateBlobs_ok {commit : ByteString → Word 48} {blobs : List ByteString} {index : Nat}
    (hmatches : ∀ (j : Nat) raw, blobs[j]? = some raw →
      BlobMatches sha256 kzg intent openings (index + j) raw (commit raw) ∧
        nonCanonicalElement raw = none) :
    validateBlobs sha256 kzg intent openings blobs index = .ok (blobs.map commit) := by
  induction blobs generalizing index with
  | nil => rfl
  | cons first rest ih =>
      obtain ⟨hfirst, hcanonical⟩ := hmatches 0 first rfl
      refine bind_eq_ok.mpr ⟨commit first, validateBlob_ok hfirst hcanonical, ?_⟩
      refine bind_eq_ok.mpr ⟨rest.map commit, ih ?_, rfl⟩
      intro j raw hraw
      have hnext := hmatches (j + 1) raw hraw
      rwa [Nat.add_comm j 1, ← Nat.add_assoc] at hnext

end

end Blobsitter.Intents
