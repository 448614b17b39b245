import Blobsitter.Contract.Content
import Blobsitter.Contract.MmrRefinement
import Blobsitter.Intents.SigningDigest

/-!
# The carrier's preflight

Before it spends gas a carrier runs the contract's checks itself, against the state of one
pinned block, and then simulates the transaction.  The calls of the RPC endpoint can fail;
numbers are 64-bit.
-/

namespace Blobsitter.Carrier

open Library
open Reference (Hash Address fieldElementsPerBlob)
open Intents (DeclarationIntent IntentPackage Kzg Opening Validated)
open Contract (zeroAddress)

structure Header where
  number : Nat
  timestamp : Nat

/-- How a call of the publisher's wallet ends. -/
inductive WalletAnswer where
  | transport (message : String)
  | reverted
  | returned (data : ByteString)

/-- The view functions of the instance, read at one block. -/
structure Views where
  publisher : Except String Address
  declarationNonce : Except String Nat
  appPointerNonce : Except String Nat
  successorNonce : Except String Nat
  leafCount : Except String Nat
  allPeaks : Except String (List Hash)

/-- One blob of a sidecar with its commitment and proof. -/
structure SidecarBlob where
  blob : ByteString
  commitment : Word 48
  proof : Word 48

structure TransactionRequest where
  sender : Address
  target : Address
  input : ByteString
  sidecar : Option (List SidecarBlob)
  maxFeePerBlobGas : Option Nat
  gas : Option Nat

/-- The endpoint: reads at a pinned block number, the blob base fee and the simulation. -/
structure Provider where
  chainId : Except String Nat
  latest : Except String (Option Header)
  views : Address → Nat → Views
  isValidSignature : Address → Nat → Hash → ByteString → WalletAnswer
  blobBaseFee : Except String Nat
  estimateGas : TransactionRequest → Except String Nat

inductive PreflightError where
  | wrongChain (package rpc : Nat)
  | expired (deadline now : Nat)
  | nonceMismatch (intent contract : Nat)
  | notDesignated (designated us : Address)
  | signatureRejected
  | doesNotExtend (new current : Nat)
  | blobCountMismatch (blobs m required : Nat)
  | subtreeCountMismatch (got n0 m required : Nat)
  | nonZeroTail (m element : Nat)
  | openingInvalid (index : Nat)
  | simulation (message : String)
  | rpc (message : String)
  | panicked (message : String)

/-- A transaction that is ready to be sent. -/
structure Preflighted where
  tx : TransactionRequest
  gasEstimate : Nat
  numBlobs : Nat
  calldataLen : Nat
  isDeclaration : Bool

/-- `if bad { return Err(e); }` -/
def rejectIf (bad : Prop) [Decidable bad] (e : PreflightError) : Except PreflightError Unit :=
  if bad then .error e else .ok ()

theorem rejectIf_eq_ok {bad : Prop} [Decidable bad] {e : PreflightError} {u : Unit} :
    rejectIf bad e = .ok u ↔ ¬bad := by
  unfold rejectIf
  split <;> simp_all

def slotSeconds : Nat := 12

def erc1271Magic : ByteString := [0x16, 0x26, 0xba, 0x7e]

/-- The decoded answer is the four bytes at the front of its word. -/
def walletAccepts : WalletAnswer → Except PreflightError Unit
  | .transport message => .error (.rpc message)
  | .reverted => .error .signatureRejected
  | .returned data => rejectIf (data.length < 32 ∨ data.take 4 ≠ erc1271Magic) .signatureRejected

/-- `usize::div_ceil`. -/
def divCeil (a b : Nat) : Nat := if 0 < a % b then a / b + 1 else a / b

/-- The first element from `tailStart` on that is not zero. -/
def nonZeroElement (tailStart : Nat) (last : ByteString) : Option Nat :=
  (List.range' tailStart (fieldElementsPerBlob - tailStart)).find? fun element =>
    ((last.drop (element * 32)).take 32).any (· ≠ 0)

/-- Past the declared chunks the final blob is zero. -/
def checkTail (m : Nat) (blobs : List ByteString) : Except PreflightError Unit :=
  let tailStart := m % fieldElementsPerBlob
  if tailStart = 0 then .ok ()
  else
    match blobs.getLast? with
    | none => .error (.panicked "attempt to subtract with overflow")
    | some last =>
        match nonZeroElement tailStart last with
        | some element => .error (.nonZeroTail m element)
        | none => .ok ()

section

variable (keccak256 : ByteString → Hash) (kzg : Kzg)

/-- The loop over the openings, from index `index` on; a failing verifier counts as a
rejection. -/
def checkOpenings (z : Hash) : List Opening → Nat → Except PreflightError Unit
  | [], _ => .ok ()
  | opening :: rest, index =>
      match kzg.verifyKzgProof opening.commitment z opening.y opening.kzgProof with
      | .ok true => checkOpenings z rest (index + 1)
      | _ => .error (.openingInvalid index)

/-- The checks that every kind of intent passes: chain, deadline and wallet. -/
def commonChecks (provider : Provider) (package : IntentPackage) : Except PreflightError Header := do
  let chainId ← provider.chainId.mapError .rpc
  rejectIf (chainId ≠ package.chainId) (.wrongChain package.chainId chainId)
  let latest ← provider.latest.mapError .rpc
  let header ← latest.elim (.error (.rpc "no latest block")) .ok
  -- the earliest inclusion is the next slot
  rejectIf ((header.timestamp + slotSeconds) % 2 ^ 64 ≥ package.deadline)
    (.expired package.deadline header.timestamp)
  let publisher ← (provider.views package.instanceAddress header.number).publisher.mapError .rpc
  walletAccepts (provider.isValidSignature publisher header.number (package.signingDigest keccak256)
    package.signature)
  return header

/-- The checks of a declaration against the live state. -/
def declarationChecks (views : Views) (instanceAddress carrier : Address) (intent : DeclarationIntent)
    (blobs : List ByteString) (openings : List Opening) : Except PreflightError Unit := do
  let contractNonce ← views.declarationNonce.mapError .rpc
  rejectIf (intent.nonce ≠ contractNonce) (.nonceMismatch intent.nonce contractNonce)
  rejectIf (intent.designatedCarrier ≠ zeroAddress ∧ intent.designatedCarrier ≠ carrier)
    (.notDesignated intent.designatedCarrier carrier)
  let n0 ← views.leafCount.mapError .rpc
  let m := intent.newLeafCount - n0
  rejectIf (m = 0) (.doesNotExtend intent.newLeafCount n0)
  let required := divCeil m fieldElementsPerBlob
  rejectIf (blobs.length ≠ required) (.blobCountMismatch blobs.length m required)
  let heights ← (Reference.decompose n0 m).mapError fun fault => .panicked fault.message
  rejectIf (intent.newSubtreePeaks.length ≠ heights.length)
    (.subtreeCountMismatch intent.newSubtreePeaks.length n0 m heights.length)
  checkTail m blobs
  let priorPeaks ← views.allPeaks.mapError .rpc
  let z := Reference.fsZ keccak256 instanceAddress intent.blobVersionedHashes priorPeaks
    intent.newSubtreePeaks n0 intent.newLeafCount
  checkOpenings kzg z openings 0

def nonceCheck (answer : Except String Nat) (nonce : Nat) : Except PreflightError Unit := do
  let contractNonce ← answer.mapError .rpc
  rejectIf (nonce ≠ contractNonce) (.nonceMismatch nonce contractNonce)

/-- Everything that preflight checks without the simulation. -/
def localChecks (provider : Provider) (package : IntentPackage) (carrier : Address) :
    Except PreflightError Unit := do
  let header ← commonChecks keccak256 provider package
  let views := provider.views package.instanceAddress header.number
  match package.body with
  | .declaration intent blobs openings _ =>
      declarationChecks keccak256 kzg views package.instanceAddress carrier intent blobs openings
  | .setAppPointer intent => nonceCheck views.appPointerNonce intent.nonce
  | .setSuccessor intent => nonceCheck views.successorNonce intent.nonce

/-! ## The transaction -/

/-- `build_sidecar`: blobs and recomputed commitments, with proofs made here. -/
def buildSidecar (blobs : List ByteString) (commitments : List (Word 48)) :
    Except PreflightError (List SidecarBlob) :=
  (blobs.zip commitments).mapM fun pair => do
    let proof ← (kzg.computeBlobKzgProof pair.1 pair.2).mapError .simulation
    return ⟨pair.1, pair.2, proof⟩

def toContractOpening (o : Opening) : Contract.BlobOpening where
  y := o.y
  commitment := o.commitment.toList
  kzgProof := o.kzgProof.toList

/-- The call that carries the package. -/
def carriedCall (package : IntentPackage) : Contract.Call :=
  match package.body with
  | .declaration intent _ openings equivalenceProof => .declareFor intent.toContract package.signature
      (openings.map toContractOpening) equivalenceProof
  | .setAppPointer intent => .setAppPointer intent.nonce intent.deadline intent.pointer package.signature
  | .setSuccessor intent => .setSuccessor intent.nonce intent.deadline intent.target package.signature

/-- Number of blobs and sidecar, for a declaration. -/
def carriedBlobs (package : IntentPackage) (validated : Validated) :
    Except PreflightError (Nat × Option (List SidecarBlob)) :=
  match package.body with
  | .declaration _ blobs _ _ => do
      let sidecar ← buildSidecar kzg blobs validated.commitments
      return (blobs.length, some sidecar)
  | _ => .ok (0, none)

/-- The blob fee cap: twice the live fee, and a floor. -/
def blobFeeCap (provider : Provider) (sidecar : Option (List SidecarBlob)) :
    Except PreflightError (Option Nat) :=
  match sidecar with
  | some _ => do
      let fee ← provider.blobBaseFee.mapError .rpc
      return some (max (fee * 2 % 2 ^ 128) 1000000000)
  | none => .ok none

/-- `preflight`; the calldata is what the ABI encoder makes of the call. -/
def preflight (abiEncode : Contract.Call → ByteString) (provider : Provider) (package : IntentPackage)
    (validated : Validated) (carrier : Address) : Except PreflightError Preflighted := do
  localChecks keccak256 kzg provider package carrier
  let (numBlobs, sidecar) ← carriedBlobs kzg package validated
  let calldata := abiEncode (carriedCall package)
  let maxFeePerBlobGas ← blobFeeCap provider sidecar
  let tx : TransactionRequest :=
    ⟨carrier, package.instanceAddress, calldata, sidecar, maxFeePerBlobGas, none⟩
  let gasEstimate ← (provider.estimateGas tx).mapError .simulation
  return ⟨{ tx with gas := some ((gasEstimate + gasEstimate / 4) % 2 ^ 64) }, gasEstimate, numBlobs,
    calldata.length, sidecar.isSome⟩

end

section

variable {keccak256 : ByteString → Hash} {kzg : Kzg}

/-- A full preflight has passed every local check, and sends the package's call. -/
theorem preflight_passed {abiEncode : Contract.Call → ByteString} {provider : Provider}
    {package : IntentPackage} {validated : Validated} {carrier : Address} {ready : Preflighted}
    (hok : preflight keccak256 kzg abiEncode provider package validated carrier = .ok ready) :
    localChecks keccak256 kzg provider package carrier = .ok () ∧
      ready.tx.sender = carrier ∧ ready.tx.target = package.instanceAddress ∧
      ready.tx.input = abiEncode (carriedCall package) := by
  obtain ⟨_, hlocal, hok⟩ := bind_eq_ok.mp hok
  obtain ⟨⟨numBlobs, sidecar⟩, _, hok⟩ := bind_eq_ok.mp hok
  obtain ⟨fee, _, hok⟩ := bind_eq_ok.mp hok
  obtain ⟨gasEstimate, _, hok⟩ := bind_eq_ok.mp hok
  cases pure_eq_ok.mp hok
  exact ⟨hlocal, rfl, rfl, rfl⟩

theorem walletAccepts_eq_ok {answer : WalletAnswer} (hok : walletAccepts answer = .ok ()) :
    ∃ data, answer = .returned data ∧ 32 ≤ data.length ∧ data.take 4 = erc1271Magic := by
  cases answer with
  | transport => cases hok
  | reverted => cases hok
  | returned data =>
      have hpassed := rejectIf_eq_ok.mp hok
      rw [not_or, not_lt, not_not] at hpassed
      exact ⟨data, rfl, hpassed⟩

theorem checkOpenings_eq_ok {z : Hash} {openings : List Opening} {index : Nat}
    (hok : checkOpenings kzg z openings index = .ok ()) :
    ∀ opening ∈ openings,
      kzg.verifyKzgProof opening.commitment z opening.y opening.kzgProof = .ok true := by
  induction openings generalizing index with
  | nil =>
      intro opening hmem
      cases hmem
  | cons first rest ih =>
      rw [checkOpenings] at hok
      split at hok
      · rename_i hverified
        intro opening hmem
        rcases List.mem_cons.mp hmem with rfl | hrest
        · exact hverified
        · exact ih hok opening hrest
      · cases hok

/-- Both roundings up are one. -/
theorem divCeil_eq (m : Nat) : divCeil m fieldElementsPerBlob = (m + 4095) / 4096 := by
  unfold divCeil fieldElementsPerBlob
  split
  · omega
  · omega

end

end Blobsitter.Carrier
