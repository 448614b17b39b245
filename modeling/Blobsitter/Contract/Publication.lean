import Blobsitter.Contract.State

/-!
# Publication entry points of the instance

The signed intents and their digests, the checks of a declaration in source order,
and its effects.  Every accepted declaration is characterised once, with all its
checks as named facts.
-/

namespace Blobsitter.Contract

open Library
open Reference (Chunk Hash Address)

section

variable (keccak256 : ByteString → Hash) (dep : Deployment) (block : Block) (msg : Msg)

/-- Bytes of an ASCII text. -/
def ascii (text : String) : ByteString := text.toList.map fun c => UInt8.ofNat c.toNat

/-- A value type in `abi.encode`: one 32-byte word. -/
def abiNat (n : Nat) : ByteString := beBytes 32 n

def abiAddress (account : Address) : ByteString := List.replicate 12 0 ++ account.toList

def domainTypehash : Hash := keccak256 (ascii
  "EIP712Domain(string name,string version,uint256 chainId,address verifyingContract)")

def declarationTypehash : Hash := keccak256 (ascii
  "Declaration(uint64 nonce,uint64 deadline,bytes32[] blobVersionedHashes,bytes32[] newSubtreePeaks,uint64 newLeafCount,address designatedCarrier,bytes32 appPointer)")

def setAppPointerTypehash : Hash := keccak256 (ascii
  "SetAppPointer(uint64 nonce,uint64 deadline,bytes32 appPointer)")

def setSuccessorTypehash : Hash := keccak256 (ascii
  "SetSuccessor(uint64 nonce,uint64 deadline,address successor)")

def domainSeparator : Hash :=
  keccak256 ((domainTypehash keccak256).toList ++ (keccak256 (ascii "blobsitter")).toList ++
    (keccak256 (ascii "1")).toList ++ abiNat block.chainid ++ abiAddress dep.self)

def digest (structHash : Hash) : Hash :=
  keccak256 ([0x19, 0x01] ++ (domainSeparator keccak256 dep block).toList ++ structHash.toList)

def declarationDigest (d : Declaration) : Hash :=
  digest keccak256 dep block (keccak256 ((declarationTypehash keccak256).toList ++
    abiNat d.nonce ++ abiNat d.deadline ++
    (keccak256 (packWords d.blobVersionedHashes)).toList ++
    (keccak256 (packWords d.newSubtreePeaks)).toList ++
    abiNat d.newLeafCount ++ abiAddress d.designatedCarrier ++ d.appPointer.toList))

def setAppPointerDigest (nonce deadline : Nat) (pointer : Hash) : Hash :=
  digest keccak256 dep block (keccak256 ((setAppPointerTypehash keccak256).toList ++
    abiNat nonce ++ abiNat deadline ++ pointer.toList))

def setSuccessorDigest (nonce deadline : Nat) (target : Address) : Hash :=
  digest keccak256 dep block (keccak256 ((setSuccessorTypehash keccak256).toList ++
    abiNat nonce ++ abiNat deadline ++ abiAddress target))

/-- `ERC1271_MAGIC`, left-aligned in a word. -/
def erc1271Magic : ByteString := [0x16, 0x26, 0xba, 0x7e] ++ List.replicate 28 0

/-- `_requireValidSignature`: the wallet must answer with the magic word. -/
def requireValidSignature (structDigest : Hash) (sig : ByteString) : Except Revert Unit :=
  match msg.wallet structDigest sig with
  | none => .error .badSignature
  | some ret => revertIf (ret.length < 32 ∨ ret.take 32 ≠ erc1271Magic) .badSignature

def blsModulus : Nat :=
  52435875175126190479447740508185965837690552500527637822603658699938581184513

def fsPreimage (blobVersionedHashes priorPeaks newSubtreePeaks : List Hash)
    (priorLeafCount newLeafCount : Nat) : ByteString :=
  [0x03] ++ dep.self.toList ++ packWords blobVersionedHashes ++ packWords priorPeaks ++
    packWords newSubtreePeaks ++ beBytes 8 priorLeafCount ++ beBytes 8 newLeafCount

def fsPreimageHash (blobVersionedHashes priorPeaks newSubtreePeaks : List Hash)
    (priorLeafCount newLeafCount : Nat) : Hash :=
  keccak256 (fsPreimage dep blobVersionedHashes priorPeaks newSubtreePeaks priorLeafCount
    newLeafCount)

/-- `bytes32(uint256(h) % BLS_MODULUS)`. -/
def reduceModulus (h : Hash) : Hash := beWord 32 (wordNat h % blsModulus)

/-- Input of the point-evaluation precompile for one blob. -/
def openingInput (vh z : Hash) (o : BlobOpening) : ByteString :=
  vh.toList ++ z.toList ++ o.y.toList ++ o.commitment ++ o.kzgProof

def equivalencePublicValues (preimageHash : Hash) (openings : List BlobOpening) : ByteString :=
  preimageHash.toList ++ packWords (openings.map BlobOpening.y)

def equivalenceVkey : Hash :=
  beWord 32 0x00ca78aee8a6e7b631f5ee0c343d214660840ed2b30e943d048436e74cc75dcb

/-- The blob hash loop, from index `j` on. -/
def checkBlobHashes (hashes : List Hash) : Nat → Nat → Except Revert Unit
  | 0, _ => .ok ()
  | left + 1, j => do
      let declared ← (load hashes j).orPanic
      revertIf (msg.blobhash j ≠ declared) (.blobHashMismatch j)
      checkBlobHashes hashes left (j + 1)

/-- The opening loop, from index `j` on. -/
def checkOpenings (hashes : List Hash) (z : Hash) (openings : List BlobOpening) :
    Nat → Nat → Except Revert Unit
  | 0, _ => .ok ()
  | left + 1, j => do
      let vh ← (load hashes j).orPanic
      let o ← (load openings j).orPanic
      revertIf (msg.pointEvaluation (openingInput vh z o) = false) (.pointEvaluationFailed j)
      checkOpenings hashes z openings left (j + 1)

/-- The amount of `_reimburse`. -/
def reimbursement (numBlobs : Nat) (isDeclaration : Bool) : Checked Nat := do
  let blobGas ← checkedMul 256 numBlobs 131072
  let blobFee ← checkedMul 256 blobGas block.blobbasefee
  let calldata ← checkedMul 256 16 msg.dataLength
  let gas ← checkedAdd 256 msg.gasUsed 21000
  let gas ← checkedAdd 256 gas calldata
  let gas ← checkedAdd 256 gas 25000
  let executionFee ← checkedMul 256 gas block.basefee
  let amount ← checkedAdd 256 blobFee executionFee
  let amount ← checkedAdd 256 amount dep.params.carrierTipWei
  checkedAdd 256 amount (if isDeclaration then dep.params.provingSubsidyWei else 0)

def declareFor (s : Storage) (d : Declaration) (publisherSig : ByteString)
    (openings : List BlobOpening) (equivalenceProof : ByteString) : Except Revert Outcome := do
  revertIf (s.entered = true) .reentered
  -- intent validity
  revertIf (block.timestamp > d.deadline) (.intentExpired d.deadline)
  revertIf (d.nonce ≠ s.declarationNonce) (.wrongNonce s.declarationNonce)
  revertIf (d.designatedCarrier ≠ zeroAddress ∧ d.designatedCarrier ≠ msg.sender)
    (.notDesignatedCarrier d.designatedCarrier)
  requireValidSignature msg (declarationDigest keccak256 dep block d) publisherSig
  -- shape
  revertIf (d.newLeafCount ≤ s.leafCount) .emptyUpdate
  let m ← (checkedSub d.newLeafCount s.leafCount).orPanic
  let blobCount := (m + 4095) / 4096
  revertIf (d.blobVersionedHashes.length ≠ blobCount ∨ openings.length ≠ blobCount)
    (.blobCountMismatch blobCount)
  checkBlobHashes msg d.blobVersionedHashes blobCount 0
  revertIf (msg.blobhash blobCount ≠ zeroHash) .unexpectedExtraBlob
  let heights ← (MMR.decompose s.leafCount m).orPanic
  revertIf (d.newSubtreePeaks.length ≠ heights.length) (.subtreeCountMismatch heights.length)
  -- openings at the evaluation point
  let preimageHash := fsPreimageHash keccak256 dep d.blobVersionedHashes s.peaks d.newSubtreePeaks
    s.leafCount d.newLeafCount
  checkOpenings msg d.blobVersionedHashes (reduceModulus preimageHash) openings blobCount 0
  -- equivalence proof
  revertIf (msg.verifyProof equivalenceVkey (equivalencePublicValues preimageHash openings)
    equivalenceProof = false) .invalidEquivalenceProof
  -- effects
  let (newPeaks, n1) ← (MMR.applyUpdate keccak256 s.peaks s.leafCount d.newSubtreePeaks
    heights).orPanic
  let nextNonce ← (checkedAdd 64 d.nonce 1).orPanic
  let grown ← (checkedSub n1 s.activityCheckpointLeafCount).orPanic
  let active := grown ≥ dep.params.dormancyMinChunks
  let amount ← (reimbursement dep block msg blobCount true).orPanic
  return ⟨{ s with
      peaks := newPeaks
      leafCount := n1
      declarationNonce := nextNonce
      appPointer := if d.appPointer ≠ zeroHash then d.appPointer else s.appPointer
      activityCheckpointTime :=
        if active then block.timestamp % 2 ^ 64 else s.activityCheckpointTime
      activityCheckpointLeafCount := if active then n1 else s.activityCheckpointLeafCount
      entered := true },
    [.declared d.nonce n1 d.blobVersionedHashes d.newSubtreePeaks d.appPointer msg.sender],
    none, [], .reimburse msg.sender amount true⟩

def setAppPointer (s : Storage) (nonce deadline : Nat) (pointer : Hash) (sig : ByteString) :
    Except Revert Outcome := do
  revertIf (s.entered = true) .reentered
  revertIf (block.timestamp > deadline) (.intentExpired deadline)
  revertIf (nonce ≠ s.appPointerNonce) (.wrongNonce s.appPointerNonce)
  requireValidSignature msg (setAppPointerDigest keccak256 dep block nonce deadline pointer) sig
  let nextNonce ← (checkedAdd 64 nonce 1).orPanic
  let amount ← (reimbursement dep block msg 0 false).orPanic
  return ⟨{ s with appPointerNonce := nextNonce, appPointer := pointer, entered := true },
    [.appPointerSet nonce pointer], none, [], .reimburse msg.sender amount false⟩

def setSuccessor (s : Storage) (nonce deadline : Nat) (target : Address) (sig : ByteString) :
    Except Revert Outcome := do
  revertIf (s.entered = true) .reentered
  revertIf (block.timestamp > deadline) (.intentExpired deadline)
  revertIf (nonce ≠ s.successorNonce) (.wrongNonce s.successorNonce)
  requireValidSignature msg (setSuccessorDigest keccak256 dep block nonce deadline target) sig
  revertIf (s.successor ≠ zeroAddress) .successorAlreadySet
  revertIf (target = zeroAddress) .zeroAddress
  let nextNonce ← (checkedAdd 64 nonce 1).orPanic
  let amount ← (reimbursement dep block msg 0 false).orPanic
  return ⟨{ s with successorNonce := nextNonce, successor := target, entered := true },
    [.successorSet target], none, [], .reimburse msg.sender amount false⟩

/-! ## What an accepted publication call did -/

theorem checkBlobHashes_eq_ok {hashes : List Hash} {left j : Nat}
    (hok : checkBlobHashes msg hashes left j = .ok ()) :
    ∀ i < left, hashes[j + i]? = some (msg.blobhash (j + i)) := by
  induction left generalizing j with
  | zero =>
      intro i hi
      omega
  | succ left ih =>
      simp only [checkBlobHashes, bind_eq_ok, orPanic_eq_ok, load_eq_ok, revertIf_eq_ok,
        not_not] at hok
      obtain ⟨declared, hload, _, hequal, hrest⟩ := hok
      intro i hi
      cases i with
      | zero => rw [Nat.add_zero, hload, hequal]
      | succ i =>
          have hnext := ih hrest i (by omega)
          rwa [show j + 1 + i = j + (i + 1) by omega] at hnext

theorem checkOpenings_eq_ok {hashes : List Hash} {z : Hash} {openings : List BlobOpening}
    {left j : Nat} (hok : checkOpenings msg hashes z openings left j = .ok ()) :
    ∀ i < left, ∃ vh o, hashes[j + i]? = some vh ∧ openings[j + i]? = some o ∧
      msg.pointEvaluation (openingInput vh z o) = true := by
  induction left generalizing j with
  | zero =>
      intro i hi
      omega
  | succ left ih =>
      simp only [checkOpenings, bind_eq_ok, orPanic_eq_ok, load_eq_ok, revertIf_eq_ok,
        Bool.not_eq_false] at hok
      obtain ⟨vh, hvh, o, ho, _, heval, hrest⟩ := hok
      intro i hi
      cases i with
      | zero => exact ⟨vh, o, hvh, ho, heval⟩
      | succ i =>
          have hnext := ih hrest i (by omega)
          rwa [show j + 1 + i = j + (i + 1) by omega] at hnext

theorem checkBlobHashes_ok {hashes : List Hash} {left j : Nat}
    (hsame : ∀ i < left, hashes[j + i]? = some (msg.blobhash (j + i))) :
    checkBlobHashes msg hashes left j = .ok () := by
  induction left generalizing j with
  | zero => rfl
  | succ left ih =>
      have hfirst : load hashes j = .ok (msg.blobhash j) := load_ok (hsame 0 (Nat.succ_pos left))
      have hrest : checkBlobHashes msg hashes left (j + 1) = .ok () := by
        refine ih fun i hi => ?_
        rw [show j + 1 + i = j + (i + 1) by omega]
        exact hsame (i + 1) (by omega)
      rw [checkBlobHashes, orPanic_eq_ok.mpr hfirst, ok_bind, revertIf_ok (not_not_intro rfl), ok_bind,
        hrest]

theorem checkOpenings_ok {hashes : List Hash} {z : Hash} {openings : List BlobOpening} {left j : Nat}
    (hopened : ∀ i < left, ∃ vh o, hashes[j + i]? = some vh ∧ openings[j + i]? = some o ∧
      msg.pointEvaluation (openingInput vh z o) = true) :
    checkOpenings msg hashes z openings left j = .ok () := by
  induction left generalizing j with
  | zero => rfl
  | succ left ih =>
      obtain ⟨vh, o, hvh, ho, heval⟩ := hopened 0 (Nat.succ_pos left)
      have hrest : checkOpenings msg hashes z openings left (j + 1) = .ok () := by
        refine ih fun i hi => ?_
        rw [show j + 1 + i = j + (i + 1) by omega]
        exact hopened (i + 1) (by omega)
      have hpassed : ¬msg.pointEvaluation (openingInput vh z o) = false := by
        rw [heval]
        exact Bool.true_eq_false.mp
      rw [Nat.add_zero] at hvh ho
      rw [checkOpenings, orPanic_eq_ok.mpr (load_ok hvh), ok_bind, orPanic_eq_ok.mpr (load_ok ho),
        ok_bind, revertIf_ok hpassed, ok_bind, hrest]

/-- Everything an accepted declaration has passed. -/
structure DeclareAccepted (s : Storage) (d : Declaration) (publisherSig : ByteString)
    (openings : List BlobOpening) (equivalenceProof : ByteString) (out : Outcome) : Prop where
  idle : s.entered = false
  inTime : block.timestamp ≤ d.deadline
  nonce : d.nonce = s.declarationNonce
  carrier : d.designatedCarrier = zeroAddress ∨ d.designatedCarrier = msg.sender
  signature : requireValidSignature msg (declarationDigest keccak256 dep block d) publisherSig =
    .ok ()
  grows : s.leafCount < d.newLeafCount
  blobCount : d.blobVersionedHashes.length = (d.newLeafCount - s.leafCount + 4095) / 4096
  openingCount : openings.length = (d.newLeafCount - s.leafCount + 4095) / 4096
  blobHashes : ∀ j < openings.length, d.blobVersionedHashes[j]? = some (msg.blobhash j)
  noExtraBlob : msg.blobhash openings.length = zeroHash
  subtreeCount : ∃ heights, MMR.decompose s.leafCount (d.newLeafCount - s.leafCount) = .ok heights ∧
    d.newSubtreePeaks.length = heights.length ∧
    ∃ newPeaks n1, MMR.applyUpdate keccak256 s.peaks s.leafCount d.newSubtreePeaks heights =
      .ok (newPeaks, n1) ∧ out.storage.peaks = newPeaks ∧ out.storage.leafCount = n1 ∧
      out.events = [.declared d.nonce n1 d.blobVersionedHashes d.newSubtreePeaks d.appPointer
        msg.sender]
  opened : ∀ j < openings.length, ∃ vh o, d.blobVersionedHashes[j]? = some vh ∧
    openings[j]? = some o ∧
    msg.pointEvaluation (openingInput vh (reduceModulus (fsPreimageHash keccak256 dep
      d.blobVersionedHashes s.peaks d.newSubtreePeaks s.leafCount d.newLeafCount)) o) = true
  proven : msg.verifyProof equivalenceVkey (equivalencePublicValues (fsPreimageHash keccak256 dep
    d.blobVersionedHashes s.peaks d.newSubtreePeaks s.leafCount d.newLeafCount) openings)
    equivalenceProof = true
  nextNonce : out.storage.declarationNonce = s.declarationNonce + 1
  nonceFits : s.declarationNonce + 1 < 2 ^ 64
  otherNonces : out.storage.appPointerNonce = s.appPointerNonce ∧
    out.storage.successorNonce = s.successorNonce ∧ out.storage.successor = s.successor
  checkpointed : s.activityCheckpointLeafCount ≤ out.storage.leafCount
  activity : (out.storage.activityCheckpointTime, out.storage.activityCheckpointLeafCount) =
    if out.storage.leafCount - s.activityCheckpointLeafCount ≥ dep.params.dormancyMinChunks then
      (block.timestamp % 2 ^ 64, out.storage.leafCount)
    else (s.activityCheckpointTime, s.activityCheckpointLeafCount)

/-- The fields that publication never writes. -/
structure Storage.SameProviders (s next : Storage) : Prop where
  nextProviderId : next.nextProviderId = s.nextProviderId
  providers : next.providers = s.providers
  nextChallengeId : next.nextChallengeId = s.nextChallengeId
  challengeRecords : next.challengeRecords = s.challengeRecords
  sink : next.sink = s.sink

variable {keccak256 dep block msg}

theorem declareFor_accepted {s : Storage} {d : Declaration} {publisherSig : ByteString}
    {openings : List BlobOpening} {equivalenceProof : ByteString} {out : Outcome}
    (hok : declareFor keccak256 dep block msg s d publisherSig openings equivalenceProof = .ok out) :
    DeclareAccepted keccak256 dep block msg s d publisherSig openings equivalenceProof out ∧
      s.SameProviders out.storage ∧ out.absorbed = none ∧ out.payments = [] ∧
      ∃ amount, out.tail = .reimburse msg.sender amount true := by
  simp only [declareFor, bind_eq_ok, revertIf_eq_ok, orPanic_eq_ok, checkedSub_eq_ok,
    checkedAdd_eq_ok, pure_eq_ok, Bool.not_eq_true, not_lt, not_not, not_or, not_and,
    Prod.exists] at hok
  obtain ⟨_, hidle, _, htime, _, hnonce, _, hcarrier, _, hsig, _, hgrows, m, ⟨_, rfl⟩, _,
    ⟨hblobs, hopenings⟩, _, hhashes, _, hextra, heights, hheights, _, hsubtrees, _, hopened, _,
    hproven, newPeaks, n1, happly, nonce, ⟨hfits, rfl⟩, grown, ⟨hgrown, rfl⟩, amount, _, rfl⟩ := hok
  refine ⟨⟨hidle, htime, hnonce, ?_, hsig, by omega, hblobs, hopenings, ?_, ?_, ?_, ?_, ?_, ?_, ?_,
    ⟨rfl, rfl, rfl⟩, hgrown, ?_⟩, ⟨rfl, rfl, rfl, rfl, rfl⟩, rfl, rfl, amount, rfl⟩
  · by_cases hzero : d.designatedCarrier = zeroAddress
    · exact Or.inl hzero
    · exact Or.inr (hcarrier hzero)
  · intro j hj
    have hequal := checkBlobHashes_eq_ok msg hhashes j (by omega)
    rwa [Nat.zero_add] at hequal
  · rw [hopenings]
    exact hextra
  · exact ⟨heights, hheights, hsubtrees, newPeaks, n1, happly, rfl, rfl, rfl⟩
  · intro j hj
    have hopen := checkOpenings_eq_ok msg hopened j (by omega)
    rwa [Nat.zero_add] at hopen
  · simpa using hproven
  · change d.nonce + 1 = s.declarationNonce + 1
    rw [hnonce]
  · rw [← hnonce]
    exact hfits
  · simp only
    split
    · rfl
    · rfl

/-- The outcome of an accepted declaration. -/
def declareOutcome (dep : Deployment) (block : Block) (msg : Msg) (s : Storage) (d : Declaration)
    (newPeaks : List Hash) (n1 amount : Nat) : Outcome :=
  let active := n1 - s.activityCheckpointLeafCount ≥ dep.params.dormancyMinChunks
  ⟨{ s with
      peaks := newPeaks
      leafCount := n1
      declarationNonce := d.nonce + 1
      appPointer := if d.appPointer ≠ zeroHash then d.appPointer else s.appPointer
      activityCheckpointTime :=
        if active then block.timestamp % 2 ^ 64 else s.activityCheckpointTime
      activityCheckpointLeafCount := if active then n1 else s.activityCheckpointLeafCount
      entered := true },
    [.declared d.nonce n1 d.blobVersionedHashes d.newSubtreePeaks d.appPointer msg.sender],
    none, [], .reimburse msg.sender amount true⟩

/-- A declaration that passes every check is accepted. -/
theorem declareFor_ok {s : Storage} {d : Declaration} {publisherSig : ByteString}
    {openings : List BlobOpening} {equivalenceProof : ByteString} {m n1 amount : Nat}
    {heights : List Nat} {newPeaks : List Hash}
    (hidle : s.entered = false) (htime : block.timestamp ≤ d.deadline)
    (hnonce : d.nonce = s.declarationNonce)
    (hcarrier : d.designatedCarrier = zeroAddress ∨ d.designatedCarrier = msg.sender)
    (hsig : requireValidSignature msg (declarationDigest keccak256 dep block d) publisherSig = .ok ())
    (hm : d.newLeafCount = s.leafCount + m) (hpos : 0 < m)
    (hblobs : d.blobVersionedHashes.length = (m + 4095) / 4096)
    (hopenings : openings.length = (m + 4095) / 4096)
    (hhashes : checkBlobHashes msg d.blobVersionedHashes ((m + 4095) / 4096) 0 = .ok ())
    (hextra : msg.blobhash ((m + 4095) / 4096) = zeroHash)
    (hheights : MMR.decompose s.leafCount m = .ok heights)
    (hsubtrees : d.newSubtreePeaks.length = heights.length)
    (hopened : checkOpenings msg d.blobVersionedHashes (reduceModulus (fsPreimageHash keccak256 dep
      d.blobVersionedHashes s.peaks d.newSubtreePeaks s.leafCount d.newLeafCount)) openings
      ((m + 4095) / 4096) 0 = .ok ())
    (hproven : msg.verifyProof equivalenceVkey (equivalencePublicValues (fsPreimageHash keccak256 dep
      d.blobVersionedHashes s.peaks d.newSubtreePeaks s.leafCount d.newLeafCount) openings)
      equivalenceProof = true)
    (happly : MMR.applyUpdate keccak256 s.peaks s.leafCount d.newSubtreePeaks heights =
      .ok (newPeaks, n1))
    (hnext : d.nonce + 1 < 2 ^ 64) (hgrown : s.activityCheckpointLeafCount ≤ n1)
    (hamount : reimbursement dep block msg ((m + 4095) / 4096) true = .ok amount) :
    declareFor keccak256 dep block msg s d publisherSig openings equivalenceProof =
      .ok (declareOutcome dep block msg s d newPeaks n1 amount) := by
  have hcarrier' : ¬(d.designatedCarrier ≠ zeroAddress ∧ d.designatedCarrier ≠ msg.sender) := by
    rintro ⟨hnotZero, hnotSender⟩
    rcases hcarrier with hzero | hsender
    · exact hnotZero hzero
    · exact hnotSender hsender
  have hcounts : ¬(d.blobVersionedHashes.length ≠ (m + 4095) / 4096 ∨
      openings.length ≠ (m + 4095) / 4096) := by
    rintro (hne | hne)
    · exact hne hblobs
    · exact hne hopenings
  have hgrows : ¬d.newLeafCount ≤ s.leafCount := by omega
  have hsub : checkedSub d.newLeafCount s.leafCount = .ok m := by
    rw [checkedSub_ok (by omega), hm, Nat.add_sub_cancel_left]
  have hidle' : ¬s.entered = true := by
    rw [hidle]
    exact Bool.false_ne_true
  have hproven' : ¬msg.verifyProof equivalenceVkey (equivalencePublicValues (fsPreimageHash keccak256
      dep d.blobVersionedHashes s.peaks d.newSubtreePeaks s.leafCount d.newLeafCount) openings)
      equivalenceProof = false := by
    rw [hproven]
    exact Bool.true_eq_false.mp
  unfold declareFor
  refine bind_eq_ok.mpr ⟨(), revertIf_ok hidle', ?_⟩
  refine bind_eq_ok.mpr ⟨(), revertIf_ok (not_lt.mpr htime), ?_⟩
  refine bind_eq_ok.mpr ⟨(), revertIf_ok (not_not_intro hnonce), ?_⟩
  refine bind_eq_ok.mpr ⟨(), revertIf_ok hcarrier', ?_⟩
  refine bind_eq_ok.mpr ⟨(), hsig, ?_⟩
  refine bind_eq_ok.mpr ⟨(), revertIf_ok hgrows, ?_⟩
  refine bind_eq_ok.mpr ⟨m, orPanic_eq_ok.mpr hsub, ?_⟩
  refine bind_eq_ok.mpr ⟨(), revertIf_ok hcounts, ?_⟩
  refine bind_eq_ok.mpr ⟨(), hhashes, ?_⟩
  refine bind_eq_ok.mpr ⟨(), revertIf_ok (not_not_intro hextra), ?_⟩
  refine bind_eq_ok.mpr ⟨heights, orPanic_eq_ok.mpr hheights, ?_⟩
  refine bind_eq_ok.mpr ⟨(), revertIf_ok (not_not_intro hsubtrees), ?_⟩
  refine bind_eq_ok.mpr ⟨(), hopened, ?_⟩
  refine bind_eq_ok.mpr ⟨(), revertIf_ok hproven', ?_⟩
  refine bind_eq_ok.mpr ⟨(newPeaks, n1), orPanic_eq_ok.mpr happly, ?_⟩
  refine bind_eq_ok.mpr ⟨d.nonce + 1, orPanic_eq_ok.mpr (checkedAdd_ok hnext), ?_⟩
  refine bind_eq_ok.mpr ⟨n1 - s.activityCheckpointLeafCount,
    orPanic_eq_ok.mpr (checkedSub_ok hgrown), ?_⟩
  exact bind_eq_ok.mpr ⟨amount, orPanic_eq_ok.mpr hamount, rfl⟩

/-- A pointer call leaves everything but its pointer, its nonce and the latch; the
successor is set once. -/
structure PointerAccepted (msg : Msg) (s : Storage) (out : Outcome) : Prop where
  idle : s.entered = false
  same : s.SameProviders out.storage
  leafCount : out.storage.leafCount = s.leafCount
  peaks : out.storage.peaks = s.peaks
  declarationNonce : out.storage.declarationNonce = s.declarationNonce
  activity : out.storage.activityCheckpointTime = s.activityCheckpointTime ∧
    out.storage.activityCheckpointLeafCount = s.activityCheckpointLeafCount
  intent : (∃ pointer, out.events = [.appPointerSet s.appPointerNonce pointer] ∧
      out.storage.appPointerNonce = s.appPointerNonce + 1 ∧
      out.storage.successorNonce = s.successorNonce ∧ out.storage.successor = s.successor) ∨
    ∃ target, out.events = [.successorSet target] ∧
      out.storage.appPointerNonce = s.appPointerNonce ∧
      out.storage.successorNonce = s.successorNonce + 1 ∧ s.successor = zeroAddress ∧
      target ≠ zeroAddress ∧ out.storage.successor = target
  absorbed : out.absorbed = none
  payments : out.payments = []
  tail : ∃ amount, out.tail = .reimburse msg.sender amount false

theorem PointerAccepted.events {s : Storage} {out : Outcome} (haccepted : PointerAccepted msg s out) :
    (∃ nonce pointer, out.events = [.appPointerSet nonce pointer]) ∨
      ∃ target, out.events = [.successorSet target] := by
  rcases haccepted.intent with ⟨pointer, hevents, _⟩ | ⟨target, hevents, _⟩
  · exact Or.inl ⟨_, pointer, hevents⟩
  · exact Or.inr ⟨target, hevents⟩

theorem setAppPointer_accepted {s : Storage} {nonce deadline : Nat} {pointer : Hash}
    {sig : ByteString} {out : Outcome}
    (hok : setAppPointer keccak256 dep block msg s nonce deadline pointer sig = .ok out) :
    PointerAccepted msg s out := by
  simp only [setAppPointer, bind_eq_ok, revertIf_eq_ok, orPanic_eq_ok, checkedAdd_eq_ok,
    pure_eq_ok, Bool.not_eq_true] at hok
  obtain ⟨_, hidle, _, _, _, hnonce, _, _, _, ⟨_, rfl⟩, amount, _, rfl⟩ := hok
  obtain rfl := not_not.mp hnonce
  exact ⟨hidle, ⟨rfl, rfl, rfl, rfl, rfl⟩, rfl, rfl, rfl, ⟨rfl, rfl⟩,
    Or.inl ⟨pointer, rfl, rfl, rfl, rfl⟩, rfl, rfl, _, rfl⟩

theorem setSuccessor_accepted {s : Storage} {nonce deadline : Nat} {target : Address}
    {sig : ByteString} {out : Outcome}
    (hok : setSuccessor keccak256 dep block msg s nonce deadline target sig = .ok out) :
    PointerAccepted msg s out := by
  simp only [setSuccessor, bind_eq_ok, revertIf_eq_ok, orPanic_eq_ok, checkedAdd_eq_ok,
    pure_eq_ok, Bool.not_eq_true] at hok
  obtain ⟨_, hidle, _, _, _, hnonce, _, _, _, hfree, _, htarget, _, ⟨_, rfl⟩, amount, _, rfl⟩ := hok
  obtain rfl := not_not.mp hnonce
  exact ⟨hidle, ⟨rfl, rfl, rfl, rfl, rfl⟩, rfl, rfl, rfl, ⟨rfl, rfl⟩,
    Or.inr ⟨target, rfl, rfl, rfl, not_not.mp hfree, htarget, rfl⟩, rfl, rfl, _, rfl⟩

end

end Blobsitter.Contract
