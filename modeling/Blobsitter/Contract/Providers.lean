import Blobsitter.Contract.Publication
import Blobsitter.Contract.Paymaster

/-!
# Providers, custody proofs and challenges

The entry points that move stakes and bonds.  Each is translated with its guards in
source order; `Change` then says once what every accepted call has checked and what it
left behind, and all later invariants are proved from that.
-/

namespace Blobsitter.Contract

open Library
open Reference (Chunk Hash Address)

section

variable (keccak256 : ByteString → Hash) (dep : Deployment) (block : Block) (msg : Msg)

/-- `_provider`: the record of an assigned id. -/
def provider (s : Storage) (providerId : Nat) : Except Revert Provider := do
  let p := s.providers providerId
  revertIf (p.status = .none) (.unknownProvider providerId)
  return p

/-- `_challenge`: the record of an opened challenge. -/
def challengeRecord (s : Storage) (challengeId : Nat) : Except Revert Challenge := do
  let c := s.challengeRecords challengeId
  revertIf (c.challenger = zeroAddress) (.unknownChallenge challengeId)
  return c

def stake (s : Storage) (operator withdrawal : Address) : Except Revert Outcome := do
  revertIf (msg.value ≠ dep.params.stakeWei) (.wrongStakeAmount dep.params.stakeWei)
  revertIf (operator = zeroAddress ∨ withdrawal = zeroAddress) .zeroAddress
  let next ← (checkedAdd 64 s.nextProviderId 1).orPanic
  return .plain { s.setProvider s.nextProviderId { s.providers s.nextProviderId with
      operator := operator
      withdrawal := withdrawal
      status := .active
      anchor := block.timestamp % 2 ^ 64 } with nextProviderId := next }
    [.staked s.nextProviderId operator withdrawal]

def initiateUnbonding (s : Storage) (providerId : Nat) : Except Revert Outcome := do
  let p ← provider s providerId
  revertIf (msg.sender ≠ p.operator) (.notOperator providerId)
  revertIf (p.status ≠ .active) (.notActive providerId)
  let exitRoot := MMR.bagRoot keccak256 s.leafCount s.peaks
  return .plain (s.setProvider providerId { p.voidCommit with
      status := .unbonding
      unbondingAt := block.timestamp % 2 ^ 64
      exitRoot := exitRoot
      exitLeafCount := s.leafCount })
    [.unbondingInitiated providerId exitRoot s.leafCount]

def withdraw (s : Storage) (providerId : Nat) : Except Revert Outcome := do
  let p ← provider s providerId
  revertIf (p.status ≠ .unbonding) (.notUnbonding providerId)
  let until_ ← (checkedAdd 64 p.unbondingAt dep.params.unbondingDelay).orPanic
  revertIf (block.timestamp < until_) (.unbondingDelayActive until_)
  revertIf (p.openChallenges ≠ 0) (.openChallengesRemain p.openChallenges)
  return ⟨s.setProvider providerId { p with status := .exited }, [.withdrawn providerId], none,
    [.stakeReturned providerId p.withdrawal dep.params.stakeWei],
    .payout p.withdrawal dep.params.stakeWei⟩

def custodyPeriodIndex (s : Storage) (providerId : Nat) : Except Revert Nat := do
  let p ← provider s providerId
  let elapsed ← (checkedSub block.timestamp p.anchor).orPanic
  let period ← (checkedDiv elapsed dep.params.custodyPeriod).orPanic
  return period % 2 ^ 64

def custodyIndex (seed : Hash) (providerId j leafCount : Nat) : Checked Nat := do
  let index ← checkedMod (wordNat (keccak256 ([0x04] ++ dep.self.toList ++ seed.toList ++
    beBytes 8 providerId ++ beBytes 8 j))) leafCount
  return index % 2 ^ 64

def beginProof (s : Storage) (providerId : Nat) : Except Revert Outcome := do
  let p ← provider s providerId
  revertIf (msg.sender ≠ p.operator) (.notOperator providerId)
  revertIf (p.status ≠ .active) (.notActive providerId)
  let period ← custodyPeriodIndex dep block s providerId
  revertIf (p.commitPeriodPlusOne ≠ 0 ∧ p.commitPeriodPlusOne - 1 = period)
    (.alreadyCommitted period)
  let periodPlusOne ← (checkedAdd 64 period 1).orPanic
  let root := MMR.bagRoot keccak256 s.leafCount s.peaks
  return .plain (s.setProvider providerId { p with
      commitPeriodPlusOne := periodPlusOne
      commitSeed := block.prevrandao
      commitRoot := root
      commitLeafCount := s.leafCount })
    [.custodyCommitted providerId period block.prevrandao root s.leafCount]

/-- `_submitGuards`: the current period, which must be the committed one. -/
def submitGuards (s : Storage) (p : Provider) (providerId : Nat) : Except Revert Nat := do
  revertIf (msg.sender ≠ p.operator) (.notOperator providerId)
  revertIf (p.status ≠ .active) (.notActive providerId)
  revertIf (p.commitPeriodPlusOne = 0) .noCommit
  let committed := p.commitPeriodPlusOne - 1
  let current ← custodyPeriodIndex dep block s providerId
  revertIf (committed ≠ current) (.commitFromEarlierPeriod committed current)
  return current

/-- `_acceptProof`: marks the period proven and voids the commit. -/
def acceptProof (s : Storage) (p : Provider) (providerId period : Nat) (degraded : Bool) :
    Except Revert Outcome := do
  let periodPlusOne ← (checkedAdd 64 period 1).orPanic
  return .plain (s.setProvider providerId { p.voidCommit with
      lastProvenPlusOne := periodPlusOne
      lastDegraded := degraded })
    [.custodyProven providerId period degraded]

def custodyVkey : Hash :=
  beWord 32 0x00519b27817c44dfdf576169fab4e5f3af1b40a16ab5b28cdb854bd6e8b4e91c

def encodeCustodyPublicValues (providerId : Nat) (seed root : Hash) (leafCount k : Nat) :
    ByteString :=
  dep.self.toList ++ beBytes 8 providerId ++ seed.toList ++ root.toList ++ beBytes 8 leafCount ++
    beBytes 8 k

def submitProof (s : Storage) (providerId : Nat) (proof : ByteString) : Except Revert Outcome := do
  let p ← provider s providerId
  let period ← submitGuards dep block msg s p providerId
  let pv := encodeCustodyPublicValues dep providerId p.commitSeed p.commitRoot p.commitLeafCount
    dep.params.custodyK
  revertIf (msg.verifyProof custodyVkey pv proof = false) .invalidCustodyProof
  acceptProof s p providerId period false

/-- The reveal loop, from ordinal `j` on. -/
def checkReveals (seed : Hash) (providerId n : Nat) (peaks : List Hash) :
    List ChunkProof → Nat → Except Revert Unit
  | [], _ => .ok ()
  | reveal :: rest, j => do
      let idx ← (custodyIndex keccak256 dep seed providerId j n).orPanic
      let accepted ← (MMR.verify keccak256 reveal.chunk idx reveal.path n peaks).orPanic
      revertIf (accepted = false) (.invalidInclusionProof j)
      checkReveals seed providerId n peaks rest (j + 1)

def submitProofEscape (s : Storage) (providerId n : Nat) (pinnedPeaks : List Hash)
    (reveals : List ChunkProof) : Except Revert Outcome := do
  let p ← provider s providerId
  let period ← submitGuards dep block msg s p providerId
  revertIf (n ≠ p.commitLeafCount ∨ MMR.bagRoot keccak256 n pinnedPeaks ≠ p.commitRoot)
    .pinMismatch
  let required := if n = 0 then 0 else dep.params.maxSample
  revertIf (reveals.length ≠ required) (.proofCountMismatch required)
  checkReveals keccak256 dep p.commitSeed providerId n pinnedPeaks reveals 0
  acceptProof s p providerId period true

/-! ## Lapse -/

/-- `_lapseTimes`: products of 64-bit values, which 256-bit arithmetic holds exactly. -/
def lapseTimes (p : Provider) : Nat × Nat :=
  let eligibleAt := p.anchor + (p.lastProvenPlusOne + 2) * dep.params.custodyPeriod
  (eligibleAt, eligibleAt + dep.params.lapseGrace)

/-- The bounty of a slash and the remainder for the paymaster. -/
def slashSplit : Checked (Nat × Nat) := do
  let product ← checkedMul 256 dep.params.stakeWei dep.params.bountyBps
  let bounty := product / 10000
  let remainder ← checkedSub dep.params.stakeWei bounty
  return (bounty, remainder)

/-- The derived custody health of a provider, `none` for one that is not active. -/
inductive CustodyStatus where
  | none
  | current
  | stale
  | lapseEligible
  | lapsable
  deriving DecidableEq, Repr

def custodyStatus (s : Storage) (providerId : Nat) : Except Revert CustodyStatus :=
  let p := s.providers providerId
  if p.status ≠ .active then .ok .none
  else do
    let elapsed ← (checkedSub block.timestamp p.anchor).orPanic
    let quotient ← (checkedDiv elapsed dep.params.custodyPeriod).orPanic
    let periodPlusOne ← (checkedAdd 64 (quotient % 2 ^ 64) 1).orPanic
    let covered ← (checkedAdd 64 p.lastProvenPlusOne 1).orPanic
    if periodPlusOne ≤ covered then return .current
    let missed ← (checkedAdd 64 p.lastProvenPlusOne 2).orPanic
    if periodPlusOne = missed then return .stale
    if block.timestamp < (lapseTimes dep p).2 then return .lapseEligible
    return .lapsable

def lapse (s : Storage) (providerId : Nat) : Except Revert Outcome := do
  let p ← provider s providerId
  revertIf (p.status ≠ .active) (.notActive providerId)
  revertIf (block.timestamp < (lapseTimes dep p).1) (.notLapsable 0)
  revertIf (block.timestamp < (lapseTimes dep p).2) (.notLapsable ((lapseTimes dep p).2 % 2 ^ 64))
  let (bounty, remainder) ← (slashSplit dep).orPanic
  return ⟨s.setProvider providerId { p with status := .slashed },
    [.slashed providerId .lapse msg.sender], some remainder,
    [.stakeSlashed providerId msg.sender bounty remainder], .payout msg.sender bounty⟩

/-- The pin of a new challenge: the current state for an active provider, the exit
snapshot for one inside its unbonding window. -/
def challengePin (s : Storage) (p : Provider) : Except Revert (Hash × Nat) :=
  if p.status = .active then .ok (MMR.bagRoot keccak256 s.leafCount s.peaks, s.leafCount)
  else if p.status = .unbonding then do
    let until_ ← (checkedAdd 64 p.unbondingAt dep.params.unbondingDelay).orPanic
    revertIf (¬block.timestamp < until_) .challengeWindowClosed
    return (p.exitRoot, p.exitLeafCount)
  else .error .challengeWindowClosed

def checkIndices (leafCount : Nat) : List Nat → Except Revert Unit
  | [] => .ok ()
  | index :: rest => do
      revertIf (index ≥ leafCount) (.indexOutOfRange index leafCount)
      checkIndices leafCount rest

/-- `abi.encodePacked` of `uint64[]`: array elements are padded to words. -/
def packIndices (indices : List Nat) : ByteString := packWords (indices.map (beWord 32))

def requiredBond (count : Nat) : Checked Nat := do
  let chunkGas ← checkedMul 256 count 38680
  let gas ← checkedAdd 256 chunkGas 21000
  let scaled ← checkedMul 256 3 gas
  checkedMul 256 scaled block.basefee

def challenge (s : Storage) (providerId : Nat) (indices : List Nat) : Except Revert Outcome := do
  let p ← provider s providerId
  let (pinnedRoot, pinnedLeafCount) ← challengePin keccak256 dep block s p
  revertIf (indices.length = 0) .noIndices
  revertIf (indices.length > dep.params.maxSample) (.tooManyIndices dep.params.maxSample)
  checkIndices pinnedLeafCount indices
  let required ← (requiredBond block indices.length).orPanic
  revertIf (msg.value < required) (.bondTooSmall required)
  let next ← (checkedAdd 64 s.nextChallengeId 1).orPanic
  let open_ ← (checkedAdd 32 p.openChallenges 1).orPanic
  let deadline ← (checkedAdd 64 (block.timestamp % 2 ^ 64) dep.params.responseWindow).orPanic
  return .plain { (s.setChallenge s.nextChallengeId {
        providerId := providerId
        challenger := msg.sender
        bond := msg.value
        openedAt := block.timestamp % 2 ^ 64
        pinnedRoot := pinnedRoot
        pinnedLeafCount := pinnedLeafCount
        indicesHash := keccak256 (packIndices indices)
        k := indices.length % 2 ^ 16
        resolved := (s.challengeRecords s.nextChallengeId).resolved }).setProvider providerId
          { p with openChallenges := open_ } with nextChallengeId := next }
    [.challengeOpened s.nextChallengeId providerId indices msg.value pinnedRoot pinnedLeafCount
      deadline]

/-- The proof loop of `respond`, from position `j` on. -/
def checkProofs (indices : List Nat) (n : Nat) (peaks : List Hash) :
    List ChunkProof → Nat → Except Revert Unit
  | [], _ => .ok ()
  | proof :: rest, j => do
      let index ← (load indices j).orPanic
      let accepted ← (MMR.verify keccak256 proof.chunk index proof.path n peaks).orPanic
      revertIf (accepted = false) (.invalidInclusionProof j)
      checkProofs indices n peaks rest (j + 1)

def respond (s : Storage) (challengeId : Nat) (indices : List Nat) (n : Nat)
    (pinnedPeaks : List Hash) (proofs : List ChunkProof) : Except Revert Outcome := do
  let c ← challengeRecord s challengeId
  let p := s.providers c.providerId
  revertIf (msg.sender ≠ p.operator) (.notOperator c.providerId)
  let deadline ← (checkedAdd 64 c.openedAt dep.params.responseWindow).orPanic
  revertIf (block.timestamp ≥ deadline) (.responseWindowClosed deadline)
  revertIf (c.resolved = true) (.alreadyResolved challengeId)
  revertIf (p.status = .slashed) (.providerSlashed c.providerId)
  revertIf (proofs.length ≠ c.k) (.proofCountMismatch c.k)
  revertIf (keccak256 (packIndices indices) ≠ c.indicesHash) .indicesMismatch
  revertIf (n ≠ c.pinnedLeafCount ∨ MMR.bagRoot keccak256 n pinnedPeaks ≠ c.pinnedRoot)
    .pinMismatch
  checkProofs keccak256 indices n pinnedPeaks proofs 0
  let open_ ← (checkedSub p.openChallenges 1).orPanic
  return ⟨(s.setChallenge challengeId { c with resolved := true }).setProvider c.providerId
      { p with openChallenges := open_ },
    [.challengeAnswered challengeId], none,
    [.bondToOperator challengeId p.operator c.bond], .payout p.operator c.bond⟩

def resolveTimeout (s : Storage) (challengeId : Nat) : Except Revert Outcome := do
  let c ← challengeRecord s challengeId
  revertIf (c.resolved = true) (.alreadyResolved challengeId)
  let deadline ← (checkedAdd 64 c.openedAt dep.params.responseWindow).orPanic
  revertIf (block.timestamp < deadline) (.responseWindowStillOpen deadline)
  let p := s.providers c.providerId
  let open_ ← (checkedSub p.openChallenges 1).orPanic
  if p.status ≠ .slashed then
    let (bounty, remainder) ← (slashSplit dep).orPanic
    let refund ← (checkedAdd 256 bounty c.bond).orPanic
    return ⟨(s.setChallenge challengeId { c with resolved := true }).setProvider c.providerId
        { p with openChallenges := open_, status := .slashed },
      [.slashed c.providerId .challengeTimeout msg.sender, .challengeTimedOut challengeId],
      some remainder,
      [.stakeSlashed c.providerId c.challenger bounty remainder,
        .bondToChallenger challengeId c.challenger c.bond],
      .payout c.challenger refund⟩
  else
    return ⟨(s.setChallenge challengeId { c with resolved := true }).setProvider c.providerId
        { p with openChallenges := open_ },
      [.challengeRefunded challengeId], none,
      [.bondToChallenger challengeId c.challenger c.bond], .payout c.challenger c.bond⟩

def claim (s : Storage) : Except Revert Outcome := do
  let (sink, amount) ← s.sink.claim msg.sender
  return ⟨{ s with sink := sink }, [], none, [], .claim msg.sender amount⟩

/-- One call to the instance, up to its final external call. -/
def dispatch (s : Storage) (call : Call) : Except Revert Outcome := do
  revertIf (call.inRange = false ∨ call.payable = false ∧ msg.value ≠ 0) .badCall
  match call with
  | .declareFor d publisherSig openings equivalenceProof =>
      declareFor keccak256 dep block msg s d publisherSig openings equivalenceProof
  | .setAppPointer nonce deadline pointer sig =>
      setAppPointer keccak256 dep block msg s nonce deadline pointer sig
  | .setSuccessor nonce deadline target sig =>
      setSuccessor keccak256 dep block msg s nonce deadline target sig
  | .stake operator withdrawal => stake dep block msg s operator withdrawal
  | .initiateUnbonding providerId => initiateUnbonding keccak256 block msg s providerId
  | .withdraw providerId => withdraw dep block s providerId
  | .announce url => .ok (.plain s [.announced url])
  | .retract => .ok (.plain s [.retracted])
  | .beginProof providerId => beginProof keccak256 dep block msg s providerId
  | .submitProof providerId proof => submitProof dep block msg s providerId proof
  | .submitProofEscape providerId n pinnedPeaks reveals =>
      submitProofEscape keccak256 dep block msg s providerId n pinnedPeaks reveals
  | .lapse providerId => lapse dep block msg s providerId
  | .challenge providerId indices => challenge keccak256 dep block msg s providerId indices
  | .respond challengeId indices n pinnedPeaks proofs =>
      respond keccak256 dep block msg s challengeId indices n pinnedPeaks proofs
  | .resolveTimeout challengeId => resolveTimeout dep block msg s challengeId
  | .claim => claim msg s

end

end Blobsitter.Contract
