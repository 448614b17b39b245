import Blobsitter.Contract.Mmr
import Blobsitter.Library.FiniteSums

/-!
# State, calls and outcomes of the instance

The storage records of the contracts, what a call can read from its transaction and
block, the ways it can revert, and what it leaves behind when it does not.
-/

namespace Blobsitter.Contract

open Library
open Reference (Chunk Hash Address)

def zeroHash : Hash := Vector.replicate 32 0
def zeroAddress : Address := Vector.replicate 20 0

/-- Constructor parameters. -/
structure Params where
  publisher : Address
  stakeWei : Nat
  responseWindow : Nat
  unbondingDelay : Nat
  custodyPeriod : Nat
  lapseGrace : Nat
  custodyK : Nat
  maxSample : Nat
  bountyBps : Nat
  carrierTipWei : Nat
  provingSubsidyWei : Nat
  bucketRateWeiPerDay : Nat
  bucketCapWei : Nat
  dormancyWindow : Nat
  dormancyMinChunks : Nat

/-- The parameters fit their Solidity types. -/
structure Params.InRange (p : Params) : Prop where
  stakeWei : p.stakeWei < 2 ^ 256
  responseWindow : p.responseWindow < 2 ^ 64
  unbondingDelay : p.unbondingDelay < 2 ^ 64
  custodyPeriod : p.custodyPeriod < 2 ^ 64
  lapseGrace : p.lapseGrace < 2 ^ 64
  custodyK : p.custodyK < 2 ^ 32
  maxSample : p.maxSample < 2 ^ 16
  bountyBps : p.bountyBps < 2 ^ 16
  carrierTipWei : p.carrierTipWei < 2 ^ 256
  provingSubsidyWei : p.provingSubsidyWei < 2 ^ 256
  bucketRateWeiPerDay : p.bucketRateWeiPerDay < 2 ^ 256
  bucketCapWei : p.bucketCapWei < 2 ^ 256
  dormancyWindow : p.dormancyWindow < 2 ^ 64
  dormancyMinChunks : p.dormancyMinChunks < 2 ^ 64

/-- An instance with its paymaster, at their addresses. -/
structure Deployment where
  params : Params
  self : Address
  paymaster : Address
  inRange : params.InRange
  self_ne_paymaster : self ≠ paymaster

/-- The values a call reads from its block; block times are 64-bit on chain. -/
structure Block where
  timestamp : Nat
  basefee : Nat
  blobbasefee : Nat
  prevrandao : Hash
  chainid : Nat
  timestamp_lt : timestamp < 2 ^ 64

/-- What a call reads from its transaction, and the answers it gets from outside: the
wallet, the verifier, the precompile, the gas it used, and whether the paymaster call
ran out of gas. -/
structure Msg where
  sender : Address
  value : Nat
  blobHashes : List Hash
  dataLength : Nat
  gasUsed : Nat
  starved : Bool
  wallet : Hash → ByteString → Option ByteString
  verifyProof : Hash → ByteString → ByteString → Bool
  pointEvaluation : ByteString → Bool

/-- `blobhash(j)`: zero past the transaction's blobs. -/
def Msg.blobhash (msg : Msg) (j : Nat) : Hash := msg.blobHashes.getD j zeroHash

inductive ProviderStatus where
  | none
  | active
  | unbonding
  | exited
  | slashed
  deriving DecidableEq, Repr

structure Provider where
  operator : Address
  withdrawal : Address
  status : ProviderStatus
  anchor : Nat
  /-- The last proven period plus one; zero encodes none yet. -/
  lastProvenPlusOne : Nat
  lastDegraded : Bool
  /-- Period of the pending custody commit plus one; zero encodes none. -/
  commitPeriodPlusOne : Nat
  commitSeed : Hash
  commitRoot : Hash
  commitLeafCount : Nat
  unbondingAt : Nat
  exitRoot : Hash
  exitLeafCount : Nat
  openChallenges : Nat

def Provider.empty : Provider where
  operator := zeroAddress
  withdrawal := zeroAddress
  status := .none
  anchor := 0
  lastProvenPlusOne := 0
  lastDegraded := false
  commitPeriodPlusOne := 0
  commitSeed := zeroHash
  commitRoot := zeroHash
  commitLeafCount := 0
  unbondingAt := 0
  exitRoot := zeroHash
  exitLeafCount := 0
  openChallenges := 0

/-- The void commit fields after an accepted proof or the start of unbonding. -/
def Provider.voidCommit (p : Provider) : Provider :=
  { p with
    commitPeriodPlusOne := 0
    commitSeed := zeroHash
    commitRoot := zeroHash
    commitLeafCount := 0 }

structure Challenge where
  providerId : Nat
  challenger : Address
  bond : Nat
  openedAt : Nat
  pinnedRoot : Hash
  pinnedLeafCount : Nat
  indicesHash : Hash
  k : Nat
  resolved : Bool

def Challenge.empty : Challenge where
  providerId := 0
  challenger := zeroAddress
  bond := 0
  openedAt := 0
  pinnedRoot := zeroHash
  pinnedLeafCount := 0
  indicesHash := zeroHash
  k := 0
  resolved := false

/-- `PayoutSink`: balances that a failed push parked, and their sum. -/
structure PayoutSink where
  claimable : Address → Nat
  totalClaimable : Nat

/-- Storage of the instance; `entered` is the transient publication latch. -/
structure Storage where
  leafCount : Nat
  peaks : List Hash
  declarationNonce : Nat
  appPointerNonce : Nat
  successorNonce : Nat
  appPointer : Hash
  successor : Address
  activityCheckpointTime : Nat
  activityCheckpointLeafCount : Nat
  nextProviderId : Nat
  providers : Nat → Provider
  nextChallengeId : Nat
  challengeRecords : Nat → Challenge
  sink : PayoutSink
  entered : Bool

def Storage.setProvider (s : Storage) (id : Nat) (p : Provider) : Storage :=
  { s with providers := Function.update s.providers id p }

def Storage.setChallenge (s : Storage) (id : Nat) (c : Challenge) : Storage :=
  { s with challengeRecords := Function.update s.challengeRecords id c }

/-! ## Reverts, events and calls -/

inductive Revert where
  | badSignature
  | wrongNonce (expected : Nat)
  | intentExpired (deadline : Nat)
  | notDesignatedCarrier (want : Address)
  | zeroAddress
  | reentered
  | emptyUpdate
  | blobCountMismatch (expected : Nat)
  | blobHashMismatch (index : Nat)
  | unexpectedExtraBlob
  | subtreeCountMismatch (expected : Nat)
  | pointEvaluationFailed (blobIndex : Nat)
  | invalidEquivalenceProof
  | successorAlreadySet
  | wrongStakeAmount (expected : Nat)
  | unknownProvider (providerId : Nat)
  | notOperator (providerId : Nat)
  | notActive (providerId : Nat)
  | notUnbonding (providerId : Nat)
  | unbondingDelayActive (until_ : Nat)
  | openChallengesRemain (count : Nat)
  | challengeWindowClosed
  | noIndices
  | tooManyIndices (max : Nat)
  | indexOutOfRange (index leafCount : Nat)
  | bondTooSmall (required : Nat)
  | unknownChallenge (challengeId : Nat)
  | alreadyResolved (challengeId : Nat)
  | responseWindowClosed (deadline : Nat)
  | responseWindowStillOpen (deadline : Nat)
  | indicesMismatch
  | proofCountMismatch (expected : Nat)
  | pinMismatch
  | invalidInclusionProof (sampleIndex : Nat)
  | providerSlashed (providerId : Nat)
  | alreadyCommitted (period : Nat)
  | noCommit
  | commitFromEarlierPeriod (committed current : Nat)
  | invalidCustodyProof
  | notLapsable (lapsableAt : Nat)
  | nothingClaimable
  | onlyInstance
  | notDormant (dormantAt : Nat)
  | nothingToReclaim
  | panic (code : Panic)
  /-- Calldata outside its types, or value sent to a function that takes none. -/
  | badCall
  deriving DecidableEq

inductive SlashCause where
  | challengeTimeout
  | lapse
  deriving DecidableEq, Repr

inductive Event where
  | declared (nonce newLeafCount : Nat) (blobVersionedHashes newSubtreePeaks : List Hash)
      (appPointer : Hash) (carrier : Address)
  | appPointerSet (nonce : Nat) (pointer : Hash)
  | successorSet (target : Address)
  | staked (providerId : Nat) (operator withdrawal : Address)
  | unbondingInitiated (providerId : Nat) (exitRoot : Hash) (exitLeafCount : Nat)
  | withdrawn (providerId : Nat)
  | announced (url : String)
  | retracted
  | challengeOpened (challengeId providerId : Nat) (indices : List Nat) (bond : Nat)
      (pinnedRoot : Hash) (pinnedLeafCount deadline : Nat)
  | challengeAnswered (challengeId : Nat)
  | challengeRefunded (challengeId : Nat)
  | challengeTimedOut (challengeId : Nat)
  | slashed (providerId : Nat) (cause : SlashCause) (executor : Address)
  | custodyCommitted (providerId period : Nat) (seed root : Hash) (leafCount : Nat)
  | custodyProven (providerId period : Nat) (degraded : Bool)
  | payoutDeferred (recipient : Address) (amount : Nat)
  | claimed (recipient : Address) (amount : Nat)
  deriving DecidableEq

structure Declaration where
  nonce : Nat
  deadline : Nat
  blobVersionedHashes : List Hash
  newSubtreePeaks : List Hash
  newLeafCount : Nat
  designatedCarrier : Address
  appPointer : Hash

structure BlobOpening where
  y : Hash
  commitment : ByteString
  kzgProof : ByteString

structure ChunkProof where
  chunk : Chunk
  path : List Hash

inductive Call where
  | declareFor (d : Declaration) (publisherSig : ByteString) (openings : List BlobOpening)
      (equivalenceProof : ByteString)
  | setAppPointer (nonce deadline : Nat) (pointer : Hash) (sig : ByteString)
  | setSuccessor (nonce deadline : Nat) (target : Address) (sig : ByteString)
  | stake (operator withdrawal : Address)
  | initiateUnbonding (providerId : Nat)
  | withdraw (providerId : Nat)
  | announce (url : String)
  | retract
  | beginProof (providerId : Nat)
  | submitProof (providerId : Nat) (proof : ByteString)
  | submitProofEscape (providerId n : Nat) (pinnedPeaks : List Hash) (reveals : List ChunkProof)
  | lapse (providerId : Nat)
  | challenge (providerId : Nat) (indices : List Nat)
  | respond (challengeId : Nat) (indices : List Nat) (n : Nat) (pinnedPeaks : List Hash)
      (proofs : List ChunkProof)
  | resolveTimeout (challengeId : Nat)
  | claim

/-- The `uint64` arguments are in range; the decoder rejects anything else. -/
def Call.inRange : Call → Bool
  | .declareFor d _ _ _ => d.nonce < 2 ^ 64 && d.deadline < 2 ^ 64 && d.newLeafCount < 2 ^ 64
  | .setAppPointer nonce deadline _ _ => nonce < 2 ^ 64 && deadline < 2 ^ 64
  | .setSuccessor nonce deadline _ _ => nonce < 2 ^ 64 && deadline < 2 ^ 64
  | .stake _ _ => true
  | .initiateUnbonding providerId => providerId < 2 ^ 64
  | .withdraw providerId => providerId < 2 ^ 64
  | .announce _ => true
  | .retract => true
  | .beginProof providerId => providerId < 2 ^ 64
  | .submitProof providerId _ => providerId < 2 ^ 64
  | .submitProofEscape providerId n _ _ => providerId < 2 ^ 64 && n < 2 ^ 64
  | .lapse providerId => providerId < 2 ^ 64
  | .challenge providerId indices => providerId < 2 ^ 64 && indices.all (· < 2 ^ 64)
  | .respond challengeId indices n _ _ =>
      challengeId < 2 ^ 64 && indices.all (· < 2 ^ 64) && n < 2 ^ 64
  | .resolveTimeout challengeId => challengeId < 2 ^ 64
  | .claim => true

def Call.payable : Call → Bool
  | .stake _ _ => true
  | .challenge _ _ => true
  | _ => false

/-- What ETH that leaves the books of a stake or a bond is for. -/
inductive Payment where
  | stakeReturned (providerId : Nat) (recipient : Address) (amount : Nat)
  | stakeSlashed (providerId : Nat) (recipient : Address) (bounty remainder : Nat)
  | bondToOperator (challengeId : Nat) (operator : Address) (amount : Nat)
  | bondToChallenger (challengeId : Nat) (challenger : Address) (amount : Nat)
  deriving DecidableEq

/-- The external call that ends an entry point, after all its state changes. -/
inductive Tail where
  | done
  | payout (recipient : Address) (amount : Nat)
  | claim (recipient : Address) (amount : Nat)
  | reimburse (carrier : Address) (amount : Nat) (isDeclaration : Bool)

/-- ETH that the tail takes from the instance. -/
def Tail.amount : Tail → Nat
  | .payout _ amount => amount
  | .claim _ amount => amount
  | _ => 0

/-- What an accepted call leaves behind: the storage, its events, the value of its
`absorbSlash` call if it makes one, and the tail.  `payments` is an annotation that
no code reads. -/
structure Outcome where
  storage : Storage
  events : List Event
  absorbed : Option Nat
  payments : List Payment
  tail : Tail

def Outcome.plain (s : Storage) (events : List Event) : Outcome := ⟨s, events, none, [], .done⟩

/-- `if (bad) revert e;` -/
def revertIf (bad : Prop) [Decidable bad] (e : Revert) : Except Revert Unit :=
  if bad then .error e else .ok ()

def Checked.orPanic {α : Type} : Checked α → Except Revert α
  | .ok a => .ok a
  | .error code => .error (.panic code)

theorem revertIf_eq_ok {bad : Prop} [Decidable bad] {e : Revert} {u : Unit} :
    revertIf bad e = .ok u ↔ ¬bad := by
  unfold revertIf
  split <;> simp_all

theorem revertIf_ok {bad : Prop} [Decidable bad] {e : Revert} (hgood : ¬bad) :
    revertIf bad e = .ok () := if_neg hgood

theorem revertIf_eq_error {bad : Prop} [Decidable bad] {e e' : Revert} :
    revertIf bad e = .error e' ↔ bad ∧ e = e' := by
  unfold revertIf
  split <;> simp_all

/-- An error that the guard does not raise comes from behind it. -/
theorem revertIf_passed {α : Type} {bad : Prop} [Decidable bad] {e e' : Revert}
    {rest : Unit → Except Revert α} (herror : (revertIf bad e >>= rest) = .error e')
    (hother : e ≠ e') : ¬bad ∧ rest () = .error e' := by
  rcases bind_eq_error.mp herror with hguard | ⟨_, hpassed, hrest⟩
  · exact absurd (revertIf_eq_error.mp hguard).2 hother
  · exact ⟨revertIf_eq_ok.mp hpassed, hrest⟩

theorem orPanic_eq_error {α : Type} {x : Checked α} {e : Revert} :
    x.orPanic = .error e ↔ ∃ code, x = .error code ∧ .panic code = e := by
  cases x <;> simp [Checked.orPanic]

/-- Nothing is raised by arithmetic that fits. -/
theorem orPanic_passed {α β : Type} {x : Checked α} {a : α} {e : Revert}
    {rest : α → Except Revert β} (herror : (x.orPanic >>= rest) = .error e) (hfits : x = .ok a) :
    rest a = .error e := by
  subst hfits
  exact herror

theorem orPanic_eq_ok {α : Type} {x : Checked α} {a : α} : x.orPanic = .ok a ↔ x = .ok a := by
  cases x <;> simp [Checked.orPanic]

end Blobsitter.Contract
