import Blobsitter.Contract.Change
import Blobsitter.Library.CallStack
import Blobsitter.Library.Keccak

/-!
# The two contracts on a chain

ETH balances, the event logs and the calls of any accounts, in any order and at
non-decreasing times.  A push hands control to its recipient: until it ends, further
calls may run; when it fails or the call is aborted, all of them are undone.
-/

namespace Blobsitter.Contract

open Library
open Reference (Chunk Hash Address)

/-- The state that a revert restores.  `forced` counts the ETH that reached the
instance outside its entry points; no code reads it. -/
structure Chain where
  store : Storage
  balance : Nat
  paymaster : Paymaster
  paymasterBalance : Nat
  log : List (Nat × Event)
  paymasterLog : List (Nat × PaymasterEvent)
  payments : List Payment
  forced : Nat

/-- What is left of a call once its push has succeeded. -/
inductive Rest where
  | paidOut (recipient : Address) (amount : Nat)
  | claimed (recipient : Address) (amount : Nat)
  | reimbursed
  | paymasterPaidOut
  | paymasterClaimed (recipient : Address) (amount : Nat)

inductive Action where
  | call (msg : Msg) (call : Call)
  | callPaymaster (msg : Msg) (call : PaymasterCall)
  | forceSend (amount : Nat)
  | forceSendPaymaster (amount : Nat)

/-- The two contracts never hold this much: all ETH in existence is far less. -/
def etherBound : Nat := 2 ^ 128

/-- Accounts that act on their own: neither contract calls the instance, and no
account has the zero address. -/
def Outside (dep : Deployment) (account : Address) : Prop :=
  account ≠ zeroAddress ∧ account ≠ dep.self ∧ account ≠ dep.paymaster

instance (dep : Deployment) (account : Address) : Decidable (Outside dep account) :=
  inferInstanceAs (Decidable (_ ∧ _ ∧ _))

namespace Chain

/-- ETH in the two contracts. -/
def ether (chain : Chain) : Nat := chain.balance + chain.paymasterBalance

section

variable (dep : Deployment) (block : Block)

def emit (chain : Chain) (events : List Event) : Chain :=
  { chain with log := chain.log ++ events.map fun event => (block.timestamp, event) }

def emitPaymaster (chain : Chain) (events : List PaymasterEvent) : Chain :=
  { chain with
    paymasterLog := chain.paymasterLog ++ events.map fun event => (block.timestamp, event) }

/-- The publication latch opens again when the call ends. -/
def release (chain : Chain) : Chain := { chain with store := { chain.store with entered := false } }

/-- State of an instance call when its tail starts: effects, value in, `absorbSlash`
value over to the paymaster. -/
def applyOutcome (chain : Chain) (value : Nat) (out : Outcome) : Chain :=
  let charged := (chain.emit block out.events).emitPaymaster block
    (out.absorbed.toList.map .slashAbsorbed)
  { charged with
    store := out.storage
    balance := chain.balance + value - out.absorbed.getD 0
    paymasterBalance := chain.paymasterBalance + out.absorbed.getD 0
    payments := chain.payments ++ out.payments }

/-- State after a failed push of the instance: the amount is parked. -/
def park (chain entry : Chain) (recipient : Address) (amount : Nat) : Chain :=
  match chain.store.sink.park recipient amount with
  | .ok sink =>
      { chain with store := { chain.store with sink := sink } }.emit block
        [.payoutDeferred recipient amount]
  | .error _ => entry

/-- State after a failed push of the paymaster. -/
def parkPaymaster (chain entry : Chain) (recipient : Address) (amount : Nat) : Chain :=
  match chain.paymaster.sink.park recipient amount with
  | .ok sink =>
      { chain with paymaster := { chain.paymaster with sink := sink } }.emitPaymaster block
        [.payoutDeferred recipient amount]
  | .error _ => entry

/-- `_payout` of the instance.  The instance cannot receive plain transfers itself. -/
def startPayout (chain entry : Chain) (recipient : Address) (amount : Nat) :
    Chain × Option (Frame Chain Rest) :=
  let parked := chain.park block entry recipient amount
  if chain.balance < amount ∨ recipient = dep.self then (parked, none)
  else ({ chain with balance := chain.balance - amount },
    some ⟨parked, entry, .paidOut recipient amount⟩)

/-- `_reimburse`: the paymaster is called, and its failure changes nothing. -/
def startReimbursement (chain : Chain) (starved : Bool) (carrier : Address) (amount : Nat)
    (isDeclaration : Bool) : Chain × Option (Frame Chain Rest) :=
  let skipped := chain.release
  if starved then (skipped, none)
  else
    match chain.paymaster.reimburse dep.params block chain.paymasterBalance carrier amount
        isDeclaration with
    | .error _ => (skipped, none)
    | .ok out =>
        let charged := ({ chain with paymaster := out.storage }.emitPaymaster block out.events)
        match out.tail with
        | .payout recipient amount =>
            let parked := (charged.parkPaymaster block chain recipient amount).release
            if charged.paymasterBalance < amount then (parked, none)
            else ({ charged with paymasterBalance := charged.paymasterBalance - amount },
              some ⟨parked, skipped, .reimbursed⟩)
        | _ => (charged.release, none)

/-- The tail of an accepted instance call; `none` when the whole call reverts. -/
def startTail (chain entry : Chain) (starved : Bool) :
    Tail → Option (Chain × Option (Frame Chain Rest))
  | .done => some (chain, none)
  | .payout recipient amount => some (chain.startPayout dep block entry recipient amount)
  | .claim recipient amount =>
      if chain.balance < amount then none
      else some ({ chain with balance := chain.balance - amount },
        some ⟨entry, entry, .claimed recipient amount⟩)
  | .reimburse carrier amount isDeclaration =>
      some (chain.startReimbursement dep block starved carrier amount isDeclaration)

/-- The tail of an accepted paymaster call. -/
def startPaymasterTail (chain entry : Chain) : Tail → Option (Chain × Option (Frame Chain Rest))
  | .payout recipient amount =>
      let parked := chain.parkPaymaster block entry recipient amount
      if chain.paymasterBalance < amount then some (parked, none)
      else some ({ chain with paymasterBalance := chain.paymasterBalance - amount },
        some ⟨parked, entry, .paymasterPaidOut⟩)
  | .claim recipient amount =>
      if chain.paymasterBalance < amount then none
      else some ({ chain with paymasterBalance := chain.paymasterBalance - amount },
        some ⟨entry, entry, .paymasterClaimed recipient amount⟩)
  | _ => some (chain, none)

variable (keccak256 : ByteString → Hash)

/-- A call to the instance; `none` when it reverts. -/
def callInstance (chain : Chain) (msg : Msg) (call : Call) :
    Option (Chain × Option (Frame Chain Rest)) :=
  if ¬Outside dep msg.sender ∨ etherBound ≤ chain.ether + msg.value then none
  else
    match dispatch keccak256 dep block msg chain.store call with
    | .error _ => none
    | .ok out =>
        if chain.balance + msg.value < out.absorbed.getD 0 then none
        else (chain.applyOutcome block msg.value out).startTail dep block chain msg.starved out.tail

/-- A call to the paymaster; `none` when it reverts. -/
def callPaymaster (chain : Chain) (msg : Msg) (call : PaymasterCall) :
    Option (Chain × Option (Frame Chain Rest)) :=
  if ¬Outside dep msg.sender ∨ etherBound ≤ chain.ether + msg.value then none
  else
    match chain.paymaster.dispatch dep.params block (chain.paymasterBalance + msg.value)
        chain.store.activityCheckpointTime msg call with
    | .error _ => none
    | .ok out =>
        ({ chain with
            paymaster := out.storage
            paymasterBalance := chain.paymasterBalance + msg.value }.emitPaymaster block
              out.events).startPaymasterTail block chain out.tail

def act (chain : Chain) : Action → Option (Chain × Option (Frame Chain Rest))
  | .call msg call => chain.callInstance dep block keccak256 msg call
  | .callPaymaster msg call => chain.callPaymaster dep block msg call
  | .forceSend amount =>
      if etherBound ≤ chain.ether + amount then none
      else some ({ chain with balance := chain.balance + amount, forced := chain.forced + amount },
        none)
  | .forceSendPaymaster amount =>
      if etherBound ≤ chain.ether + amount then none
      else some ({ chain with paymasterBalance := chain.paymasterBalance + amount }, none)

/-- The rest of a call whose push succeeded.  A payout to the paymaster's address is
a donation; the instance's own address never accepts a transfer. -/
def resume (chain : Chain) : Rest → Option Chain
  | .paidOut recipient amount =>
      if recipient ≠ dep.paymaster then some chain
      else if etherBound ≤ chain.ether + amount then none
      else
        match chain.paymaster.donate dep.self amount with
        | .error _ => none
        | .ok out => some ({ chain with
            paymaster := out.storage
            paymasterBalance := chain.paymasterBalance + amount }.emitPaymaster block out.events)
  | .claimed recipient amount => some (chain.emit block [.claimed recipient amount])
  | .reimbursed => some chain.release
  | .paymasterPaidOut => some chain
  | .paymasterClaimed recipient amount =>
      some (chain.emitPaymaster block [.claimed recipient amount])

/-- The chain right after the constructor. -/
def deployed : Chain where
  store :=
    { leafCount := 0
      peaks := []
      declarationNonce := 0
      appPointerNonce := 0
      successorNonce := 0
      appPointer := zeroHash
      successor := zeroAddress
      activityCheckpointTime := block.timestamp % 2 ^ 64
      activityCheckpointLeafCount := 0
      nextProviderId := 1
      providers := fun _ => .empty
      nextChallengeId := 0
      challengeRecords := fun _ => .empty
      sink := ⟨fun _ => 0, 0⟩
      entered := false }
  balance := 0
  paymaster := .deployed dep.params block
  paymasterBalance := 0
  log := []
  paymasterLog := []
  payments := []
  forced := 0

end

end Chain

section

variable (keccak256 : ByteString → Hash) (dep : Deployment)

/-- The contracts as a call system over blocks. -/
def system : CallSystem Block Chain Action Rest where
  call block action chain := chain.act dep block keccak256 action
  resume block rest chain := chain.resume dep block rest
  advance block next := block.timestamp ≤ next.timestamp

abbrev World := Machine Block Chain Rest

/-- A world that some run from a deployment reaches. -/
def Reachable (world : World) : Prop :=
  ∃ block, (system keccak256 dep).Steps ⟨block, Chain.deployed dep block, []⟩ world

variable {keccak256 dep}

theorem system_call {block : Block} {chain : Chain} {msg : Msg} {call : Call} :
    (system keccak256 dep).call block (.call msg call) chain =
      chain.callInstance dep block keccak256 msg call := rfl

theorem Reachable.steps {world later : World} (hreach : Reachable keccak256 dep world)
    (hsteps : (system keccak256 dep).Steps world later) : Reachable keccak256 dep later := by
  obtain ⟨block, hfirst⟩ := hreach
  exact ⟨block, hfirst.trans hsteps⟩

/-- A property of every deployment that every step preserves holds in every world. -/
theorem Reachable.holds {P : Block → Chain → Prop} {world : World}
    (hreach : Reachable keccak256 dep world)
    (hpreserves : (system keccak256 dep).Preserves P)
    (hdeployed : ∀ block, P block (Chain.deployed dep block)) : world.Holds P := by
  obtain ⟨block, hsteps⟩ := hreach
  exact hsteps.holds hpreserves (Machine.holds_of_idle (hdeployed block))

end

/-! ## Short runs

One provider stakes.  In the first run it is lapsed after two missed periods, and the
bounty is on its way; in the second a carrier declares one chunk.  In the third a donor
funds the paymaster of another deployment, which then falls dormant. -/

def sampleDeployment : Deployment where
  params :=
    { publisher := Vector.replicate 20 1
      stakeWei := 1000
      responseWindow := 100
      unbondingDelay := 200
      custodyPeriod := 10
      lapseGrace := 5
      custodyK := 4
      maxSample := 2
      bountyBps := 1500
      carrierTipWei := 0
      provingSubsidyWei := 0
      bucketRateWeiPerDay := 0
      bucketCapWei := 0
      dormancyWindow := 0
      dormancyMinChunks := 0 }
  self := Vector.replicate 20 2
  paymaster := Vector.replicate 20 3
  inRange := by constructor <;> decide
  self_ne_paymaster := by decide

theorem zero_fits : 0 < 2 ^ 64 := by decide
theorem one_fits : 1 < 2 ^ 64 := by decide
theorem four_fits : 4 < 2 ^ 64 := by decide
theorem eight_fits : 8 < 2 ^ 64 := by decide

def sampleBlock (timestamp : Nat) (htimestamp : timestamp < 2 ^ 64) : Block :=
  ⟨timestamp, 1, 1, zeroHash, 1, htimestamp⟩

def sampleMsg (sender : Address) (value : Nat) : Msg where
  sender := sender
  value := value
  blobHashes := []
  dataLength := 0
  gasUsed := 0
  starved := false
  wallet := fun _ _ => none
  verifyProof := fun _ _ _ => false
  pointEvaluation := fun _ => false

def sampleOperator : Address := Vector.replicate 20 4

def stakeBlock : Block := sampleBlock 7 (by decide)

def lapseBlock : Block := sampleBlock 32 (by decide)

/-- The outcome of an action that is accepted. -/
def Chain.after (block : Block) (chain : Chain) (action : Action) :
    Chain × Option (Frame Chain Rest) :=
  (chain.act sampleDeployment block Keccak.keccak256 action).getD (chain, none)

def stakeAction : Action :=
  .call (sampleMsg sampleOperator 1000) (.stake sampleOperator sampleOperator)

def lapseAction : Action := .call (sampleMsg (Vector.replicate 20 5) 0) (.lapse 1)

def stakedWorld : World :=
  ⟨stakeBlock, ((Chain.deployed sampleDeployment stakeBlock).after stakeBlock stakeAction).1, []⟩

def dueWorld : World := ⟨lapseBlock, stakedWorld.state, []⟩

def lapsedWorld : World :=
  ⟨lapseBlock, (dueWorld.state.after lapseBlock lapseAction).1,
    (dueWorld.state.after lapseBlock lapseAction).2.toList⟩

theorem stakedWorld_reachable : Reachable Keccak.keccak256 sampleDeployment stakedWorld := by
  have hcall : (system Keccak.keccak256 sampleDeployment).call stakeBlock stakeAction
      (Chain.deployed sampleDeployment stakeBlock) = some (stakedWorld.state, none) := rfl
  exact ⟨stakeBlock, .single (.returns hcall)⟩

theorem dueWorld_reachable : Reachable Keccak.keccak256 sampleDeployment dueWorld := by
  have hadvance : stakeBlock.timestamp ≤ lapseBlock.timestamp := by decide
  exact stakedWorld_reachable.steps (.single (.advances hadvance))

set_option maxRecDepth 4000 in
theorem lapsedWorld_reachable : Reachable Keccak.keccak256 sampleDeployment lapsedWorld := by
  have hcall : (system Keccak.keccak256 sampleDeployment).call lapseBlock lapseAction
      dueWorld.state = some (dueWorld.state.after lapseBlock lapseAction) := rfl
  exact dueWorld_reachable.steps (.single (.opens hcall))

/-- The carrier's transaction: one blob, a signing wallet and accepted proofs. -/
def carrierMsg : Msg :=
  { sampleMsg (Vector.replicate 20 6) 0 with
    blobHashes := [Vector.replicate 32 1]
    wallet := fun _ _ => some erc1271Magic
    verifyProof := fun _ _ _ => true
    pointEvaluation := fun _ => true }

def zeroStream : Nat → Chunk := fun _ => Vector.replicate 31 0

def zeroDeclaration : Declaration where
  nonce := 0
  deadline := 100
  blobVersionedHashes := [Vector.replicate 32 1]
  newSubtreePeaks := [Reference.leaf Keccak.keccak256 (zeroStream 0)]
  newLeafCount := 1
  designatedCarrier := zeroAddress
  appPointer := zeroHash

def declareAction : Action :=
  .call carrierMsg (.declareFor zeroDeclaration [] [⟨zeroHash, [], []⟩] [])

def declaredWorld : World :=
  ⟨stakeBlock, (stakedWorld.state.after stakeBlock declareAction).1, []⟩

set_option maxRecDepth 10000 in
theorem declaredWorld_reachable : Reachable Keccak.keccak256 sampleDeployment declaredWorld := by
  have hcall : (system Keccak.keccak256 sampleDeployment).call stakeBlock declareAction
      stakedWorld.state = some (declaredWorld.state, none) := rfl
  exact stakedWorld_reachable.steps (.single (.returns hcall))

def fundedDeployment : Deployment where
  params :=
    { sampleDeployment.params with
      bucketRateWeiPerDay := 86400
      bucketCapWei := 1000000
      dormancyWindow := 10
      dormancyMinChunks := 1 }
  self := sampleDeployment.self
  paymaster := sampleDeployment.paymaster
  inRange := by constructor <;> decide
  self_ne_paymaster := by decide

def sampleDonor : Address := Vector.replicate 20 7

def donatedWorld : World :=
  ⟨stakeBlock, (((Chain.deployed fundedDeployment stakeBlock).callPaymaster fundedDeployment
    stakeBlock (sampleMsg sampleDonor 5000) .donate).getD
      (Chain.deployed fundedDeployment stakeBlock, none)).1, []⟩

def dormantWorld : World := ⟨lapseBlock, donatedWorld.state, []⟩

theorem donatedWorld_reachable : Reachable Keccak.keccak256 fundedDeployment donatedWorld := by
  have hcall : (system Keccak.keccak256 fundedDeployment).call stakeBlock
      (.callPaymaster (sampleMsg sampleDonor 5000) .donate)
      (Chain.deployed fundedDeployment stakeBlock) = some (donatedWorld.state, none) := rfl
  exact ⟨stakeBlock, .single (.returns hcall)⟩

theorem dormantWorld_reachable : Reachable Keccak.keccak256 fundedDeployment dormantWorld := by
  have hadvance : stakeBlock.timestamp ≤ lapseBlock.timestamp := by decide
  exact donatedWorld_reachable.steps (.single (.advances hadvance))

end Blobsitter.Contract
