import Blobsitter.Carrier.Preflight
import Blobsitter.Carrier.Solvency
import Blobsitter.Contract.Isolation

/-!
# Carrying a package

The whole pipeline: validation, preflight, the solvency check, one transaction and what
its receipt says.  The report of the reimbursement is the paymaster's own answer.
-/

namespace Blobsitter.Carrier

open Library
open Reference (Hash Address)
open Intents (IntentPackage Kzg ValidateError)
open Contract (Block Chain Deployment PaymasterEvent answers)

inductive CarryError where
  | invalid (e : ValidateError)
  | preflight (e : PreflightError)
  | solvency (message : String)
  | insolvent (expected bucket available : Nat)
  | submission (message : String)
  | reverted (txHash : Hash)

/-- The paymaster's account of a skip: what it was asked for, and what it had. -/
structure SkipInfo where
  requested : Nat
  bucketLevel : Nat
  available : Nat

structure CarryReport where
  txHash : Hash
  blockNumber : Nat
  gasUsed : Nat
  reimbursed : Option Nat
  skipped : Option SkipInfo
  solvency : SolvencyReport

structure CarryOptions where
  dryRun : Bool
  forceInsolvent : Bool

/-- A log of a receipt: who emitted it, and the paymaster's event it decodes to, if any. -/
structure Log where
  address : Address
  event : Option PaymasterEvent

structure Receipt where
  status : Bool
  transactionHash : Hash
  blockNumber : Option Nat
  gasUsed : Nat
  logs : List Log

/-- The endpoint in the course of one carriage; sending waits for the receipt. -/
structure CarryEndpoint where
  provider : Provider
  solvency : SolvencyProvider
  paymaster : Except String Address
  sendTransaction : TransactionRequest → Except String Receipt

/-- What one event of the paymaster says about the reimbursement. -/
def readEvent (found : Option Nat × Option SkipInfo) : PaymasterEvent → Option Nat × Option SkipInfo
  | .reimbursed _ amount _ => (some (saturate amount), found.2)
  | .reimbursementSkipped _ amount level available =>
      (found.1, some ⟨saturate amount, saturate level, saturate available⟩)
  | _ => found

/-- The loop over the logs of a receipt; what another contract emits is passed over. -/
def readLogs (paymaster : Address) (found : Option Nat × Option SkipInfo) :
    List Log → Option Nat × Option SkipInfo
  | [] => found
  | log :: rest =>
      if log.address ≠ paymaster then readLogs paymaster found rest
      else readLogs paymaster (log.event.elim found (readEvent found)) rest

/-- What a successful receipt reports. -/
def reportOf (paymaster : Address) (solvency : SolvencyReport) (receipt : Receipt) : CarryReport :=
  let found := readLogs paymaster (none, none) receipt.logs
  ⟨receipt.transactionHash, receipt.blockNumber.getD 0, receipt.gasUsed, found.1, found.2, solvency⟩

section

variable (keccak256 : ByteString → Hash) (sha256 : ByteString → Word 32) (kzg : Kzg)
variable (abiEncode : Contract.Call → ByteString) (endpoint : CarryEndpoint)
variable (package : IntentPackage) (carrier : Address) (options : CarryOptions)

/-- The part of a carriage that only reads. -/
def inspect : Except CarryError (Preflighted × SolvencyReport) := do
  let validated ← (Intents.validate sha256 kzg package).mapError .invalid
  let flight ← (preflight keccak256 kzg abiEncode endpoint.provider package validated
    carrier).mapError .preflight
  let solvency ← (check endpoint.solvency flight.gasEstimate flight.calldataLen flight.numBlobs
    flight.isDeclaration).mapError .solvency
  return (flight, solvency)

/-- `carry`: what it returns, and the transactions it has sent. -/
def carry : Except CarryError CarryReport × List TransactionRequest :=
  match inspect keccak256 sha256 kzg abiEncode endpoint package carrier with
  | .error e => (.error e, [])
  | .ok (flight, solvency) =>
      if options.dryRun then
        (.ok ⟨Contract.zeroHash, 0, flight.gasEstimate, none, none, solvency⟩, [])
      else if ¬solvency.covered ∧ ¬options.forceInsolvent then
        (.error (.insolvent solvency.expectedReimbursement solvency.bucketLevel
          solvency.availableBalance), [])
      else
        match endpoint.paymaster with
        | .error message => (.error (.submission message), [])
        | .ok paymaster =>
            match endpoint.sendTransaction flight.tx with
            | .error message => (.error (.submission message), [flight.tx])
            | .ok receipt =>
                if receipt.status then (.ok (reportOf paymaster solvency receipt), [flight.tx])
                else (.error (.reverted receipt.transactionHash), [flight.tx])

end

section

variable {keccak256 : ByteString → Hash} {sha256 : ByteString → Word 32} {kzg : Kzg}
variable {abiEncode : Contract.Call → ByteString} {endpoint : CarryEndpoint}
variable {package : IntentPackage} {carrier : Address} {options : CarryOptions}

/-- The one transaction a carriage may send, and what it has passed before. -/
structure Cleared (keccak256 : ByteString → Hash) (sha256 : ByteString → Word 32) (kzg : Kzg)
    (abiEncode : Contract.Call → ByteString) (endpoint : CarryEndpoint) (package : IntentPackage)
    (carrier : Address) (options : CarryOptions) (solvency : SolvencyReport)
    (tx : TransactionRequest) : Prop where
  live : options.dryRun = false
  valid : ∃ validated, Intents.validate sha256 kzg package = .ok validated
  checked : localChecks keccak256 kzg endpoint.provider package carrier = .ok ()
  affordable : solvency.covered = true ∨ options.forceInsolvent = true
  sender : tx.sender = carrier
  target : tx.target = package.instanceAddress
  input : tx.input = abiEncode (carriedCall package)

theorem inspect_cleared {flight : Preflighted} {solvency : SolvencyReport}
    (hok : inspect keccak256 sha256 kzg abiEncode endpoint package carrier = .ok (flight, solvency))
    (hlive : options.dryRun = false)
    (haffordable : solvency.covered = true ∨ options.forceInsolvent = true) :
    Cleared keccak256 sha256 kzg abiEncode endpoint package carrier options solvency flight.tx := by
  obtain ⟨validated, hvalid, hok⟩ := bind_eq_ok.mp hok
  obtain ⟨ready, hready, hok⟩ := bind_eq_ok.mp hok
  obtain ⟨checked, _, hok⟩ := bind_eq_ok.mp hok
  obtain ⟨rfl, rfl⟩ := Prod.mk.inj (pure_eq_ok.mp hok)
  obtain ⟨hlocal, hsender, htarget, hinput⟩ := preflight_passed (mapError_eq_ok.mp hready)
  exact ⟨hlive, ⟨validated, mapError_eq_ok.mp hvalid⟩, hlocal, haffordable, hsender, htarget, hinput⟩

/-- How a carriage ends: before it sends anything, or with the answer to one transaction. -/
theorem carry_cases (keccak256 : ByteString → Hash) (sha256 : ByteString → Word 32) (kzg : Kzg)
    (abiEncode : Contract.Call → ByteString) (endpoint : CarryEndpoint) (package : IntentPackage)
    (carrier : Address) (options : CarryOptions) :
    (∃ result, carry keccak256 sha256 kzg abiEncode endpoint package carrier options = (result, []) ∧
        (options.dryRun = false → ∃ e, result = .error e)) ∨
      ∃ solvency tx paymaster,
        Cleared keccak256 sha256 kzg abiEncode endpoint package carrier options solvency tx ∧
        endpoint.paymaster = .ok paymaster ∧
        ((∃ e, carry keccak256 sha256 kzg abiEncode endpoint package carrier options =
            (.error e, [tx])) ∨
          ∃ receipt, endpoint.sendTransaction tx = .ok receipt ∧ receipt.status = true ∧
            carry keccak256 sha256 kzg abiEncode endpoint package carrier options =
              (.ok (reportOf paymaster solvency receipt), [tx])) := by
  unfold carry
  cases hinspect : inspect keccak256 sha256 kzg abiEncode endpoint package carrier with
  | error e => exact Or.inl ⟨_, rfl, fun _ => ⟨e, rfl⟩⟩
  | ok inspected =>
      obtain ⟨flight, solvency⟩ := inspected
      simp only
      split_ifs with hdry hinsolvent
      · refine Or.inl ⟨_, rfl, fun hlive => ?_⟩
        rw [hdry] at hlive
        cases hlive
      · exact Or.inl ⟨_, rfl, fun _ => ⟨_, rfl⟩⟩
      · rw [not_and_or, not_not, not_not] at hinsolvent
        have hcleared := inspect_cleared hinspect (Bool.eq_false_of_not_eq_true hdry) hinsolvent
        cases hpaymaster : endpoint.paymaster with
        | error message => exact Or.inl ⟨_, rfl, fun _ => ⟨_, rfl⟩⟩
        | ok paymaster =>
            refine Or.inr ⟨solvency, flight.tx, paymaster, hcleared, rfl, ?_⟩
            cases hsend : endpoint.sendTransaction flight.tx with
            | error message => exact Or.inl ⟨_, rfl⟩
            | ok receipt =>
                simp only
                split_ifs with hstatus
                · exact Or.inr ⟨receipt, rfl, hstatus, rfl⟩
                · exact Or.inl ⟨_, rfl⟩

end

section

variable {keccak256 : ByteString → Hash} {dep : Deployment} {block : Block} {before after : Chain}

/-- The events that the paymaster emitted. -/
def emitted (paymaster : Address) (logs : List Log) : List PaymasterEvent :=
  (logs.filter fun log => log.address = paymaster).filterMap Log.event

/-- The loop reads the paymaster's answers and nothing else. -/
theorem readLogs_eq (paymaster : Address) (found : Option Nat × Option SkipInfo) (logs : List Log) :
    readLogs paymaster found logs =
      ((emitted paymaster logs).filter PaymasterEvent.isAnswer).foldl readEvent found := by
  induction logs generalizing found with
  | nil => rfl
  | cons log rest ih =>
      unfold readLogs emitted
      by_cases haddress : log.address = paymaster
      · rw [if_neg (not_not.mpr haddress), ih, List.filter_cons, if_pos (decide_eq_true haddress),
          List.filterMap_cons]
        cases hevent : log.event with
        | none => rfl
        | some event => cases event <;> rfl
      · rw [if_pos haddress, ih, List.filter_cons, if_neg (by simpa using haddress)]
        rfl

/-- A transaction of the account: its call to the instance and whatever runs from the push
to its carrier, until no call waits. -/
def Executes (keccak256 : ByteString → Hash) (dep : Deployment) (block : Block) (sender : Address)
    (call : Contract.Call) (before after : Chain) : Prop :=
  ∃ msg next frame, msg.sender = sender ∧
    before.callInstance dep block keccak256 msg call = some (next, frame) ∧
    (Contract.system keccak256 dep).Inside [] ⟨block, next, frame.toList ++ []⟩ ⟨block, after, []⟩

/-- The endpoint is one of the chain: it names the instance's paymaster, and a receipt that
says success has the logs of the transaction that the call was. -/
structure Mines (keccak256 : ByteString → Hash) (dep : Deployment) (block : Block)
    (endpoint : CarryEndpoint) (call : Contract.Call) (input : ByteString) (before after : Chain) :
    Prop where
  paymaster : ∀ address, endpoint.paymaster = .ok address → address = dep.paymaster
  executed : ∀ tx receipt, endpoint.sendTransaction tx = .ok receipt → receipt.status = true →
    tx.target = dep.self → tx.input = input →
    Executes keccak256 dep block tx.sender call before after ∧
      after.paymasterLog = before.paymasterLog ++
        (emitted dep.paymaster receipt.logs).map fun event => (block.timestamp, event)

/-- The report agrees with the paymaster's ledger: no answer since, one payment to the
carrier, or one skip. -/
inductive Reported (block : Block) (before after : Chain) (carrier : Address)
    (isDeclaration : Bool) (report : CarryReport) : Prop where
  | unanswered (hledger : answers after.paymasterLog = answers before.paymasterLog)
      (hreimbursed : report.reimbursed = none) (hskipped : report.skipped = none)
  | reimbursed {amount : Nat}
      (hledger : answers after.paymasterLog = answers before.paymasterLog ++
        [(block.timestamp, .reimbursed carrier amount isDeclaration)])
      (hreimbursed : report.reimbursed = some amount) (hskipped : report.skipped = none)
  | skipped {amount level available : Nat}
      (hledger : answers after.paymasterLog = answers before.paymasterLog ++
        [(block.timestamp, .reimbursementSkipped carrier amount level available)])
      (hreimbursed : report.reimbursed = none)
      (hskipped : report.skipped = some ⟨saturate amount, saturate level, saturate available⟩)

theorem answers_stamped (time : Nat) (events : List PaymasterEvent) :
    answers (events.map fun event => (time, event)) =
      (events.filter PaymasterEvent.isAnswer).map fun event => (time, event) := by
  unfold answers
  rw [List.filter_map]
  rfl

theorem carriedCall_publishes (package : IntentPackage) :
    (carriedCall package).publishes = true := by
  unfold carriedCall
  cases package.body <;> rfl

/-- The logs of a publication that ran are reported as the paymaster's ledger has them. -/
theorem reportOf_reported {sender : Address} {call : Contract.Call} {receipt : Receipt}
    {solvency : SolvencyReport} (hpublishes : call.publishes = true)
    (hexecutes : Executes keccak256 dep block sender call before after)
    (hlogs : after.paymasterLog = before.paymasterLog ++
      (emitted dep.paymaster receipt.logs).map fun event => (block.timestamp, event)) :
    Reported block before after sender call.declares (reportOf dep.paymaster solvency receipt) := by
  obtain ⟨msg, next, frame, rfl, hcall, hinside⟩ := hexecutes
  obtain ⟨out, haccepted, _⟩ := Contract.callInstance_accepted hcall
  obtain ⟨amount, hanswered⟩ := Contract.publication_answered hpublishes hcall hinside
  have hgained : answers after.paymasterLog = answers before.paymasterLog ++
      ((emitted dep.paymaster receipt.logs).filter PaymasterEvent.isAnswer).map
        fun event => (block.timestamp, event) := by
    rw [← answers_stamped, hlogs]
    exact List.filter_append _ _
  have hread : ∀ {events : List PaymasterEvent}, answers after.paymasterLog =
      answers before.paymasterLog ++ events.map (fun event => (block.timestamp, event)) →
      readLogs dep.paymaster (none, none) receipt.logs = events.foldl readEvent (none, none) := by
    intro events hevents
    rw [hgained, List.append_cancel_left_eq] at hevents
    rw [readLogs_eq, List.map_injective_iff.mpr (Prod.mk_right_injective _) hevents]
  rcases hanswered with hnone | ⟨charged, hreimburse, hledger⟩
  · have hfound : readLogs dep.paymaster (none, none) receipt.logs = [].foldl readEvent (none, none) :=
      hread (by rw [hnone, List.map_nil, List.append_nil])
    exact .unanswered hnone (congrArg Prod.fst hfound) (congrArg Prod.snd hfound)
  · have hfound := hread hledger
    obtain ⟨level, _, _, ⟨_, rfl⟩ | ⟨_, hfunded, rfl⟩⟩ :=
      Contract.Paymaster.reimburse_eq_ok hreimburse
    · exact .skipped hledger (congrArg Prod.fst hfound) (congrArg Prod.snd hfound)
    · have hbound := haccepted.bound
      have hexact : saturate amount = amount := by
        unfold Contract.etherBound Chain.ether at hbound
        exact saturate_of_lt (by omega)
      refine .reimbursed hledger ?_ (congrArg Prod.snd hfound)
      rw [← hexact]
      exact congrArg Prod.fst hfound

/-- A carriage sends nothing, or one transaction that has passed all its checks.  When it
returns from a live run, its package was executed as that transaction, and the report says of
the reimbursement just what the paymaster's ledger says. -/
theorem carry_reports {sha256 : ByteString → Word 32} {kzg : Kzg}
    {abiEncode : Contract.Call → ByteString} {endpoint : CarryEndpoint} {package : IntentPackage}
    {carrier : Address} {options : CarryOptions}
    (hmines : Mines keccak256 dep block endpoint (carriedCall package)
      (abiEncode (carriedCall package)) before after)
    (hself : package.instanceAddress = dep.self) {result : Except CarryError CarryReport}
    {sent : List TransactionRequest}
    (hcarry : carry keccak256 sha256 kzg abiEncode endpoint package carrier options =
      (result, sent)) :
    (sent = [] ∨ ∃ solvency tx, sent = [tx] ∧
      Cleared keccak256 sha256 kzg abiEncode endpoint package carrier options solvency tx) ∧
    ∀ report, result = .ok report → options.dryRun = false →
      ∃ tx, sent = [tx] ∧
        Cleared keccak256 sha256 kzg abiEncode endpoint package carrier options report.solvency tx ∧
        Executes keccak256 dep block carrier (carriedCall package) before after ∧
        Reported block before after carrier (carriedCall package).declares report := by
  rcases carry_cases keccak256 sha256 kzg abiEncode endpoint package carrier options with
    ⟨_, hends, hfails⟩ | ⟨solvency, tx, paymaster, hcleared, hpaymaster, hends⟩
  · obtain ⟨rfl, rfl⟩ := Prod.mk.inj (hcarry.symm.trans hends)
    refine ⟨Or.inl rfl, ?_⟩
    rintro report rfl hlive
    obtain ⟨e, herror⟩ := hfails hlive
    cases herror
  · rcases hends with ⟨e, hends⟩ | ⟨receipt, hreceipt, hstatus, hends⟩
    · obtain ⟨rfl, rfl⟩ := Prod.mk.inj (hcarry.symm.trans hends)
      refine ⟨Or.inr ⟨solvency, tx, rfl, hcleared⟩, ?_⟩
      rintro report hok
      cases hok
    · obtain ⟨rfl, rfl⟩ := Prod.mk.inj (hcarry.symm.trans hends)
      refine ⟨Or.inr ⟨solvency, tx, rfl, hcleared⟩, ?_⟩
      rintro report hok hlive
      obtain rfl := Except.ok.inj hok
      obtain rfl := hmines.paymaster paymaster hpaymaster
      obtain ⟨hexecutes, hlogs⟩ := hmines.executed tx receipt hreceipt hstatus
        (hcleared.target.trans hself) hcleared.input
      rw [hcleared.sender] at hexecutes
      exact ⟨tx, rfl, hcleared, hexecutes,
        reportOf_reported (carriedCall_publishes package) hexecutes hlogs⟩

end

/-! ## One carriage

A pointer package for a deployment whose paymaster can pay. -/

theorem hundred_fits : 100 < 2 ^ 64 := by decide

def pointerPackage : IntentPackage where
  chainId := 1
  instanceAddress := Contract.fundedDeployment.self
  body := .setAppPointer ⟨0, 100, Contract.zeroHash, Contract.zero_fits, hundred_fits⟩
  signature := List.replicate 65 0
  chainIdFits := Contract.one_fits

/-- The calldata of a pointer call; the other calls do not occur here. -/
def pointerAbi : Contract.Call → ByteString
  | .setAppPointer nonce deadline pointer sig => [0x7f, 0xdc, 0x56, 0xb3] ++ Contract.abiNat nonce ++
      Contract.abiNat deadline ++ pointer.toList ++ Contract.abiNat 128 ++ Contract.abiNat sig.length ++
      sig ++ List.replicate ((32 - sig.length % 32) % 32) 0
  | _ => []

def pointerMsg : Contract.Msg := { Contract.carrierMsg with dataLength := 260 }

def pointedChain : Chain × Option (Library.Frame Chain Contract.Rest) :=
  (Contract.payingChain.callInstance Contract.fundedDeployment Contract.stakeBlock Keccak.keccak256
    pointerMsg (carriedCall pointerPackage)).getD (Contract.payingChain, none)

/-- The chain when the carrier has taken its money. -/
def settledChain : Chain := pointedChain.1.release

def payingReceipt : Receipt where
  status := true
  transactionHash := Contract.zeroHash
  blockNumber := some 1
  gasUsed := 46000
  logs := [⟨Contract.fundedDeployment.self, none⟩, ⟨Contract.fundedDeployment.paymaster,
    some (.reimbursed pointerMsg.sender 50160 false)⟩]

def payingEndpoint : CarryEndpoint where
  provider :=
    { chainId := .ok 1
      latest := .ok (some ⟨1, 7⟩)
      views := fun _ _ => ⟨.ok Contract.fundedDeployment.params.publisher, .ok 0, .ok 0, .ok 0, .ok 0,
        .ok []⟩
      isValidSignature := fun _ _ _ _ => .returned Contract.erc1271Magic
      blobBaseFee := .ok 1
      estimateGas := fun _ => .ok 0 }
  solvency := deployedProvider Contract.fundedDeployment 200000
  paymaster := .ok Contract.fundedDeployment.paymaster
  sendTransaction := fun tx =>
    if tx.sender = pointerMsg.sender then .ok payingReceipt else .error "unknown account"

theorem payingChain_pointed : Contract.payingChain.callInstance Contract.fundedDeployment
    Contract.stakeBlock Keccak.keccak256 pointerMsg (carriedCall pointerPackage) =
      some pointedChain := by
  have hruns : (Contract.payingChain.callInstance Contract.fundedDeployment Contract.stakeBlock
      Keccak.keccak256 pointerMsg (carriedCall pointerPackage)).isSome = true := rfl
  obtain ⟨result, hcall⟩ := Option.isSome_iff_exists.mp hruns
  unfold pointedChain
  rw [hcall]
  rfl

/-- A pointer package has no blobs to commit to. -/
def unusedKzg : Kzg where
  blobToKzgCommitment _ := .error "no blobs"
  verifyKzgProof _ _ _ _ := .error "no blobs"
  computeBlobKzgProof _ _ := .error "no blobs"

theorem pointerAbi_length : (pointerAbi (carriedCall pointerPackage)).length = 260 := by
  simp [pointerAbi, carriedCall, pointerPackage, Contract.abiNat]

def pointerTx : TransactionRequest where
  sender := pointerMsg.sender
  target := Contract.fundedDeployment.self
  input := pointerAbi (carriedCall pointerPackage)
  sidecar := none
  maxFeePerBlobGas := none
  gas := some 0

theorem pointer_inspected (sha256 : ByteString → Word 32) (kzg : Kzg) :
    inspect Keccak.keccak256 sha256 kzg pointerAbi payingEndpoint pointerPackage pointerMsg.sender =
      .ok (⟨pointerTx, 0, 0, 260, false⟩, ⟨62700, 1000000, 200000, true⟩) := by
  have hready : preflight Keccak.keccak256 kzg pointerAbi payingEndpoint.provider pointerPackage ⟨[]⟩
      pointerMsg.sender = .ok ⟨pointerTx, 0, 0, (pointerAbi (carriedCall pointerPackage)).length,
        false⟩ := rfl
  have hvalid : Intents.validate sha256 kzg pointerPackage = .ok ⟨[]⟩ := rfl
  have hchecked : check payingEndpoint.solvency 0 260 0 false =
      .ok ⟨62700, 1000000, 200000, true⟩ := rfl
  rw [pointerAbi_length] at hready
  refine bind_eq_ok.mpr ⟨_, mapError_eq_ok.mpr hvalid, ?_⟩
  refine bind_eq_ok.mpr ⟨_, mapError_eq_ok.mpr hready, ?_⟩
  exact bind_eq_ok.mpr ⟨_, mapError_eq_ok.mpr hchecked, rfl⟩

theorem pointer_carried (sha256 : ByteString → Word 32) (kzg : Kzg) :
    carry Keccak.keccak256 sha256 kzg pointerAbi payingEndpoint pointerPackage pointerMsg.sender
        ⟨false, false⟩ =
      (.ok (reportOf Contract.fundedDeployment.paymaster ⟨62700, 1000000, 200000, true⟩
        payingReceipt), [pointerTx]) := by
  unfold carry
  rw [pointer_inspected]
  rfl
set_option maxRecDepth 10000 in
theorem settledChain_log : settledChain.paymasterLog = Contract.payingChain.paymasterLog ++
    [(7, .reimbursed pointerMsg.sender 50160 false)] := rfl

set_option maxRecDepth 10000 in
theorem pointedChain_waits : ∃ waiting, pointedChain.2 = some waiting ∧
    waiting.onSuccess = .reimbursed := ⟨_, rfl, rfl⟩

theorem payingEndpoint_mines : Mines Keccak.keccak256 Contract.fundedDeployment Contract.stakeBlock
    payingEndpoint (carriedCall pointerPackage) (pointerAbi (carriedCall pointerPackage))
    Contract.payingChain settledChain := by
  refine ⟨fun address hok => (Except.ok.inj hok).symm, ?_⟩
  intro tx receipt hsend _ _ _
  change (if tx.sender = pointerMsg.sender then Except.ok payingReceipt else _) = _ at hsend
  split_ifs at hsend with hsender
  obtain rfl := Except.ok.inj hsend
  obtain ⟨waiting, hwaiting, hrest⟩ := pointedChain_waits
  have hemitted : emitted Contract.fundedDeployment.paymaster payingReceipt.logs =
      [.reimbursed pointerMsg.sender 50160 false] := rfl
  have hresume : settledChain = pointedChain.1.release := rfl
  rw [hemitted]
  refine ⟨⟨pointerMsg, pointedChain.1, pointedChain.2, hsender.symm, ?_, ?_⟩, settledChain_log⟩
  · rw [Prod.mk.eta]
    exact payingChain_pointed
  · rw [hwaiting]
    refine .single ⟨.succeeds ?_, [], waiting, rfl⟩
    rw [hrest, hresume]
    rfl

/-- The carrier gets its money, and the report has the amount. -/
theorem carry_reports_paid : ∃ report tx, carry Keccak.keccak256 (fun _ => Vector.replicate 32 0)
      unusedKzg pointerAbi payingEndpoint pointerPackage pointerMsg.sender ⟨false, false⟩ =
        (.ok report, [tx]) ∧
    Reported Contract.stakeBlock Contract.payingChain settledChain pointerMsg.sender false report ∧
    report.reimbursed = some 50160 := by
  have hcarry := pointer_carried (fun _ => Vector.replicate 32 0) unusedKzg
  obtain ⟨tx, _, _, _, hreported⟩ :=
    (carry_reports payingEndpoint_mines rfl hcarry).2 _ rfl rfl
  exact ⟨_, _, hcarry, hreported, rfl⟩

end Blobsitter.Carrier
