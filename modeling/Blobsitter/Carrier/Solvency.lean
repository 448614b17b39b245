import Blobsitter.Contract.Allowance
import Blobsitter.Contract.Publication

/-!
# The solvency check

Reimbursement is all or nothing, so before it sends a package a carrier computes the
amount with the contract's own formula, with headroom on both fees, and holds it against
the paymaster's bucket and balance.  Numbers are 128-bit.
-/

namespace Blobsitter.Carrier

open Library
open Reference (Address)
open Contract (Deployment Block Msg PaymasterAccount PaymasterRun)

/-- The contract's remainder after the measured gas. -/
def tailGas : Nat := 25000

def blobGas : Nat := 131072

structure SolvencyReport where
  expectedReimbursement : Nat
  bucketLevel : Nat
  availableBalance : Nat
  covered : Bool

/-- What the endpoint answers; a header may lack its base fee. -/
structure SolvencyProvider where
  paymaster : Except String Address
  latest : Except String (Option (Option Nat))
  blobBaseFee : Except String Nat
  carrierTipWei : Except String Nat
  provingSubsidyWei : Except String Nat
  bucketLevel : Address → Except String Nat
  availableBalance : Address → Except String Nat

/-- `try_into().unwrap_or(u128::MAX)`. -/
def saturate (n : Nat) : Nat := if n < 2 ^ 128 then n else 2 ^ 128 - 1

/-- A quarter on top, for a fee that rises before inclusion. -/
def headroom (feeTerm : Nat) : Nat := (feeTerm + feeTerm / 4) % 2 ^ 128

/-- The expected amount; the additions wrap, so one reduction at each division is enough. -/
def expectedReimbursement (gasEstimate calldataLen numBlobs baseFee blobBaseFee tip subsidy : Nat) :
    Nat :=
  let execution := headroom ((gasEstimate + 21000 + 16 * calldataLen + tailGas) * baseFee % 2 ^ 128)
  let blobFee := headroom (numBlobs * blobGas * blobBaseFee % 2 ^ 128)
  (blobFee + execution + tip + subsidy) % 2 ^ 128

def check (provider : SolvencyProvider) (gasEstimate calldataLen numBlobs : Nat)
    (isDeclaration : Bool) : Except String SolvencyReport := do
  let paymaster ← provider.paymaster
  let latest ← provider.latest
  let header ← latest.elim (.error "no latest block") .ok
  let baseFee := header.getD 0
  let blobBaseFee ← provider.blobBaseFee
  let tip ← provider.carrierTipWei
  let subsidy ← bif isDeclaration then provider.provingSubsidyWei else .ok 0
  let expected := expectedReimbursement gasEstimate calldataLen numBlobs baseFee blobBaseFee
    (saturate tip) (saturate subsidy)
  let level ← provider.bucketLevel paymaster
  let available ← provider.availableBalance paymaster
  return ⟨expected, saturate level, saturate available,
    expected ≤ saturate level && expected ≤ saturate available⟩

/-- The sums of the expected amount, unbounded. -/
def unboundedReimbursement
    (gasEstimate calldataLen numBlobs baseFee blobBaseFee tip subsidy : Nat) : Nat :=
  (numBlobs * blobGas * blobBaseFee + numBlobs * blobGas * blobBaseFee / 4) +
    ((gasEstimate + 21000 + 16 * calldataLen + tailGas) * baseFee +
      (gasEstimate + 21000 + 16 * calldataLen + tailGas) * baseFee / 4) + tip + subsidy

theorem headroom_eq {feeTerm : Nat} (hfits : feeTerm + feeTerm / 4 < 2 ^ 128) :
    headroom (feeTerm % 2 ^ 128) = feeTerm + feeTerm / 4 := by
  have hterm : feeTerm < 2 ^ 128 := (Nat.le_add_right _ _).trans_lt hfits
  rw [headroom, Nat.mod_eq_of_lt hterm, Nat.mod_eq_of_lt hfits]

theorem expectedReimbursement_eq
    {gasEstimate calldataLen numBlobs baseFee blobBaseFee tip subsidy : Nat}
    (hfits : unboundedReimbursement gasEstimate calldataLen numBlobs baseFee blobBaseFee tip subsidy <
      2 ^ 128) :
    expectedReimbursement gasEstimate calldataLen numBlobs baseFee blobBaseFee tip subsidy =
      unboundedReimbursement gasEstimate calldataLen numBlobs baseFee blobBaseFee tip subsidy := by
  unfold unboundedReimbursement at hfits ⊢
  have hblob : numBlobs * blobGas * blobBaseFee + numBlobs * blobGas * blobBaseFee / 4 < 2 ^ 128 := by
    omega
  have hexecution : (gasEstimate + 21000 + 16 * calldataLen + tailGas) * baseFee +
      (gasEstimate + 21000 + 16 * calldataLen + tailGas) * baseFee / 4 < 2 ^ 128 := by
    omega
  unfold expectedReimbursement
  simp only
  rw [headroom_eq hblob, headroom_eq hexecution, Nat.mod_eq_of_lt hfits]

/-- A quarter more on the fee, rounded down, covers a fee that has risen by a quarter. -/
theorem fee_covered {units units' fee fee' : Nat} (hunits : units' ≤ units)
    (hfee : 4 * fee' ≤ 5 * fee) : units' * fee' ≤ units * fee + units * fee / 4 := by
  have hraised : 4 * (units' * fee') ≤ 5 * (units * fee) := by
    calc 4 * (units' * fee') = units' * (4 * fee') := by ring
      _ ≤ units * (5 * fee) := Nat.mul_le_mul hunits hfee
      _ = 5 * (units * fee) := by ring
  omega

/-- What the endpoint answers is what the contracts compute in one state. -/
structure Quotes (provider : SolvencyProvider) (dep : Deployment) (seen : Block)
    (account : PaymasterAccount) (baseFee blobBaseFee : Nat) : Prop where
  paymaster : ∀ address, provider.paymaster = .ok address → address = dep.paymaster
  latest : ∀ header, provider.latest = .ok (some header) → header.getD 0 = baseFee
  blobBaseFee : ∀ fee, provider.blobBaseFee = .ok fee → fee = blobBaseFee
  carrierTipWei : ∀ tip, provider.carrierTipWei = .ok tip → tip = dep.params.carrierTipWei
  provingSubsidyWei : ∀ subsidy, provider.provingSubsidyWei = .ok subsidy →
    subsidy = dep.params.provingSubsidyWei
  bucketLevel : ∀ level, provider.bucketLevel dep.paymaster = .ok level →
    account.paymaster.bucketLevel dep.params seen = .ok level
  availableBalance : ∀ available, provider.availableBalance dep.paymaster = .ok available →
    account.paymaster.availableBalance account.balance = .ok available

/-- The subsidy that the amount includes. -/
def subsidyOf (dep : Deployment) (isDeclaration : Bool) : Nat :=
  if isDeclaration then dep.params.provingSubsidyWei else 0

section

variable {provider : SolvencyProvider} {dep : Deployment} {seen block : Block}
variable {account later : PaymasterAccount} {msg : Msg} {report : SolvencyReport}
variable {gasEstimate calldataLen numBlobs baseFee blobBaseFee : Nat} {isDeclaration : Bool}

theorem le_saturate {n expected : Nat} (hle : expected ≤ saturate n) : expected ≤ n := by
  unfold saturate at hle
  split at hle
  · exact hle
  · omega

theorem saturate_of_lt {n : Nat} (hlt : n < 2 ^ 128) : saturate n = n := if_pos hlt

/-- The contract's amount is at most the expected one. -/
theorem reimbursement_le (hgas : gasEstimate < 2 ^ 64) (hlength : calldataLen < 2 ^ 64)
    (hblobs : numBlobs < 2 ^ 64) (hdata : msg.dataLength = calldataLen)
    (hmeasured : msg.gasUsed ≤ gasEstimate) (hfee : 4 * block.basefee ≤ 5 * baseFee)
    (hblobFee : 4 * block.blobbasefee ≤ 5 * blobBaseFee)
    (hfits : unboundedReimbursement gasEstimate calldataLen numBlobs baseFee blobBaseFee
      dep.params.carrierTipWei (subsidyOf dep isDeclaration) < 2 ^ 128) :
    ∃ amount, Contract.reimbursement dep block msg numBlobs isDeclaration = .ok amount ∧
      amount ≤ unboundedReimbursement gasEstimate calldataLen numBlobs baseFee blobBaseFee
        dep.params.carrierTipWei (subsidyOf dep isDeclaration) := by
  have hunits : msg.gasUsed + 21000 + 16 * msg.dataLength + tailGas ≤
      gasEstimate + 21000 + 16 * calldataLen + tailGas := by
    omega
  have hexecution := fee_covered hunits hfee
  have hblob := fee_covered (le_refl (numBlobs * blobGas)) hblobFee
  unfold unboundedReimbursement at hfits ⊢
  unfold tailGas at hunits hexecution hfits ⊢
  unfold blobGas at hblob hfits ⊢
  unfold Contract.reimbursement
  rw [Contract.checkedMul_ok (by omega), ok_bind, Contract.checkedMul_ok (by omega), ok_bind,
    Contract.checkedMul_ok (by omega), ok_bind, Contract.checkedAdd_ok (by omega), ok_bind,
    Contract.checkedAdd_ok (by omega), ok_bind, Contract.checkedAdd_ok (by omega), ok_bind,
    Contract.checkedMul_ok (by omega), ok_bind, Contract.checkedAdd_ok (by omega), ok_bind,
    Contract.checkedAdd_ok (by omega), ok_bind]
  change ∃ amount, Contract.checkedAdd 256 _ (subsidyOf dep isDeclaration) = _ ∧ _
  rw [Contract.checkedAdd_ok (by omega)]
  exact ⟨_, rfl, by omega⟩

/-- A covered report stands for an amount within the allowance and the balance. -/
theorem check_covered (hquotes : Quotes provider dep seen account baseFee blobBaseFee)
    (hok : check provider gasEstimate calldataLen numBlobs isDeclaration = .ok report)
    (hcovered : report.covered = true)
    (hfits : unboundedReimbursement gasEstimate calldataLen numBlobs baseFee blobBaseFee
      dep.params.carrierTipWei (subsidyOf dep isDeclaration) < 2 ^ 128) :
    report.expectedReimbursement = unboundedReimbursement gasEstimate calldataLen numBlobs baseFee
        blobBaseFee dep.params.carrierTipWei (subsidyOf dep isDeclaration) ∧
      (∃ level, account.paymaster.bucketLevel dep.params seen = .ok level ∧
        report.expectedReimbursement ≤ level) ∧
      ∃ available, account.paymaster.availableBalance account.balance = .ok available ∧
        report.expectedReimbursement ≤ available := by
  obtain ⟨paymaster, hpaymaster, hok⟩ := bind_eq_ok.mp hok
  obtain ⟨latest, hlatest, hok⟩ := bind_eq_ok.mp hok
  obtain ⟨header, hheader, hok⟩ := bind_eq_ok.mp hok
  obtain ⟨fee, hfee, hok⟩ := bind_eq_ok.mp hok
  obtain ⟨tip, htip, hok⟩ := bind_eq_ok.mp hok
  obtain ⟨subsidy, hsubsidy, hok⟩ := bind_eq_ok.mp hok
  obtain ⟨level, hlevel, hok⟩ := bind_eq_ok.mp hok
  obtain ⟨available, havailable, hok⟩ := bind_eq_ok.mp hok
  obtain rfl := pure_eq_ok.mp hok
  obtain rfl := hquotes.paymaster paymaster hpaymaster
  cases latest with
  | none => cases hheader
  | some first =>
      obtain rfl : first = header := Except.ok.inj hheader
      obtain rfl := hquotes.latest first hlatest
      obtain rfl := hquotes.blobBaseFee fee hfee
      obtain rfl := hquotes.carrierTipWei tip htip
      have hsubsidy' : subsidy = subsidyOf dep isDeclaration := by
        cases isDeclaration with
        | true => exact hquotes.provingSubsidyWei subsidy hsubsidy
        | false => exact (Except.ok.inj hsubsidy).symm
      subst hsubsidy'
      have htips : dep.params.carrierTipWei < 2 ^ 128 ∧ subsidyOf dep isDeclaration < 2 ^ 128 := by
        unfold unboundedReimbursement at hfits
        constructor <;> omega
      rw [Bool.and_eq_true, decide_eq_true_eq, decide_eq_true_eq] at hcovered
      simp only at hcovered ⊢
      rw [saturate_of_lt htips.1, saturate_of_lt htips.2, expectedReimbursement_eq hfits] at hcovered ⊢
      exact ⟨rfl, ⟨level, hquotes.bucketLevel level hlevel, le_saturate hcovered.1⟩,
        available, hquotes.availableBalance available havailable, le_saturate hcovered.2⟩

/-- The paymaster's request is paid wherever its bucket's arithmetic fits. -/
theorem reimburse_paid_iff {carrier : Address} {amount available : Nat}
    (hupdated : later.paymaster.lastBucketUpdate ≤ block.timestamp)
    (hallowed : amount ≤ later.paymaster.allowance dep.params block)
    (havailable : later.paymaster.availableBalance later.balance = .ok available)
    (hfunded : amount ≤ available) :
    (∃ out, later.paymaster.reimburse dep.params block later.balance carrier amount isDeclaration =
        .ok out ∧ out.tail = .payout carrier amount ∧
        out.events = [.reimbursed carrier amount isDeclaration]) ↔
      later.paymaster.BucketFits dep.params block := by
  constructor
  · rintro ⟨out, hok, _⟩
    obtain ⟨level, hlevel, _⟩ := Contract.Paymaster.reimburse_eq_ok hok
    obtain ⟨_, hproduct, hsum, _⟩ := Contract.Paymaster.bucketLevel_eq_ok.mp hlevel
    exact ⟨hproduct, hsum⟩
  · rintro ⟨hproduct, hsum⟩
    have hlevel : later.paymaster.bucketLevel dep.params block =
        .ok (later.paymaster.allowance dep.params block) :=
      Contract.Paymaster.bucketLevel_eq_ok.mpr ⟨hupdated, hproduct, hsum, rfl⟩
    have hcovered : ¬(amount > later.paymaster.allowance dep.params block ∨ amount > available) := by
      rw [not_or, not_lt, not_lt]
      exact ⟨hallowed, hfunded⟩
    unfold Contract.Paymaster.reimburse
    rw [hlevel, havailable]
    simp only [Contract.Checked.orPanic, ok_bind]
    rw [if_neg hcovered]
    exact ⟨_, rfl, rfl, rfl⟩

/-- After a covered report, fees may rise by a quarter and time may pass: the contract's
amount is at most the expected one, and as long as the paymaster pays nothing else and
its available balance does not fall, its request is paid wherever the bucket's arithmetic
fits in a word. -/
theorem covered_report_honoured
    (hquotes : Quotes provider dep seen account baseFee blobBaseFee)
    (hgas : gasEstimate < 2 ^ 64) (hlength : calldataLen < 2 ^ 64) (hblobs : numBlobs < 2 ^ 64)
    (hfits : unboundedReimbursement gasEstimate calldataLen numBlobs baseFee blobBaseFee
      dep.params.carrierTipWei (subsidyOf dep isDeclaration) < 2 ^ 128)
    (hok : check provider gasEstimate calldataLen numBlobs isDeclaration = .ok report)
    (hcovered : report.covered = true)
    (hdata : msg.dataLength = calldataLen) (hmeasured : msg.gasUsed ≤ gasEstimate)
    (hfee : 4 * block.basefee ≤ 5 * baseFee) (hblobFee : 4 * block.blobbasefee ≤ 5 * blobBaseFee)
    (hrun : PaymasterRun dep.params seen account block later)
    (hnone : Contract.reimbursements later.log = Contract.reimbursements account.log)
    (havailable : ∀ available, account.paymaster.availableBalance account.balance = .ok available →
      ∃ left, later.paymaster.availableBalance later.balance = .ok left ∧ available ≤ left) :
    ∃ amount, Contract.reimbursement dep block msg numBlobs isDeclaration = .ok amount ∧
      amount ≤ report.expectedReimbursement ∧
      ((∃ out, later.paymaster.reimburse dep.params block later.balance msg.sender amount
          isDeclaration = .ok out ∧ out.tail = .payout msg.sender amount ∧
          out.events = [.reimbursed msg.sender amount isDeclaration]) ↔
        later.paymaster.BucketFits dep.params block) := by
  obtain ⟨hexpected, ⟨level, hlevel, hallowed⟩, available, hquoted, hfunded⟩ :=
    check_covered hquotes hok hcovered hfits
  obtain ⟨amount, hamount, hle⟩ := reimbursement_le hgas hlength hblobs hdata hmeasured hfee hblobFee
    hfits
  rw [← hexpected] at hle
  have hkeeps := hrun.keeps (Contract.Paymaster.bucketLevel_eq_ok.mp hlevel).1
  obtain ⟨left, hleft, hrest⟩ := havailable available hquoted
  have hallowance : amount ≤ later.paymaster.allowance dep.params block := by
    calc amount ≤ level := hle.trans hallowed
      _ = account.paymaster.allowance dep.params seen :=
        Contract.Paymaster.bucketLevel_level hlevel
      _ ≤ later.paymaster.allowance dep.params block := hkeeps.allowed hnone
  exact ⟨amount, hamount, hle,
    reimburse_paid_iff hkeeps.updated hallowance hleft ((hle.trans hfunded).trans hrest)⟩

end

/-! ## Two paymasters

Both hold 100000 wei.  The first pays a report's amount; in the second the sum with the
full bucket overflows a second later. -/

/-- The endpoint of a deployment, asked in the block of the deployment. -/
def deployedProvider (dep : Deployment) (balance : Nat) : SolvencyProvider where
  paymaster := .ok dep.paymaster
  latest := .ok (some (some 1))
  blobBaseFee := .ok 1
  carrierTipWei := .ok dep.params.carrierTipWei
  provingSubsidyWei := .ok dep.params.provingSubsidyWei
  bucketLevel _ := .ok dep.params.bucketCapWei
  availableBalance _ := .ok balance

def fundedAccount (dep : Deployment) : PaymasterAccount :=
  ⟨.deployed dep.params Contract.stakeBlock, 100000, []⟩

theorem deployedProvider_quotes (dep : Deployment) (hcap : dep.params.bucketCapWei < 2 ^ 256) :
    Quotes (deployedProvider dep 100000) dep Contract.stakeBlock (fundedAccount dep) 1 1 := by
  constructor
  case paymaster => exact fun address heq => (Except.ok.inj heq).symm
  case latest =>
    rintro header heq
    rw [← Option.some.inj (Except.ok.inj heq)]
    rfl
  case blobBaseFee => exact fun fee heq => (Except.ok.inj heq).symm
  case carrierTipWei => exact fun tip heq => (Except.ok.inj heq).symm
  case provingSubsidyWei => exact fun subsidy heq => (Except.ok.inj heq).symm
  case bucketLevel =>
    rintro level heq
    obtain rfl := Except.ok.inj heq
    refine Contract.Paymaster.bucketLevel_eq_ok.mpr ⟨Nat.mod_le _ _, ?_⟩
    have hnow : Contract.stakeBlock.timestamp -
        (fundedAccount dep).paymaster.lastBucketUpdate = 0 := rfl
    rw [hnow, Nat.mul_zero, Nat.zero_div, Nat.add_zero]
    exact ⟨Nat.two_pow_pos 256, hcap, (min_self _).symm⟩
  case availableBalance =>
    rintro available heq
    obtain rfl := Except.ok.inj heq
    rfl

theorem deployedProvider_check (dep : Deployment) (balance : Nat) :
    check (deployedProvider dep balance) 0 0 0 false =
      .ok ⟨expectedReimbursement 0 0 0 1 1 (saturate dep.params.carrierTipWei) (saturate 0),
        saturate dep.params.bucketCapWei, saturate balance,
        expectedReimbursement 0 0 0 1 1 (saturate dep.params.carrierTipWei) (saturate 0) ≤
            saturate dep.params.bucketCapWei &&
          expectedReimbursement 0 0 0 1 1 (saturate dep.params.carrierTipWei) (saturate 0) ≤
            saturate balance⟩ := rfl

def coveredReport (level : Nat) : SolvencyReport := ⟨57500, level, 100000, true⟩

theorem covered_report_paid : ∃ amount, Contract.reimbursement Contract.fundedDeployment
      Contract.secondBlock Contract.carrierMsg 0 false = .ok amount ∧
    ∃ out, (fundedAccount Contract.fundedDeployment).paymaster.reimburse
      Contract.fundedDeployment.params Contract.secondBlock 100000 Contract.carrierMsg.sender amount
      false = .ok out ∧ out.tail = .payout Contract.carrierMsg.sender amount := by
  have hquotes := deployedProvider_quotes Contract.fundedDeployment
    Contract.fundedDeployment.inRange.bucketCapWei
  have hcheck : check (deployedProvider Contract.fundedDeployment 100000) 0 0 0 false =
      .ok (coveredReport 1000000) := rfl
  have hrun : PaymasterRun Contract.fundedDeployment.params Contract.stakeBlock
      (fundedAccount Contract.fundedDeployment) Contract.secondBlock
      (fundedAccount Contract.fundedDeployment) := .advance .refl (by decide)
  have hdata : Contract.carrierMsg.dataLength = 0 := rfl
  have hmeasured : Contract.carrierMsg.gasUsed ≤ 0 := le_rfl
  obtain ⟨amount, hamount, _, hpaid⟩ := covered_report_honoured hquotes Contract.zero_fits
    Contract.zero_fits Contract.zero_fits (by decide) hcheck rfl hdata hmeasured (by decide)
    (by decide) hrun rfl (fun available hok => ⟨available, hok, le_rfl⟩)
  obtain ⟨out, hout, htail, _⟩ := hpaid.mpr ⟨by decide, by decide⟩
  exact ⟨amount, hamount, out, hout, htail⟩

def brimmingDeployment : Deployment where
  params := Contract.brimmingParams
  self := Contract.sampleDeployment.self
  paymaster := Contract.sampleDeployment.paymaster
  inRange := by constructor <;> decide
  self_ne_paymaster := Contract.sampleDeployment.self_ne_paymaster

/-- The report is covered and nothing changes but the time, and the request panics. -/
theorem covered_report_overflows :
    check (deployedProvider brimmingDeployment 100000) 0 0 0 false =
        .ok (coveredReport (2 ^ 128 - 1)) ∧
      Quotes (deployedProvider brimmingDeployment 100000) brimmingDeployment Contract.stakeBlock
        (fundedAccount brimmingDeployment) 1 1 ∧
      Contract.PaymasterReachable brimmingDeployment.params Contract.stakeBlock
        (fundedAccount brimmingDeployment) ∧
      PaymasterRun brimmingDeployment.params Contract.stakeBlock (fundedAccount brimmingDeployment)
        Contract.secondBlock (fundedAccount brimmingDeployment) ∧
      Contract.secondBlock.basefee = 1 ∧ Contract.secondBlock.blobbasefee = 1 ∧
      Contract.carrierMsg.gasUsed = 0 ∧ Contract.carrierMsg.dataLength = 0 ∧
      Contract.reimbursement brimmingDeployment Contract.secondBlock Contract.carrierMsg 0 false =
        .ok 46000 ∧
      (fundedAccount brimmingDeployment).paymaster.reimburse brimmingDeployment.params
        Contract.secondBlock 100000 Contract.carrierMsg.sender 46000 false =
          .error (.panic .arithmetic) := by
  have hlevel : saturate brimmingDeployment.params.bucketCapWei = 2 ^ 128 - 1 :=
    if_neg (by decide)
  have hexpected : expectedReimbursement 0 0 0 1 1
      (saturate brimmingDeployment.params.carrierTipWei) (saturate 0) = 57500 := rfl
  have hcheck : check (deployedProvider brimmingDeployment 100000) 0 0 0 false =
      .ok (coveredReport (2 ^ 128 - 1)) := by
    have hcovers : decide (57500 ≤ 2 ^ 128 - 1) = true := by decide
    rw [deployedProvider_check, hlevel, hexpected, hcovers]
    rfl
  have hamount : Contract.reimbursement brimmingDeployment Contract.secondBlock Contract.carrierMsg
      0 false = .ok 46000 := by decide +kernel
  have hether : (Contract.PaymasterAccount.deployed brimmingDeployment.params
      Contract.stakeBlock).balance + 100000 < Contract.etherBound := by decide
  have hreach : Contract.PaymasterReachable brimmingDeployment.params Contract.stakeBlock
      (fundedAccount brimmingDeployment) := .step (.deployed Contract.stakeBlock) (.forced hether)
  exact ⟨hcheck,
    deployedProvider_quotes brimmingDeployment brimmingDeployment.inRange.bucketCapWei,
    hreach,
    .advance .refl (by decide), rfl, rfl, rfl, rfl, hamount, rfl⟩

end Blobsitter.Carrier
