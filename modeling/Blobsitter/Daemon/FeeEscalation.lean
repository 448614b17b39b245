import Blobsitter.Daemon.Persist
import Blobsitter.Reference.Hashing

/-!
# Sending with fee escalation

While chain time is inside the deadline the sender replaces its transaction by one with
higher fees, under the same nonce.  Fees are 128-bit.  A pool takes a replacement that
raises both fees by a tenth.
-/

namespace Blobsitter.Daemon

open Library
open Reference (Hash)

def maxAttempts : Nat := 10

structure Fees where
  maxFeePerGas : Nat
  maxPriorityFeePerGas : Nat

/-- A quarter on top for each pass. -/
def bumpLoop : Nat → Nat → Nat
  | 0, fee => fee
  | left + 1, fee => bumpLoop left ((fee + fee / 4) % 2 ^ 128)

/-- The fee of an attempt. -/
def bump (attempt fee : Nat) : Nat := bumpLoop attempt (max fee 1)

/-- What the sender sets in the transaction. -/
structure Offer where
  nonce : Nat
  fees : Fees

def offer (nonce : Nat) (base : Fees) (attempt : Nat) : Offer :=
  ⟨nonce, bump attempt base.maxFeePerGas, bump attempt base.maxPriorityFeePerGas⟩

/-- An error of the endpoint: its typed payload, when there is one, and its text. -/
structure RpcError where
  payload : Option (Int × String)
  text : String

def mentionsRevert (message : String) : Bool := 1 < (message.toLower.splitOn "revert").length

def isRevert (e : RpcError) : Bool :=
  match e.payload with
  | some (code, message) => code == 3 || mentionsRevert message
  | none => mentionsRevert e.text

inductive SendError where
  | reverted (message : String)
  | deadlinePassed (deadline now : Nat)
  | exhausted (attempts : Nat) (lastError : String)

/-- What the endpoint answers in the course of one attempt.  `receiptStatus` is the outcome of
waiting for the transaction just sent, `transactionReceipt` the status of a receipt asked for
by its hash, if there is one. -/
structure AttemptAnswers where
  chainNow : Except String Nat
  sendTransaction : Except RpcError Hash
  receiptStatus : Except String Bool
  transactionReceipt : Hash → Except String (Option Bool)

structure SendEndpoint where
  transactionCount : Except String Nat
  estimateFees : Except String Fees
  during : Nat → AttemptAnswers

/-- One call of the sender: what it returns, and what it has offered and alarmed. -/
structure Episode where
  result : Except SendError Hash
  offers : List Offer
  alarms : List String

def hashText (hash : Hash) : String :=
  "0x" ++ String.ofList (hash.toList.flatMap fun byte =>
    [hexDigit (byte.toNat / 16), hexDigit (byte.toNat % 16)])

/-- The deadline and the chain time that has reached it; a clock that does not answer
counts as zero. -/
def passedDeadline (chainNow : Except String Nat) (deadline : Option Nat) : Option (Nat × Nat) :=
  deadline.bind fun deadline =>
    let now := chainNow.toOption.getD 0
    if now ≥ deadline then some (deadline, now) else none

def attemptAlarms (label : String) (nonce attempt : Nat) : List String :=
  if attempt > 0 then
    [label ++ ": fee-escalation attempt " ++ toString attempt ++ " (nonce " ++ toString nonce ++ ")"]
  else []

/-- An attempt that was sent, and what comes after it. -/
def Episode.after (label : String) (nonce : Nat) (base : Fees) (attempt : Nat) (rest : Episode) :
    Episode :=
  ⟨rest.result, offer nonce base attempt :: rest.offers,
    attemptAlarms label nonce attempt ++ rest.alarms⟩

/-- The end of an episode. -/
def Episode.ends (result : Except SendError Hash) : Episode := ⟨result, [], []⟩

/-- The first candidate with a receipt of status true. -/
def anyConfirmed (transactionReceipt : Hash → Except String (Option Bool)) :
    List Hash → Option Hash
  | [] => none
  | hash :: hashes =>
      match transactionReceipt hash with
      | .ok (some true) => some hash
      | _ => anyConfirmed transactionReceipt hashes

section

variable (endpoint : SendEndpoint) (label : String) (deadline : Option Nat)

/-- The attempts from number `attempt` on. -/
def sendLoop (nonce : Nat) (base : Fees) : Nat → Nat → List Hash → String → Episode
  | 0, _, _, lastError => .ends (.error (.exhausted maxAttempts lastError))
  | left + 1, attempt, submitted, _ =>
      let answers := endpoint.during attempt
      match passedDeadline answers.chainNow deadline with
      | some (deadline, now) => .ends (.error (.deadlinePassed deadline now))
      | none =>
          .after label nonce base attempt <|
            match answers.sendTransaction with
            | .error e =>
                -- an earlier attempt may have landed, whatever the error says
                match anyConfirmed answers.transactionReceipt submitted with
                | some hash => .ends (.ok hash)
                | none =>
                    if isRevert e then .ends (.error (.reverted e.text))
                    else sendLoop nonce base left (attempt + 1) submitted e.text
            | .ok hash =>
                match answers.receiptStatus with
                | .ok true => .ends (.ok hash)
                | .ok false => .ends (.error (.reverted ("receipt status 0 for " ++ hashText hash)))
                | .error message =>
                    match anyConfirmed answers.transactionReceipt (submitted ++ [hash]) with
                    | some confirmed => .ends (.ok confirmed)
                    | none => sendLoop nonce base left (attempt + 1) (submitted ++ [hash]) message

/-- `send_until`; one nonce and one estimate serve all attempts. -/
def sendUntil : Episode :=
  match endpoint.transactionCount with
  | .error message => .ends (.error (.exhausted 0 message))
  | .ok nonce =>
      match endpoint.estimateFees with
      | .error message => .ends (.error (.exhausted 0 message))
      | .ok base => sendLoop endpoint label deadline nonce base maxAttempts 0 [] ""

end

/-! ## What is offered -/

section

variable {endpoint : SendEndpoint} {label : String} {deadline : Option Nat} {nonce : Nat} {base : Fees}

/-- The attempts that are made are consecutive, and each offers its own fees. -/
theorem sendLoop_offers (left attempt : Nat) (submitted : List Hash) (lastError : String) :
    ∃ made, made ≤ left ∧
      (sendLoop endpoint label deadline nonce base left attempt submitted lastError).offers =
        (List.range' attempt made).map (offer nonce base) := by
  induction left generalizing attempt submitted lastError with
  | zero => exact ⟨0, le_rfl, rfl⟩
  | succ left ih =>
      have hlast : ∀ result, (Episode.after label nonce base attempt (.ends result)).offers =
          (List.range' attempt 1).map (offer nonce base) := fun _ => rfl
      have hgoes : ∀ rest : Episode, (∃ made, made ≤ left ∧
          rest.offers = (List.range' (attempt + 1) made).map (offer nonce base)) →
          ∃ made, made ≤ left + 1 ∧ (Episode.after label nonce base attempt rest).offers =
            (List.range' attempt made).map (offer nonce base) := by
        rintro rest ⟨made, hmade, hrest⟩
        refine ⟨made + 1, Nat.succ_le_succ hmade, ?_⟩
        rw [List.range'_succ, List.map_cons, ← hrest]
        rfl
      unfold sendLoop
      simp only
      split
      · exact ⟨0, Nat.zero_le _, rfl⟩
      · split
        · split
          · exact ⟨1, Nat.le_add_left _ _, hlast _⟩
          · split
            · exact ⟨1, Nat.le_add_left _ _, hlast _⟩
            · exact hgoes _ (ih _ _ _)
        · split
          · exact ⟨1, Nat.le_add_left _ _, hlast _⟩
          · exact ⟨1, Nat.le_add_left _ _, hlast _⟩
          · split
            · exact ⟨1, Nat.le_add_left _ _, hlast _⟩
            · exact hgoes _ (ih _ _ _)

theorem sendUntil_offers (hestimate : endpoint.estimateFees = .ok base) :
    ∃ nonce made, made ≤ maxAttempts ∧ (sendUntil endpoint label deadline).offers =
      (List.range made).map (offer nonce base) := by
  unfold sendUntil
  rw [hestimate]
  split
  · exact ⟨0, 0, Nat.zero_le _, rfl⟩
  · rename_i nonce _
    obtain ⟨made, hmade, hoffers⟩ := @sendLoop_offers endpoint label deadline nonce base maxAttempts 0
      [] ""
    refine ⟨nonce, made, hmade, ?_⟩
    rw [List.range_eq_range']
    exact hoffers

end

/-- One raise without a bound. -/
def raise (fee : Nat) : Nat := fee + fee / 4

theorem le_raise (fee : Nat) : fee ≤ raise fee := Nat.le_add_right _ _

theorem iterate_raise_mono (fee : Nat) {first second : Nat} (hle : first ≤ second) :
    raise^[first] fee ≤ raise^[second] fee := by
  induction hle with
  | refl => exact le_rfl
  | step _ ih =>
      rw [Function.iterate_succ_apply']
      exact ih.trans (le_raise _)

/-- As long as nothing wraps the loop raises the fee once in each pass. -/
theorem bumpLoop_eq {left fee : Nat} (hfits : raise^[left] fee < 2 ^ 128) :
    bumpLoop left fee = raise^[left] fee := by
  induction left generalizing fee with
  | zero => rfl
  | succ left ih =>
      have hone : raise fee < 2 ^ 128 :=
        (iterate_raise_mono fee (Nat.le_add_left 1 left)).trans_lt hfits
      rw [Function.iterate_succ_apply] at hfits ⊢
      change bumpLoop left (raise fee % 2 ^ 128) = _
      rw [Nat.mod_eq_of_lt hone]
      exact ih hfits

/-- From four wei on, a raise is at least a tenth; below it is nothing. -/
theorem raise_tenth_iff {fee : Nat} (hpositive : 1 ≤ fee) : 11 * fee ≤ 10 * raise fee ↔ 4 ≤ fee := by
  unfold raise
  omega

theorem four_le_iterate_raise {fee : Nat} (count : Nat) : 4 ≤ raise^[count] fee ↔ 4 ≤ fee := by
  induction count with
  | zero => exact Iff.rfl
  | succ count ih =>
      rw [Function.iterate_succ_apply', ← ih]
      unfold raise
      omega

/-- The fee of no attempt exceeds 128 bits. -/
def FeeFits (fee : Nat) : Prop := raise^[maxAttempts - 1] (max fee 1) < 2 ^ 128

theorem bump_tenth_iff {fee k : Nat} (hfits : FeeFits fee) (hk : k + 1 < maxAttempts) :
    11 * bump k fee ≤ 10 * bump (k + 1) fee ↔ 4 ≤ fee := by
  have hlater : raise^[k + 1] (max fee 1) < 2 ^ 128 :=
    (iterate_raise_mono _ (Nat.le_sub_one_of_lt hk)).trans_lt hfits
  have hearlier : raise^[k] (max fee 1) < 2 ^ 128 :=
    (iterate_raise_mono _ (Nat.le_succ k)).trans_lt hlater
  have hpositive : 1 ≤ raise^[k] (max fee 1) :=
    (le_max_right fee 1).trans (iterate_raise_mono _ (Nat.zero_le k))
  rw [bump, bump, bumpLoop_eq hlater, bumpLoop_eq hearlier, Function.iterate_succ_apply',
    raise_tenth_iff hpositive, four_le_iterate_raise]
  omega

/-- The pool's floor: the same nonce, and a tenth more on both fees. -/
structure Replaces (first second : Offer) : Prop where
  nonce : second.nonce = first.nonce
  maxFee : 11 * first.fees.maxFeePerGas ≤ 10 * second.fees.maxFeePerGas
  maxPriorityFee : 11 * first.fees.maxPriorityFeePerGas ≤ 10 * second.fees.maxPriorityFeePerGas

/-- Every attempt replaces the one before exactly when both estimated fees are at least
four wei; an episode offers nothing but these attempts, in their order. -/
theorem escalation_replaces_iff {base : Fees} (hmax : FeeFits base.maxFeePerGas)
    (hpriority : FeeFits base.maxPriorityFeePerGas) :
    (∀ k, k + 1 < maxAttempts →
      ((∀ nonce, Replaces (offer nonce base k) (offer nonce base (k + 1))) ↔
        4 ≤ base.maxFeePerGas ∧ 4 ≤ base.maxPriorityFeePerGas)) ∧
    ∀ endpoint label deadline, endpoint.estimateFees = .ok base →
      ∃ nonce made, made ≤ maxAttempts ∧ (sendUntil endpoint label deadline).offers =
        (List.range made).map (offer nonce base) := by
  refine ⟨?_, fun endpoint label deadline hestimate => sendUntil_offers hestimate⟩
  intro k hk
  constructor
  · intro hreplaces
    have hfirst := hreplaces 0
    exact ⟨(bump_tenth_iff hmax hk).mp hfirst.maxFee,
      (bump_tenth_iff hpriority hk).mp hfirst.maxPriorityFee⟩
  · rintro ⟨hfour, hfourPriority⟩ nonce
    exact ⟨rfl, (bump_tenth_iff hmax hk).mpr hfour,
      (bump_tenth_iff hpriority hk).mpr hfourPriority⟩

def busyFees : Fees := ⟨2000000000, 1000000000⟩

theorem busyFees_fit : FeeFits busyFees.maxFeePerGas ∧ FeeFits busyFees.maxPriorityFeePerGas := by
  unfold FeeFits
  decide

theorem escalation_replaces_busy : Replaces (offer 0 busyFees 0) (offer 0 busyFees 1) :=
  ((escalation_replaces_iff busyFees_fit.1 busyFees_fit.2).1 0 (by decide)).mpr
    ⟨by decide, by decide⟩ 0

/-- The estimate on a quiet chain: one wei is the least priority fee. -/
def quietFees : Fees := ⟨2000000001, 1⟩

/-- A quarter of one wei is nothing, so no retry replaces the one before. -/
theorem quiet_fees_never_replace :
    FeeFits quietFees.maxFeePerGas ∧ FeeFits quietFees.maxPriorityFeePerGas ∧
      ∀ k < maxAttempts - 1, ¬Replaces (offer 0 quietFees k) (offer 0 quietFees (k + 1)) := by
  refine ⟨by unfold FeeFits; decide, by unfold FeeFits; decide, ?_⟩
  intro k hk hreplaces
  have hpriority : ∀ k < maxAttempts - 1, ¬11 * bump k 1 ≤ 10 * bump (k + 1) 1 := by decide
  exact hpriority k hk hreplaces.maxPriorityFee

end Blobsitter.Daemon
