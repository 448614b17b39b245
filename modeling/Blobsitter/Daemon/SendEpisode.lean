import Blobsitter.Daemon.FeeEscalation

/-!
# What an episode tells

The sender returns as soon as one of its candidates is confirmed.  All candidates have one
nonce, and an account uses a nonce once: of an episode at most one is ever executed, and a
success names it.
-/

namespace Blobsitter.Daemon

open Library
open Reference (Hash)

/-- The hashes that the endpoint has returned for the first attempts. -/
def candidates (endpoint : SendEndpoint) (made : Nat) : List Hash :=
  (List.range made).filterMap fun attempt => (endpoint.during attempt).sendTransaction.toOption

section

variable {endpoint : SendEndpoint} {attempt : Nat}

theorem candidates_succ_ok {hash : Hash}
    (hsend : (endpoint.during attempt).sendTransaction = .ok hash) :
    candidates endpoint (attempt + 1) = candidates endpoint attempt ++ [hash] := by
  unfold candidates
  rw [List.range_succ, List.filterMap_append, List.filterMap_cons, hsend]
  rfl

theorem candidates_succ_error {e : RpcError}
    (hsend : (endpoint.during attempt).sendTransaction = .error e) :
    candidates endpoint (attempt + 1) = candidates endpoint attempt := by
  unfold candidates
  rw [List.range_succ, List.filterMap_append, List.filterMap_cons, hsend]
  exact List.append_nil _

/-- A confirmed candidate is one of them, and its receipt says success. -/
theorem anyConfirmed_eq_some {transactionReceipt : Hash → Except String (Option Bool)}
    {hashes : List Hash} {hash : Hash}
    (hfound : anyConfirmed transactionReceipt hashes = some hash) :
    hash ∈ hashes ∧ transactionReceipt hash = .ok (some true) := by
  induction hashes with
  | nil => cases hfound
  | cons first rest ih =>
      unfold anyConfirmed at hfound
      split at hfound
      · rename_i hreceipt
        cases hfound
        exact ⟨List.mem_cons_self, hreceipt⟩
      · obtain ⟨hmem, hreceipt⟩ := ih hfound
        exact ⟨List.mem_cons_of_mem _ hmem, hreceipt⟩

end

/-- How an episode ends after so many offers. -/
inductive Ended (endpoint : SendEndpoint) (deadline : Option Nat) :
    Nat → Except SendError Hash → Prop where
  | passed {made limit now : Nat}
      (hpassed : passedDeadline (endpoint.during made).chainNow deadline = some (limit, now)) :
      Ended endpoint deadline made (.error (.deadlinePassed limit now))
  | exhausted {lastError : String} :
      Ended endpoint deadline maxAttempts (.error (.exhausted maxAttempts lastError))
  | landed {attempt : Nat} {hash : Hash}
      (hsend : (endpoint.during attempt).sendTransaction = .ok hash)
      (hreceipt : (endpoint.during attempt).receiptStatus = .ok true) :
      Ended endpoint deadline (attempt + 1) (.ok hash)
  | found {attempt : Nat} {hash : Hash} (hfound : anyConfirmed
        (endpoint.during attempt).transactionReceipt (candidates endpoint (attempt + 1)) =
          some hash) :
      Ended endpoint deadline (attempt + 1) (.ok hash)
  | refused {attempt : Nat} {e : RpcError}
      (hsend : (endpoint.during attempt).sendTransaction = .error e) (hrevert : isRevert e = true)
      (hnone : anyConfirmed (endpoint.during attempt).transactionReceipt
        (candidates endpoint attempt) = none) :
      Ended endpoint deadline (attempt + 1) (.error (.reverted e.text))
  | failed {attempt : Nat} {hash : Hash}
      (hsend : (endpoint.during attempt).sendTransaction = .ok hash)
      (hreceipt : (endpoint.during attempt).receiptStatus = .ok false) :
      Ended endpoint deadline (attempt + 1)
        (.error (.reverted ("receipt status 0 for " ++ hashText hash)))

section

variable {endpoint : SendEndpoint} {label : String} {deadline : Option Nat} {nonce : Nat} {base : Fees}

/-- What a run of the loop from some attempt on leaves behind. -/
structure Told (endpoint : SendEndpoint) (label : String) (deadline : Option Nat) (nonce : Nat)
    (base : Fees) (attempt : Nat) (episode : Episode) (count : Nat) : Prop where
  offers : episode.offers = (List.range' attempt count).map (offer nonce base)
  alarms : episode.alarms = (List.range' attempt count).flatMap (attemptAlarms label nonce)
  before : ∀ made ∈ List.range' attempt count,
    passedDeadline (endpoint.during made).chainNow deadline = none
  ended : Ended endpoint deadline (attempt + count) episode.result

theorem Told.ends {attempt : Nat} {result : Except SendError Hash}
    (hended : Ended endpoint deadline attempt result) :
    Told endpoint label deadline nonce base attempt (.ends result) 0 :=
  ⟨rfl, rfl, fun _ hmem => absurd hmem List.not_mem_nil, hended⟩

/-- One attempt more, in front of the others. -/
theorem Told.after {attempt count : Nat} {rest : Episode}
    (hbefore : passedDeadline (endpoint.during attempt).chainNow deadline = none)
    (htold : Told endpoint label deadline nonce base (attempt + 1) rest count) :
    Told endpoint label deadline nonce base attempt (.after label nonce base attempt rest)
      (count + 1) := by
  refine ⟨?_, ?_, ?_, ?_⟩
  · rw [List.range'_succ, List.map_cons, ← htold.offers]
    rfl
  · rw [List.range'_succ, List.flatMap_cons, ← htold.alarms]
    rfl
  · intro made hmem
    rw [List.range'_succ] at hmem
    rcases List.mem_cons.mp hmem with rfl | hlater
    · exact hbefore
    · exact htold.before made hlater
  · rw [← Nat.succ_add_eq_add_succ]
    exact htold.ended

theorem Told.last {attempt : Nat} {result : Except SendError Hash}
    (hbefore : passedDeadline (endpoint.during attempt).chainNow deadline = none)
    (hended : Ended endpoint deadline (attempt + 1) result) :
    Told endpoint label deadline nonce base attempt
      (.after label nonce base attempt (.ends result)) 1 :=
  Told.after hbefore (.ends hended)

/-- The loop, one way out after the other. -/
theorem sendLoop_told (left attempt : Nat) (hleft : attempt + left = maxAttempts)
    (lastError : String) :
    ∃ count, Told endpoint label deadline nonce base attempt
      (sendLoop endpoint label deadline nonce base left attempt (candidates endpoint attempt)
        lastError) count := by
  induction left generalizing attempt lastError with
  | zero =>
      refine ⟨0, .ends ?_⟩
      rw [Nat.add_zero] at hleft
      rw [hleft]
      exact .exhausted
  | succ left ih =>
      have hnext : attempt + 1 + left = maxAttempts := by omega
      unfold sendLoop
      simp only
      split
      · rename_i limit now hpassed
        exact ⟨0, .ends (.passed hpassed)⟩
      · rename_i hbefore
        cases hsend : (endpoint.during attempt).sendTransaction with
        | error e =>
            simp only
            split
            · rename_i hash hfound
              refine ⟨1, .last hbefore (.found ?_)⟩
              rw [candidates_succ_error hsend]
              exact hfound
            · rename_i hnone
              split
              · rename_i hrevert
                exact ⟨1, .last hbefore (.refused hsend hrevert hnone)⟩
              · rw [← candidates_succ_error hsend]
                obtain ⟨count, htold⟩ := ih (attempt + 1) hnext e.text
                exact ⟨count + 1, .after hbefore htold⟩
        | ok hash =>
            simp only
            split
            · rename_i hreceipt
              exact ⟨1, .last hbefore (.landed hsend hreceipt)⟩
            · rename_i hreceipt
              exact ⟨1, .last hbefore (.failed hsend hreceipt)⟩
            · rename_i message _
              rw [← candidates_succ_ok hsend]
              split
              · rename_i confirmed hfound
                exact ⟨1, .last hbefore (.found hfound)⟩
              · obtain ⟨count, htold⟩ := ih (attempt + 1) hnext message
                exact ⟨count + 1, .after hbefore htold⟩

end

/-- The account's transactions on the chain: an account uses each nonce once. -/
structure AccountLedger where
  nonceOf : Hash → Nat
  receipt : Hash → Option Bool
  once : ∀ {first second}, receipt first ≠ none → receipt second ≠ none →
    nonceOf first = nonceOf second → first = second

/-- The endpoint tells of this chain: it sends what it is given, and a receipt that it
returns is the one on the chain.  It may fail to answer at any time. -/
structure SendEndpoint.TellsOf (endpoint : SendEndpoint) (ledger : AccountLedger) : Prop where
  sends : ∀ {nonce attempt hash}, endpoint.transactionCount = .ok nonce →
    (endpoint.during attempt).sendTransaction = .ok hash → ledger.nonceOf hash = nonce
  receiptStatus : ∀ {attempt hash status}, (endpoint.during attempt).sendTransaction = .ok hash →
    (endpoint.during attempt).receiptStatus = .ok status → ledger.receipt hash = some status
  transactionReceipt : ∀ {attempt hash status},
    (endpoint.during attempt).transactionReceipt hash = .ok (some status) →
      ledger.receipt hash = some status

section

variable {endpoint : SendEndpoint} {ledger : AccountLedger} {deadline : Option Nat}

theorem mem_candidates {made : Nat} {hash : Hash} (hmem : hash ∈ candidates endpoint made) :
    ∃ attempt, (endpoint.during attempt).sendTransaction = .ok hash := by
  obtain ⟨attempt, _, hsend⟩ := List.mem_filterMap.mp hmem
  refine ⟨attempt, ?_⟩
  cases hanswer : (endpoint.during attempt).sendTransaction with
  | ok answered =>
      rw [hanswer] at hsend
      exact congrArg Except.ok (Option.some.inj hsend)
  | error e =>
      rw [hanswer] at hsend
      cases hsend

/-- One executed candidate leaves no room for another. -/
theorem candidates_once (htells : endpoint.TellsOf ledger) {nonce made : Nat}
    (hcount : endpoint.transactionCount = .ok nonce) {hash other : Hash} {status : Bool}
    (hmem : hash ∈ candidates endpoint made) (hexecuted : ledger.receipt hash = some status)
    (hother : other ∈ candidates endpoint made) (hne : other ≠ hash) :
    ledger.receipt other = none := by
  obtain ⟨_, hsend⟩ := mem_candidates hmem
  obtain ⟨_, hsendOther⟩ := mem_candidates hother
  by_contra hreceipt
  refine hne (ledger.once hreceipt ?_ ?_)
  · rw [hexecuted]
    exact Option.some_ne_none status
  · rw [htells.sends hcount hsend, htells.sends hcount hsendOther]

theorem candidate_mem {attempt : Nat} {hash : Hash}
    (hsend : (endpoint.during attempt).sendTransaction = .ok hash) :
    hash ∈ candidates endpoint (attempt + 1) := by
  rw [candidates_succ_ok hsend]
  exact List.mem_append_right _ (List.mem_singleton.mpr rfl)

/-- What the result says about the candidates. -/
inductive Verdict (ledger : AccountLedger) (endpoint : SendEndpoint) (deadline : Option Nat)
    (made : Nat) : Except SendError Hash → Prop where
  | executed {hash : Hash} (hmem : hash ∈ candidates endpoint made)
      (hreceipt : ledger.receipt hash = some true)
      (honly : ∀ other ∈ candidates endpoint made, other ≠ hash → ledger.receipt other = none) :
      Verdict ledger endpoint deadline made (.ok hash)
  | failed {hash : Hash} {message : String} (hmem : hash ∈ candidates endpoint made)
      (hreceipt : ledger.receipt hash = some false)
      (honly : ∀ other ∈ candidates endpoint made, other ≠ hash → ledger.receipt other = none) :
      Verdict ledger endpoint deadline made (.error (.reverted message))
  | refused {message : String} {attempt : Nat} {e : RpcError} (hlast : made = attempt + 1)
      (hsend : (endpoint.during attempt).sendTransaction = .error e) (hrevert : isRevert e = true) :
      Verdict ledger endpoint deadline made (.error (.reverted message))
  | passed {limit now : Nat} (hdeadline : deadline = some limit) (hlate : limit ≤ now)
      (hclock : now = (endpoint.during made).chainNow.toOption.getD 0) :
      Verdict ledger endpoint deadline made (.error (.deadlinePassed limit now))
  | exhausted {lastError : String} (hall : made = maxAttempts) :
      Verdict ledger endpoint deadline made (.error (.exhausted maxAttempts lastError))

theorem Ended.verdict {nonce made : Nat} {result : Except SendError Hash}
    (hended : Ended endpoint deadline made result) (htells : endpoint.TellsOf ledger)
    (hcount : endpoint.transactionCount = .ok nonce) :
    Verdict ledger endpoint deadline made result := by
  cases hended with
  | @passed _ limit now hpassed =>
      obtain ⟨asked, hasked, hanswer⟩ := Option.bind_eq_some_iff.mp hpassed
      simp only at hanswer
      split_ifs at hanswer with hlate
      obtain ⟨rfl, rfl⟩ := Prod.mk.inj (Option.some.inj hanswer)
      exact .passed hasked hlate rfl
  | exhausted => exact .exhausted rfl
  | landed hsend hreceipt =>
      have hexecuted := htells.receiptStatus hsend hreceipt
      have hmem := candidate_mem hsend
      exact .executed hmem hexecuted
        fun _ hother hne => candidates_once htells hcount hmem hexecuted hother hne
  | @found attempt hash hfound =>
      obtain ⟨hmem, hreceipt⟩ := anyConfirmed_eq_some hfound
      have hexecuted := htells.transactionReceipt hreceipt
      exact .executed hmem hexecuted
        fun _ hother hne => candidates_once htells hcount hmem hexecuted hother hne
  | refused hsend hrevert _ => exact .refused rfl hsend hrevert
  | failed hsend hreceipt =>
      have hexecuted := htells.receiptStatus hsend hreceipt
      have hmem := candidate_mem hsend
      exact .failed hmem hexecuted
        fun _ hother hne => candidates_once htells hcount hmem hexecuted hother hne

/-- The two answers without which nothing is offered. -/
theorem sendUntil_started (label : String) (deadline : Option Nat) :
    (∃ message, (endpoint.transactionCount = .error message ∨
        ∃ nonce, endpoint.transactionCount = .ok nonce ∧ endpoint.estimateFees = .error message) ∧
      sendUntil endpoint label deadline = .ends (.error (.exhausted 0 message))) ∨
    ∃ nonce base, endpoint.transactionCount = .ok nonce ∧ endpoint.estimateFees = .ok base ∧
      sendUntil endpoint label deadline =
        sendLoop endpoint label deadline nonce base maxAttempts 0 (candidates endpoint 0) "" := by
  unfold sendUntil
  cases hcount : endpoint.transactionCount with
  | error message => exact Or.inl ⟨message, Or.inl rfl, rfl⟩
  | ok nonce =>
      cases hestimate : endpoint.estimateFees with
      | error message => exact Or.inl ⟨message, Or.inr ⟨nonce, rfl, rfl⟩, rfl⟩
      | ok base => exact Or.inr ⟨nonce, base, rfl, rfl, rfl⟩

/-- An episode tells the truth about its candidates, whatever the endpoint fails to answer.
Without a nonce or an estimate it offers none.  Otherwise it offers up to ten of them, under
one nonce and none at a time that has reached the deadline; a success is a candidate that was
executed, and then no other one was or will be. -/
theorem episode_truthful (htells : endpoint.TellsOf ledger) (label : String)
    (deadline : Option Nat) :
    (∃ message, (endpoint.transactionCount = .error message ∨
        ∃ nonce, endpoint.transactionCount = .ok nonce ∧ endpoint.estimateFees = .error message) ∧
      sendUntil endpoint label deadline = .ends (.error (.exhausted 0 message))) ∨
    ∃ nonce base made, endpoint.transactionCount = .ok nonce ∧ endpoint.estimateFees = .ok base ∧
      made ≤ maxAttempts ∧
      (sendUntil endpoint label deadline).offers = (List.range made).map (offer nonce base) ∧
      (sendUntil endpoint label deadline).alarms =
        (List.range made).flatMap (attemptAlarms label nonce) ∧
      (∀ attempt < made, passedDeadline (endpoint.during attempt).chainNow deadline = none) ∧
      Verdict ledger endpoint deadline made (sendUntil endpoint label deadline).result := by
  rcases @sendUntil_started endpoint label deadline with hnone | ⟨nonce, base, hcount, hestimate, hruns⟩
  · exact Or.inl hnone
  · obtain ⟨made, htold⟩ := @sendLoop_told endpoint label deadline nonce base maxAttempts 0
      (Nat.zero_add _) ""
    rw [hruns]
    have hrange : List.range' 0 made = List.range made := (List.range_eq_range').symm
    obtain ⟨hoffers, halarms, hbefore, hended⟩ := htold
    rw [hrange] at hoffers halarms hbefore
    rw [Nat.zero_add] at hended
    refine Or.inr ⟨nonce, base, made, hcount, hestimate, ?_, hoffers, halarms, ?_,
      hended.verdict htells hcount⟩
    · obtain ⟨count, hle, hsame⟩ := @sendLoop_offers endpoint label deadline nonce base maxAttempts
        0 (candidates endpoint 0) ""
      rw [hoffers] at hsame
      have hlength := congrArg List.length hsame
      rw [List.length_map, List.length_map, List.length_range, List.length_range'] at hlength
      rw [hlength]
      exact hle
    · intro attempt hlt
      exact hbefore attempt (List.mem_range.mpr hlt)

end

/-! ## An episode with a lost answer

The first candidate lands while the endpoint does not answer for its receipt; the second
attempt is refused, and finds it. -/

def landedHash : Hash := Vector.replicate 32 3

def lateLedger : AccountLedger where
  nonceOf _ := 5
  receipt hash := if hash = landedHash then some true else none
  once := by
    intro first second hfirst hsecond _
    by_cases heq : first = landedHash
    · by_cases hsame : second = landedHash
      · rw [heq, hsame]
      · exact absurd (if_neg hsame) hsecond
    · exact absurd (if_neg heq) hfirst

/-- The endpoint answers for receipts from the second attempt on. -/
def forgetfulReceipt (attempt : Nat) (hash : Hash) : Except String (Option Bool) :=
  if attempt = 0 then .error "timed out" else .ok (lateLedger.receipt hash)

def forgetfulEndpoint : SendEndpoint where
  transactionCount := .ok 5
  estimateFees := .ok busyFees
  during attempt :=
    { chainNow := .ok 100
      sendTransaction :=
        if attempt = 0 then .ok landedHash else .error ⟨some (-32000, "nonce too low"), "nonce too low"⟩
      receiptStatus := .error "timed out"
      transactionReceipt := forgetfulReceipt attempt }

theorem forgetfulEndpoint_tells : forgetfulEndpoint.TellsOf lateLedger := by
  refine ⟨?_, ?_, ?_⟩
  · intro nonce attempt hash hcount _
    exact Except.ok.inj hcount
  · intro attempt hash status _ hreceipt
    cases hreceipt
  · intro attempt hash status hreceipt
    change forgetfulReceipt attempt hash = _ at hreceipt
    unfold forgetfulReceipt at hreceipt
    split_ifs at hreceipt
    exact Except.ok.inj hreceipt

theorem episode_truthful_forgetful :
    (sendUntil forgetfulEndpoint "respond(1)" (some 200)).result = .ok landedHash ∧
      ∃ made, (sendUntil forgetfulEndpoint "respond(1)" (some 200)).offers =
          (List.range made).map (offer 5 busyFees) ∧
        Verdict lateLedger forgetfulEndpoint (some 200) made (.ok landedHash) := by
  have hresult : (sendUntil forgetfulEndpoint "respond(1)" (some 200)).result = .ok landedHash := rfl
  rcases episode_truthful forgetfulEndpoint_tells "respond(1)" (some 200) with
    ⟨message, hnone, _⟩ | ⟨nonce, base, made, hcount, hestimate, _, hoffers, _, _, hverdict⟩
  · rcases hnone with hcount | ⟨_, _, hestimate⟩
    · cases hcount
    · cases hestimate
  · obtain rfl : 5 = nonce := Except.ok.inj hcount
    obtain rfl : busyFees = base := Except.ok.inj hestimate
    rw [hresult] at hverdict
    exact ⟨hresult, made, hoffers, hverdict⟩

end Blobsitter.Daemon
