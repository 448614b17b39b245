import Blobsitter.Contract.Providers

/-!
# What an accepted call did

One constructor for each way a call is accepted, with the guards it passed and the
outcome it left.  `dispatch_change` inverts every entry point once; nothing later
unfolds them again.
-/

namespace Blobsitter.Contract

open Library
open Reference (Chunk Hash Address)

section

variable (keccak256 : ByteString → Hash) (dep : Deployment) (block : Block) (msg : Msg)

/-- Storage after a stake was accepted. -/
def Storage.addProvider (s : Storage) (operator withdrawal : Address) (anchor : Nat) : Storage :=
  { s.setProvider s.nextProviderId { s.providers s.nextProviderId with
      operator := operator
      withdrawal := withdrawal
      status := .active
      anchor := anchor } with nextProviderId := s.nextProviderId + 1 }

/-- Storage after a challenge was opened. -/
def Storage.addChallenge (s : Storage) (c : Challenge) : Storage :=
  { (s.setChallenge s.nextChallengeId c).setProvider c.providerId
      { s.providers c.providerId with openChallenges := (s.providers c.providerId).openChallenges + 1 }
    with nextChallengeId := s.nextChallengeId + 1 }

/-- Storage after a challenge was resolved and its provider's status set. -/
def Storage.resolve (s : Storage) (challengeId : Nat) (status : ProviderStatus) : Storage :=
  let c := s.challengeRecords challengeId
  (s.setChallenge challengeId { c with resolved := true }).setProvider c.providerId
    { s.providers c.providerId with
      openChallenges := (s.providers c.providerId).openChallenges - 1
      status := status }

inductive Change : Storage → Call → Outcome → Prop where
  | declared {s : Storage} {d : Declaration} {publisherSig : ByteString}
      {openings : List BlobOpening} {equivalenceProof : ByteString} {out : Outcome}
      (hvalue : msg.value = 0)
      (haccepted : DeclareAccepted keccak256 dep block msg s d publisherSig openings
        equivalenceProof out)
      (hsame : s.SameProviders out.storage) (habsorbed : out.absorbed = none)
      (hpayments : out.payments = [])
      (htail : ∃ amount, out.tail = .reimburse msg.sender amount true) :
      Change s (.declareFor d publisherSig openings equivalenceProof) out
  | pointed {s : Storage} {call : Call} {out : Outcome} (hvalue : msg.value = 0)
      (haccepted : PointerAccepted msg s out)
      (hcall : (∃ nonce deadline pointer sig, call = .setAppPointer nonce deadline pointer sig) ∨
        ∃ nonce deadline target sig, call = .setSuccessor nonce deadline target sig) :
      Change s call out
  | noted {s : Storage} {call : Call} {event : Event} (hvalue : msg.value = 0)
      (hevent : (∃ url, call = .announce url ∧ event = .announced url) ∨
        call = .retract ∧ event = .retracted) :
      Change s call (.plain s [event])
  | staked {s : Storage} {operator withdrawal : Address}
      (hvalue : msg.value = dep.params.stakeWei) (hoperator : operator ≠ zeroAddress)
      (hwithdrawal : withdrawal ≠ zeroAddress) (hfits : s.nextProviderId + 1 < 2 ^ 64) :
      Change s (.stake operator withdrawal)
        (.plain (s.addProvider operator withdrawal (block.timestamp % 2 ^ 64))
          [.staked s.nextProviderId operator withdrawal])
  | unbonded {s : Storage} {id : Nat} (hvalue : msg.value = 0)
      (hsender : msg.sender = (s.providers id).operator)
      (hstatus : (s.providers id).status = .active) :
      Change s (.initiateUnbonding id)
        (.plain (s.setProvider id { (s.providers id).voidCommit with
            status := .unbonding
            unbondingAt := block.timestamp % 2 ^ 64
            exitRoot := MMR.bagRoot keccak256 s.leafCount s.peaks
            exitLeafCount := s.leafCount })
          [.unbondingInitiated id (MMR.bagRoot keccak256 s.leafCount s.peaks) s.leafCount])
  | withdrawn {s : Storage} {id : Nat} (hvalue : msg.value = 0)
      (hstatus : (s.providers id).status = .unbonding)
      (hfits : (s.providers id).unbondingAt + dep.params.unbondingDelay < 2 ^ 64)
      (hdelay : (s.providers id).unbondingAt + dep.params.unbondingDelay ≤ block.timestamp)
      (hopen : (s.providers id).openChallenges = 0) :
      Change s (.withdraw id)
        ⟨s.setProvider id { s.providers id with status := .exited }, [.withdrawn id], none,
          [.stakeReturned id (s.providers id).withdrawal dep.params.stakeWei],
          .payout (s.providers id).withdrawal dep.params.stakeWei⟩
  | committed {s : Storage} {id period : Nat} (hvalue : msg.value = 0)
      (hsender : msg.sender = (s.providers id).operator)
      (hstatus : (s.providers id).status = .active)
      (hperiod : custodyPeriodIndex dep block s id = .ok period)
      (hfresh : (s.providers id).commitPeriodPlusOne ≠ 0 →
        (s.providers id).commitPeriodPlusOne - 1 ≠ period)
      (hfits : period + 1 < 2 ^ 64) :
      Change s (.beginProof id)
        (.plain (s.setProvider id { s.providers id with
            commitPeriodPlusOne := period + 1
            commitSeed := block.prevrandao
            commitRoot := MMR.bagRoot keccak256 s.leafCount s.peaks
            commitLeafCount := s.leafCount })
          [.custodyCommitted id period block.prevrandao
            (MMR.bagRoot keccak256 s.leafCount s.peaks) s.leafCount])
  | proven {s : Storage} {call : Call} {id period : Nat} {degraded : Bool} (hvalue : msg.value = 0)
      (hcall : (∃ proof, call = .submitProof id proof) ∨
        ∃ n peaks reveals, call = .submitProofEscape id n peaks reveals)
      (hsender : msg.sender = (s.providers id).operator)
      (hstatus : (s.providers id).status = .active)
      (hcommit : (s.providers id).commitPeriodPlusOne = period + 1)
      (hperiod : custodyPeriodIndex dep block s id = .ok period) (hfits : period + 1 < 2 ^ 64) :
      Change s call
        (.plain (s.setProvider id { (s.providers id).voidCommit with
            lastProvenPlusOne := period + 1
            lastDegraded := degraded })
          [.custodyProven id period degraded])
  | lapsed {s : Storage} {id bounty remainder : Nat} (hvalue : msg.value = 0)
      (hstatus : (s.providers id).status = .active)
      (htime : (lapseTimes dep (s.providers id)).2 ≤ block.timestamp)
      (hsplit : slashSplit dep = .ok (bounty, remainder)) :
      Change s (.lapse id)
        ⟨s.setProvider id { s.providers id with status := .slashed },
          [.slashed id .lapse msg.sender], some remainder,
          [.stakeSlashed id msg.sender bounty remainder], .payout msg.sender bounty⟩
  | challenged {s : Storage} {id : Nat} {indices : List Nat} {pinnedRoot : Hash}
      {pinnedLeafCount : Nat} (hstatus : (s.providers id).status ≠ .none)
      (hpin : challengePin keccak256 dep block s (s.providers id) =
        .ok (pinnedRoot, pinnedLeafCount))
      (hsome : indices ≠ []) (hcount : indices.length ≤ dep.params.maxSample)
      (hindices : ∀ index ∈ indices, index < pinnedLeafCount)
      (hfits : s.nextChallengeId + 1 < 2 ^ 64)
      (hdeadline : block.timestamp % 2 ^ 64 + dep.params.responseWindow < 2 ^ 64) :
      Change s (.challenge id indices)
        (.plain (s.addChallenge
            { providerId := id
              challenger := msg.sender
              bond := msg.value
              openedAt := block.timestamp % 2 ^ 64
              pinnedRoot := pinnedRoot
              pinnedLeafCount := pinnedLeafCount
              indicesHash := keccak256 (packIndices indices)
              k := indices.length % 2 ^ 16
              resolved := (s.challengeRecords s.nextChallengeId).resolved })
          [.challengeOpened s.nextChallengeId id indices msg.value pinnedRoot pinnedLeafCount
            (block.timestamp % 2 ^ 64 + dep.params.responseWindow)])
  | answered {s : Storage} {challengeId : Nat} {indices : List Nat} {n : Nat}
      {pinnedPeaks : List Hash} {proofs : List ChunkProof} (hvalue : msg.value = 0)
      (hopened : (s.challengeRecords challengeId).challenger ≠ zeroAddress)
      (hsender : msg.sender = (s.providers (s.challengeRecords challengeId).providerId).operator)
      (htime : block.timestamp <
        (s.challengeRecords challengeId).openedAt + dep.params.responseWindow)
      (hunresolved : (s.challengeRecords challengeId).resolved = false)
      (hstatus : (s.providers (s.challengeRecords challengeId).providerId).status ≠ .slashed)
      (hcount : proofs.length = (s.challengeRecords challengeId).k)
      (hindices : keccak256 (packIndices indices) = (s.challengeRecords challengeId).indicesHash)
      (hleaves : n = (s.challengeRecords challengeId).pinnedLeafCount)
      (hroot : MMR.bagRoot keccak256 n pinnedPeaks = (s.challengeRecords challengeId).pinnedRoot)
      (hproofs : checkProofs keccak256 indices n pinnedPeaks proofs 0 = .ok ())
      (hopen : 1 ≤ (s.providers (s.challengeRecords challengeId).providerId).openChallenges) :
      Change s (.respond challengeId indices n pinnedPeaks proofs)
        ⟨s.resolve challengeId
            (s.providers (s.challengeRecords challengeId).providerId).status,
          [.challengeAnswered challengeId], none,
          [.bondToOperator challengeId
            (s.providers (s.challengeRecords challengeId).providerId).operator
            (s.challengeRecords challengeId).bond],
          .payout (s.providers (s.challengeRecords challengeId).providerId).operator
            (s.challengeRecords challengeId).bond⟩
  | timedOut {s : Storage} {challengeId bounty remainder : Nat} (hvalue : msg.value = 0)
      (hopened : (s.challengeRecords challengeId).challenger ≠ zeroAddress)
      (hunresolved : (s.challengeRecords challengeId).resolved = false)
      (htime : (s.challengeRecords challengeId).openedAt + dep.params.responseWindow ≤
        block.timestamp)
      (hopen : 1 ≤ (s.providers (s.challengeRecords challengeId).providerId).openChallenges)
      (hstatus : (s.providers (s.challengeRecords challengeId).providerId).status ≠ .slashed)
      (hsplit : slashSplit dep = .ok (bounty, remainder)) :
      Change s (.resolveTimeout challengeId)
        ⟨s.resolve challengeId .slashed,
          [.slashed (s.challengeRecords challengeId).providerId .challengeTimeout msg.sender,
            .challengeTimedOut challengeId],
          some remainder,
          [.stakeSlashed (s.challengeRecords challengeId).providerId
              (s.challengeRecords challengeId).challenger bounty remainder,
            .bondToChallenger challengeId (s.challengeRecords challengeId).challenger
              (s.challengeRecords challengeId).bond],
          .payout (s.challengeRecords challengeId).challenger
            (bounty + (s.challengeRecords challengeId).bond)⟩
  | refunded {s : Storage} {challengeId : Nat} (hvalue : msg.value = 0)
      (hopened : (s.challengeRecords challengeId).challenger ≠ zeroAddress)
      (hunresolved : (s.challengeRecords challengeId).resolved = false)
      (htime : (s.challengeRecords challengeId).openedAt + dep.params.responseWindow ≤
        block.timestamp)
      (hopen : 1 ≤ (s.providers (s.challengeRecords challengeId).providerId).openChallenges)
      (hstatus : (s.providers (s.challengeRecords challengeId).providerId).status = .slashed) :
      Change s (.resolveTimeout challengeId)
        ⟨s.resolve challengeId .slashed, [.challengeRefunded challengeId], none,
          [.bondToChallenger challengeId (s.challengeRecords challengeId).challenger
            (s.challengeRecords challengeId).bond],
          .payout (s.challengeRecords challengeId).challenger
            (s.challengeRecords challengeId).bond⟩
  | claimed {s : Storage} {sink : PayoutSink} {amount : Nat} (hvalue : msg.value = 0)
      (hclaim : s.sink.claim msg.sender = .ok (sink, amount)) :
      Change s .claim ⟨{ s with sink := sink }, [], none, [], .claim msg.sender amount⟩

variable {keccak256 dep block msg}

/-! ## Inversion of the entry points -/

theorem provider_eq_ok {s : Storage} {id : Nat} {p : Provider} :
    provider s id = .ok p ↔ (s.providers id).status ≠ .none ∧ s.providers id = p := by
  simp only [provider, bind_eq_ok, revertIf_eq_ok, pure_eq_ok, exists_and_left, exists_const]

theorem challengeRecord_eq_ok {s : Storage} {id : Nat} {c : Challenge} :
    challengeRecord s id = .ok c ↔
      (s.challengeRecords id).challenger ≠ zeroAddress ∧ s.challengeRecords id = c := by
  simp only [challengeRecord, bind_eq_ok, revertIf_eq_ok, pure_eq_ok, exists_and_left, exists_const]

theorem stake_change {s : Storage} {operator withdrawal : Address} {out : Outcome}
    (hok : stake dep block msg s operator withdrawal = .ok out) :
    Change keccak256 dep block msg s (.stake operator withdrawal) out := by
  simp only [stake, bind_eq_ok, revertIf_eq_ok, orPanic_eq_ok, checkedAdd_eq_ok, pure_eq_ok,
    not_not, not_or] at hok
  obtain ⟨_, hvalue, _, ⟨hoperator, hwithdrawal⟩, next, ⟨hfits, rfl⟩, rfl⟩ := hok
  exact .staked hvalue hoperator hwithdrawal hfits

theorem initiateUnbonding_change (hvalue : msg.value = 0) {s : Storage} {id : Nat} {out : Outcome}
    (hok : initiateUnbonding keccak256 block msg s id = .ok out) :
    Change keccak256 dep block msg s (.initiateUnbonding id) out := by
  simp only [initiateUnbonding, bind_eq_ok, revertIf_eq_ok, provider_eq_ok, pure_eq_ok,
    not_not] at hok
  obtain ⟨p, ⟨_, rfl⟩, _, hsender, _, hstatus, rfl⟩ := hok
  exact .unbonded hvalue hsender hstatus

theorem withdraw_change (hvalue : msg.value = 0) {s : Storage} {id : Nat} {out : Outcome}
    (hok : withdraw dep block s id = .ok out) :
    Change keccak256 dep block msg s (.withdraw id) out := by
  simp only [withdraw, bind_eq_ok, revertIf_eq_ok, orPanic_eq_ok, checkedAdd_eq_ok,
    provider_eq_ok, pure_eq_ok, not_not, not_lt] at hok
  obtain ⟨p, ⟨_, rfl⟩, _, hstatus, _, ⟨hfits, rfl⟩, _, hdelay, _, hopen, rfl⟩ := hok
  exact .withdrawn hvalue hstatus hfits hdelay hopen

theorem beginProof_change (hvalue : msg.value = 0) {s : Storage} {id : Nat} {out : Outcome}
    (hok : beginProof keccak256 dep block msg s id = .ok out) :
    Change keccak256 dep block msg s (.beginProof id) out := by
  simp only [beginProof, bind_eq_ok, revertIf_eq_ok, orPanic_eq_ok, checkedAdd_eq_ok,
    provider_eq_ok, pure_eq_ok, not_not, not_and] at hok
  obtain ⟨p, ⟨_, rfl⟩, _, hsender, _, hstatus, period, hperiod, _, hfresh, _, ⟨hfits, rfl⟩, rfl⟩ :=
    hok
  exact .committed hvalue hsender hstatus hperiod hfresh hfits

theorem submitGuards_eq_ok {s : Storage} {p : Provider} {id period : Nat}
    (hok : submitGuards dep block msg s p id = .ok period) :
    msg.sender = p.operator ∧ p.status = .active ∧ p.commitPeriodPlusOne = period + 1 ∧
      custodyPeriodIndex dep block s id = .ok period := by
  simp only [submitGuards, bind_eq_ok, revertIf_eq_ok, pure_eq_ok, not_not] at hok
  obtain ⟨_, hsender, _, hstatus, _, hcommit, current, hcurrent, _, heq, rfl⟩ := hok
  exact ⟨hsender, hstatus, by omega, hcurrent⟩

theorem submitProof_change (hvalue : msg.value = 0) {s : Storage} {id : Nat} {proof : ByteString}
    {out : Outcome} (hok : submitProof dep block msg s id proof = .ok out) :
    Change keccak256 dep block msg s (.submitProof id proof) out := by
  simp only [submitProof, acceptProof, bind_eq_ok, revertIf_eq_ok, orPanic_eq_ok,
    checkedAdd_eq_ok, provider_eq_ok, pure_eq_ok] at hok
  obtain ⟨p, ⟨_, rfl⟩, period, hguards, _, _, _, ⟨hfits, rfl⟩, rfl⟩ := hok
  obtain ⟨hsender, hstatus, hcommit, hperiod⟩ := submitGuards_eq_ok hguards
  exact .proven hvalue (Or.inl ⟨proof, rfl⟩) hsender hstatus hcommit hperiod hfits

/-- What an accepted escape proof has passed besides the guards. -/
theorem submitProofEscape_accepted {s : Storage} {id n : Nat} {pinnedPeaks : List Hash}
    {reveals : List ChunkProof} {out : Outcome}
    (hok : submitProofEscape keccak256 dep block msg s id n pinnedPeaks reveals = .ok out) :
    ∃ period, submitGuards dep block msg s (s.providers id) id = .ok period ∧
      n = (s.providers id).commitLeafCount ∧
      MMR.bagRoot keccak256 n pinnedPeaks = (s.providers id).commitRoot ∧
      reveals.length = (if n = 0 then 0 else dep.params.maxSample) ∧
      checkReveals keccak256 dep (s.providers id).commitSeed id n pinnedPeaks reveals 0 = .ok () ∧
      acceptProof s (s.providers id) id period true = .ok out := by
  simp only [submitProofEscape, bind_eq_ok, revertIf_eq_ok, provider_eq_ok, not_or, not_not] at hok
  obtain ⟨p, ⟨_, rfl⟩, period, hguards, _, ⟨hleaves, hroot⟩, _, hcount, _, hreveals, haccept⟩ := hok
  exact ⟨period, hguards, hleaves, hroot, hcount, hreveals, haccept⟩

theorem submitProofEscape_change (hvalue : msg.value = 0) {s : Storage} {id n : Nat}
    {pinnedPeaks : List Hash} {reveals : List ChunkProof} {out : Outcome}
    (hok : submitProofEscape keccak256 dep block msg s id n pinnedPeaks reveals = .ok out) :
    Change keccak256 dep block msg s (.submitProofEscape id n pinnedPeaks reveals) out := by
  obtain ⟨period, hguards, _, _, _, _, haccept⟩ := submitProofEscape_accepted hok
  obtain ⟨hsender, hstatus, hcommit, hperiod⟩ := submitGuards_eq_ok hguards
  simp only [acceptProof, bind_eq_ok, orPanic_eq_ok, checkedAdd_eq_ok, pure_eq_ok] at haccept
  obtain ⟨_, ⟨hfits, rfl⟩, rfl⟩ := haccept
  exact .proven hvalue (Or.inr ⟨n, pinnedPeaks, reveals, rfl⟩) hsender hstatus hcommit hperiod hfits

theorem lapse_change (hvalue : msg.value = 0) {s : Storage} {id : Nat} {out : Outcome}
    (hok : lapse dep block msg s id = .ok out) :
    Change keccak256 dep block msg s (.lapse id) out := by
  simp only [lapse, bind_eq_ok, revertIf_eq_ok, orPanic_eq_ok, provider_eq_ok, pure_eq_ok,
    not_not, not_lt, Prod.exists] at hok
  obtain ⟨p, ⟨_, rfl⟩, _, hstatus, _, _, _, htime, bounty, remainder, hsplit, rfl⟩ := hok
  exact .lapsed hvalue hstatus htime hsplit

theorem checkIndices_eq_ok {leafCount : Nat} {indices : List Nat}
    (hok : checkIndices leafCount indices = .ok ()) : ∀ index ∈ indices, index < leafCount := by
  induction indices with
  | nil =>
      intro index hmem
      cases hmem
  | cons first rest ih =>
      simp only [checkIndices, bind_eq_ok, revertIf_eq_ok, not_le] at hok
      obtain ⟨_, hfirst, hrest⟩ := hok
      intro index hmem
      rcases List.mem_cons.mp hmem with rfl | htail
      · exact hfirst
      · exact ih hrest index htail

theorem challenge_change {s : Storage} {id : Nat} {indices : List Nat} {out : Outcome}
    (hok : challenge keccak256 dep block msg s id indices = .ok out) :
    Change keccak256 dep block msg s (.challenge id indices) out := by
  simp only [challenge, bind_eq_ok, revertIf_eq_ok, orPanic_eq_ok, checkedAdd_eq_ok,
    provider_eq_ok, pure_eq_ok, not_lt, List.length_eq_zero_iff, Prod.exists] at hok
  obtain ⟨p, ⟨hknown, rfl⟩, root, leaves, hpin, _, hsome, _, hcount, _, hindices, _, _, _, _, _,
    ⟨hfits, rfl⟩, _, ⟨_, rfl⟩, _, ⟨hdeadline, rfl⟩, rfl⟩ := hok
  exact .challenged hknown hpin hsome hcount (checkIndices_eq_ok hindices) hfits hdeadline

theorem respond_change (hvalue : msg.value = 0) {s : Storage} {challengeId : Nat}
    {indices : List Nat} {n : Nat} {pinnedPeaks : List Hash} {proofs : List ChunkProof}
    {out : Outcome}
    (hok : respond keccak256 dep block msg s challengeId indices n pinnedPeaks proofs = .ok out) :
    Change keccak256 dep block msg s (.respond challengeId indices n pinnedPeaks proofs) out := by
  simp only [respond, bind_eq_ok, revertIf_eq_ok, orPanic_eq_ok, checkedAdd_eq_ok, checkedSub_eq_ok,
    challengeRecord_eq_ok, pure_eq_ok, not_not, not_or, not_le, Bool.not_eq_true] at hok
  obtain ⟨c, ⟨hopened, rfl⟩, _, hsender, _, ⟨_, rfl⟩, _, htime, _, hunresolved, _, hstatus, _, hcount, _,
    hindices, _, ⟨hleaves, hroot⟩, _, hproofs, _, ⟨hopen, rfl⟩, rfl⟩ := hok
  exact .answered hvalue hopened hsender htime hunresolved hstatus hcount hindices hleaves hroot hproofs
    hopen

theorem resolveTimeout_change (hvalue : msg.value = 0) {s : Storage} {challengeId : Nat}
    {out : Outcome} (hok : resolveTimeout dep block msg s challengeId = .ok out) :
    Change keccak256 dep block msg s (.resolveTimeout challengeId) out := by
  simp only [resolveTimeout, bind_eq_ok, revertIf_eq_ok, orPanic_eq_ok, checkedAdd_eq_ok,
    checkedSub_eq_ok, challengeRecord_eq_ok, not_lt, Bool.not_eq_true] at hok
  obtain ⟨c, ⟨hopened, rfl⟩, _, hunresolved, _, ⟨_, rfl⟩, _, htime, _, ⟨hopen, rfl⟩, hbranch⟩ := hok
  by_cases hstatus : (s.providers (s.challengeRecords challengeId).providerId).status = .slashed
  · rw [if_neg (not_not_intro hstatus), pure_eq_ok] at hbranch
    subst hbranch
    have hsame : ∀ open_, ({ s.providers (s.challengeRecords challengeId).providerId with
        openChallenges := open_ } : Provider) =
        { s.providers (s.challengeRecords challengeId).providerId with
          openChallenges := open_, status := .slashed } := by
      intro open_
      rw [← hstatus]
    rw [hsame]
    exact .refunded hvalue hopened hunresolved htime hopen hstatus
  · rw [if_pos hstatus] at hbranch
    simp only [bind_eq_ok, orPanic_eq_ok, checkedAdd_eq_ok, pure_eq_ok, Prod.exists] at hbranch
    obtain ⟨bounty, remainder, hsplit, _, ⟨_, rfl⟩, rfl⟩ := hbranch
    exact .timedOut hvalue hopened hunresolved htime hopen hstatus hsplit

theorem claim_change (hvalue : msg.value = 0) {s : Storage} {out : Outcome}
    (hok : claim msg s = .ok out) : Change keccak256 dep block msg s .claim out := by
  simp only [claim, bind_eq_ok, pure_eq_ok, Prod.exists] at hok
  obtain ⟨sink, amount, hclaim, rfl⟩ := hok
  exact .claimed hvalue hclaim

/-- Every accepted call is one of the changes. -/
theorem dispatch_change {s : Storage} {call : Call} {out : Outcome}
    (hok : dispatch keccak256 dep block msg s call = .ok out) :
    call.inRange = true ∧ Change keccak256 dep block msg s call out := by
  simp only [dispatch, bind_eq_ok, revertIf_eq_ok, not_or, not_and, Bool.not_eq_false,
    not_not] at hok
  obtain ⟨_, ⟨hrange, hvalue⟩, hbody⟩ := hok
  refine ⟨hrange, ?_⟩
  cases call with
  | declareFor d publisherSig openings equivalenceProof =>
      obtain ⟨haccepted, hsame, habsorbed, hpayments, htail⟩ := declareFor_accepted hbody
      exact .declared (hvalue rfl) haccepted hsame habsorbed hpayments htail
  | setAppPointer =>
      exact .pointed (hvalue rfl) (setAppPointer_accepted hbody) (Or.inl ⟨_, _, _, _, rfl⟩)
  | setSuccessor =>
      exact .pointed (hvalue rfl) (setSuccessor_accepted hbody) (Or.inr ⟨_, _, _, _, rfl⟩)
  | stake => exact stake_change hbody
  | initiateUnbonding => exact initiateUnbonding_change (hvalue rfl) hbody
  | withdraw => exact withdraw_change (hvalue rfl) hbody
  | announce url =>
      cases hbody
      exact .noted (hvalue rfl) (Or.inl ⟨url, rfl, rfl⟩)
  | retract =>
      cases hbody
      exact .noted (hvalue rfl) (Or.inr ⟨rfl, rfl⟩)
  | beginProof => exact beginProof_change (hvalue rfl) hbody
  | submitProof => exact submitProof_change (hvalue rfl) hbody
  | submitProofEscape => exact submitProofEscape_change (hvalue rfl) hbody
  | lapse => exact lapse_change (hvalue rfl) hbody
  | challenge => exact challenge_change hbody
  | respond => exact respond_change (hvalue rfl) hbody
  | resolveTimeout => exact resolveTimeout_change (hvalue rfl) hbody
  | claim => exact claim_change (hvalue rfl) hbody

end

end Blobsitter.Contract
