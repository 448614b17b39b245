import Blobsitter.Contract.Answers

/-!
# Nobody acts for an operator

An active provider's record is operated by one address.  Without a call of that address
others can open challenges against the provider, and slash it when a deadline has passed;
nothing else of the record changes, no challenge is settled while it stays active, and its
stake is not returned.
-/

namespace Blobsitter.Contract

open Library
open Reference (Hash Address)

/-- Actions but the operator's own calls to the instance. -/
def notBy (operator : Address) (_ : Block) (_ : Chain) : Action → Bool
  | .call msg _ => msg.sender != operator
  | _ => true

/-- What others can make of an active provider. -/
structure Unattended (base : Chain) (id : Nat) (chain : Chain) : Prop where
  wellFormed : chain.store.WellFormed
  record : ∃ openChallenges status, chain.store.providers id =
    { base.store.providers id with openChallenges := openChallenges, status := status }
  status : (chain.store.providers id).status = .active ∨
    (chain.store.providers id).status = .slashed
  unsettled : (chain.store.providers id).status = .active → ∀ challengeId,
    (chain.store.challengeRecords challengeId).providerId = id →
    (chain.store.challengeRecords challengeId).resolved = true →
    (base.store.challengeRecords challengeId).resolved = true
  returned : ∀ recipient amount, .stakeReturned id recipient amount ∈ chain.payments →
    .stakeReturned id recipient amount ∈ base.payments

section

variable {keccak256 : ByteString → Hash} {dep : Deployment} {block : Block} {msg : Msg}
variable {base chain : Chain} {id : Nat}

namespace Unattended

theorem operator_eq (hkept : Unattended base id chain) :
    (chain.store.providers id).operator = (base.store.providers id).operator := by
  obtain ⟨_, _, hrecord⟩ := hkept.record
  rw [hrecord]

theorem quiet (hkept : Unattended base id chain) {next : Chain} (hquiet : chain.Quiet next) :
    Unattended base id next := by
  obtain ⟨⟨sink, entered, hstore⟩, _, hpayments⟩ := hquiet
  obtain ⟨hwf, hrecord, hstatus, hunsettled, hreturned⟩ := hkept
  refine ⟨?_, ?_, ?_, ?_, ?_⟩
  · rw [hstore]
    exact hwf.of_same rfl rfl rfl rfl
  · rw [hstore]
    exact hrecord
  · rw [hstore]
    exact hstatus
  · rw [hstore]
    exact hunsettled
  · rw [hpayments]
    exact hreturned

/-- What a change has to leave of the provider. -/
theorem step (hkept : Unattended base id chain) {s : Storage} {payments : List Payment}
    (hwf : s.WellFormed)
    (hrecord : ∃ openChallenges status, s.providers id =
      { chain.store.providers id with openChallenges := openChallenges, status := status })
    (hstatus : (s.providers id).status = (chain.store.providers id).status ∨
      (s.providers id).status = .slashed)
    (hunsettled : (s.providers id).status = .active → ∀ challengeId,
      (s.challengeRecords challengeId).providerId = id →
      (s.challengeRecords challengeId).resolved = true →
      (chain.store.challengeRecords challengeId).providerId = id ∧
        (chain.store.challengeRecords challengeId).resolved = true)
    (hreturned : ∀ recipient amount, .stakeReturned id recipient amount ∉ payments) {next : Chain}
    (hstore : next.store = s) (hpayments : next.payments = chain.payments ++ payments) :
    Unattended base id next := by
  subst hstore
  obtain ⟨_, ⟨openBefore, statusBefore, hbefore⟩, hactive, hsettled, hpaid⟩ := hkept
  refine ⟨hwf, ?_, ?_, ?_, ?_⟩
  · obtain ⟨openChallenges, status, hafter⟩ := hrecord
    refine ⟨openChallenges, status, ?_⟩
    rw [hafter, hbefore]
  · rcases hstatus with hsame | hslashed
    · rwa [hsame]
    · exact Or.inr hslashed
  · intro hstill challengeId hid hresolved
    have hwas : (chain.store.providers id).status = .active := by
      rcases hstatus with hsame | hslashed
      · rw [← hsame]
        exact hstill
      · rw [hslashed] at hstill
        cases hstill
    obtain ⟨hid, hresolved⟩ := hunsettled hstill challengeId hid hresolved
    exact hsettled hwas challengeId hid hresolved
  · intro recipient amount hmem
    rw [hpayments] at hmem
    rcases List.mem_append.mp hmem with hold | hnew
    · exact hpaid recipient amount hold
    · exact absurd hnew (hreturned recipient amount)

/-- A change that leaves the records and challenges alone. -/
theorem same (hkept : Unattended base id chain) {s : Storage}
    (hproviders : s.providers = chain.store.providers)
    (hrecords : s.challengeRecords = chain.store.challengeRecords) (hwf : s.WellFormed)
    {payments : List Payment}
    (hreturned : ∀ recipient amount, .stakeReturned id recipient amount ∉ payments) {next : Chain}
    (hstore : next.store = s) (hpayments : next.payments = chain.payments ++ payments) :
    Unattended base id next := by
  refine hkept.step hwf ⟨(chain.store.providers id).openChallenges,
    (chain.store.providers id).status, ?_⟩ (Or.inl ?_) ?_ hreturned hstore hpayments
  · rw [hproviders]
  · rw [hproviders]
  · intro _ challengeId hid hresolved
    rw [hrecords] at hid hresolved
    exact ⟨hid, hresolved⟩

/-- Another provider's record was set. -/
theorem elsewhere (hkept : Unattended base id chain) {other : Nat} (hother : other ≠ id)
    {p : Provider} (hwf : (chain.store.setProvider other p).WellFormed) {payments : List Payment}
    (hreturned : ∀ recipient amount, .stakeReturned id recipient amount ∉ payments) {next : Chain}
    (hstore : next.store = chain.store.setProvider other p)
    (hpayments : next.payments = chain.payments ++ payments) : Unattended base id next := by
  have hprovider : (chain.store.setProvider other p).providers id = chain.store.providers id := by
    rw [Storage.setProvider_providers, Function.update_of_ne hother.symm]
  refine hkept.step hwf ⟨(chain.store.providers id).openChallenges,
    (chain.store.providers id).status, hprovider⟩ (Or.inl ?_) ?_ hreturned hstore hpayments
  · rw [hprovider]
  · exact fun _ challengeId hid hresolved => ⟨hid, hresolved⟩

/-- A challenge was opened. -/
theorem opened (hkept : Unattended base id chain) {c : Challenge} (hunresolved : c.resolved = false)
    (hwf : (chain.store.addChallenge c).WellFormed) {next : Chain}
    (hstore : next.store = chain.store.addChallenge c) (hpayments : next.payments = chain.payments) :
    Unattended base id next := by
  have hproviders : (chain.store.addChallenge c).providers =
      Function.update chain.store.providers c.providerId
        { chain.store.providers c.providerId with
          openChallenges := (chain.store.providers c.providerId).openChallenges + 1 } := rfl
  have hrecords : (chain.store.addChallenge c).challengeRecords =
      Function.update chain.store.challengeRecords chain.store.nextChallengeId c := rfl
  have hprovider : ∃ openChallenges, (chain.store.addChallenge c).providers id =
      { chain.store.providers id with openChallenges := openChallenges } := by
    rw [hproviders]
    by_cases hid : id = c.providerId
    · rw [hid, Function.update_self]
      exact ⟨_, rfl⟩
    · rw [Function.update_of_ne hid]
      exact ⟨(chain.store.providers id).openChallenges, rfl⟩
  obtain ⟨openChallenges, hprovider⟩ := hprovider
  refine hkept.step hwf ⟨openChallenges, (chain.store.providers id).status, hprovider⟩ (Or.inl ?_) ?_
    (fun _ _ => List.not_mem_nil) hstore (hpayments.trans (List.append_nil _).symm)
  · rw [hprovider]
  · intro _ challengeId hid hresolved
    rw [hrecords] at hid hresolved
    by_cases hnew : challengeId = chain.store.nextChallengeId
    · rw [hnew, Function.update_self, hunresolved] at hresolved
      cases hresolved
    · rw [Function.update_of_ne hnew] at hid hresolved
      exact ⟨hid, hresolved⟩

/-- A challenge was settled; if it was the provider's own, the provider is slashed. -/
theorem settled (hkept : Unattended base id chain) {challengeId : Nat} {status : ProviderStatus}
    (hslashed : (chain.store.challengeRecords challengeId).providerId = id → status = .slashed)
    (hwf : (chain.store.resolve challengeId status).WellFormed) {payments : List Payment}
    (hreturned : ∀ recipient amount, .stakeReturned id recipient amount ∉ payments) {next : Chain}
    (hstore : next.store = chain.store.resolve challengeId status)
    (hpayments : next.payments = chain.payments ++ payments) : Unattended base id next := by
  have hrecords : (chain.store.resolve challengeId status).challengeRecords =
      Function.update chain.store.challengeRecords challengeId
        { chain.store.challengeRecords challengeId with resolved := true } := rfl
  have hproviders : (chain.store.resolve challengeId status).providers =
      Function.update chain.store.providers (chain.store.challengeRecords challengeId).providerId
        { chain.store.providers (chain.store.challengeRecords challengeId).providerId with
          openChallenges := (chain.store.providers
            (chain.store.challengeRecords challengeId).providerId).openChallenges - 1
          status := status } := rfl
  by_cases hid : (chain.store.challengeRecords challengeId).providerId = id
  · obtain rfl := hslashed hid
    have hprovider : (chain.store.resolve challengeId .slashed).providers id =
        { chain.store.providers id with
          openChallenges := (chain.store.providers id).openChallenges - 1
          status := .slashed } := by
      rw [hproviders, hid, Function.update_self]
    refine hkept.step hwf ⟨_, _, hprovider⟩ (Or.inr ?_) ?_ hreturned hstore hpayments
    · rw [hprovider]
    · intro hactive
      rw [hprovider] at hactive
      cases hactive
  · have hprovider : (chain.store.resolve challengeId status).providers id =
        chain.store.providers id := by
      rw [hproviders, Function.update_of_ne fun heq => hid heq.symm]
    refine hkept.step hwf ⟨(chain.store.providers id).openChallenges,
      (chain.store.providers id).status, hprovider⟩ (Or.inl ?_) ?_ hreturned hstore hpayments
    · rw [hprovider]
    · intro _ other hother hresolved
      rw [hrecords] at hother hresolved
      by_cases hsame : other = challengeId
      · subst hsame
        rw [Function.update_self] at hother
        exact absurd hother hid
      · rw [Function.update_of_ne hsame] at hother hresolved
        exact ⟨hother, hresolved⟩

end Unattended

/-- An accepted call of somebody else. -/
theorem Unattended.accepted (hkept : Unattended base id chain)
    {call : Call} {out : Outcome} (hsender : msg.sender ≠ (base.store.providers id).operator)
    (haccepted : Accepted keccak256 dep block chain msg call out) :
    Unattended base id (chain.applyOutcome block msg.value out) := by
  have hoperator := hkept.operator_eq
  have hchange := haccepted.change
  have hwf := hchange.wellFormed haccepted.outside hkept.wellFormed
  have hstatus := hkept.status
  -- a call that only the operator may make is about another provider
  have hother : ∀ {other : Nat}, msg.sender = (chain.store.providers other).operator →
      other ≠ id := by
    rintro other hsent rfl
    exact hsender (hsent.trans hoperator)
  have hnothing : ∀ (recipient : Address) (amount : Nat),
      Payment.stakeReturned id recipient amount ∉ ([] : List Payment) := by
    intro recipient amount hmem
    cases hmem
  cases hchange with
  | declared _ _ hsame _ hpayments =>
      refine hkept.same hsame.providers hsame.challengeRecords hwf hnothing rfl ?_
      exact congrArg (chain.payments ++ ·) hpayments
  | pointed _ haccepted =>
      refine hkept.same haccepted.same.providers haccepted.same.challengeRecords hwf hnothing rfl ?_
      exact congrArg (chain.payments ++ ·) haccepted.payments
  | noted => exact hkept.same rfl rfl hwf hnothing rfl rfl
  | claimed => refine hkept.same ?_ ?_ hwf hnothing rfl rfl <;> rfl
  | @staked operator withdrawal =>
      have hbelow : id < chain.store.nextProviderId := by
        refine hkept.wellFormed.assigned fun hnone => ?_
        rw [hnone] at hstatus
        rcases hstatus with hactive | hslashed
        · cases hactive
        · cases hslashed
      have hprovider : (chain.store.addProvider operator withdrawal
          (block.timestamp % 2 ^ 64)).providers id = chain.store.providers id :=
        Function.update_of_ne (Nat.ne_of_lt hbelow) _ _
      refine hkept.step hwf ⟨(chain.store.providers id).openChallenges,
        (chain.store.providers id).status, hprovider⟩ (Or.inl ?_) ?_ hnothing rfl rfl
      · exact congrArg Provider.status hprovider
      · exact fun _ challengeId hid hresolved => ⟨hid, hresolved⟩
  | unbonded _ hsent => exact hkept.elsewhere (hother hsent) hwf hnothing rfl rfl
  | @withdrawn other _ hunbonding =>
      have hne : other ≠ id := by
        rintro rfl
        rw [hunbonding] at hstatus
        rcases hstatus with hactive | hslashed
        · cases hactive
        · cases hslashed
      refine hkept.elsewhere hne hwf ?_ rfl rfl
      intro recipient amount hmem
      cases List.mem_singleton.mp hmem
      exact hne rfl
  | committed _ hsent => exact hkept.elsewhere (hother hsent) hwf hnothing rfl rfl
  | proven _ _ hsent => exact hkept.elsewhere (hother hsent) hwf hnothing rfl rfl
  | @lapsed other bounty remainder =>
      have hslashing : ∀ (recipient : Address) (amount : Nat), Payment.stakeReturned id recipient
          amount ∉ [Payment.stakeSlashed other msg.sender bounty remainder] := by
        intro recipient amount hmem
        cases List.mem_singleton.mp hmem
      by_cases hid : other = id
      · subst hid
        have hprovider : (chain.store.setProvider other
            { chain.store.providers other with status := .slashed }).providers other =
              { chain.store.providers other with status := .slashed } := by
          rw [Storage.setProvider_providers, Function.update_self]
        refine hkept.step hwf ⟨_, _, hprovider⟩ (Or.inr ?_) ?_ hslashing rfl rfl
        · exact congrArg Provider.status hprovider
        · exact fun _ challengeId hid hresolved => ⟨hid, hresolved⟩
      · exact hkept.elsewhere hid hwf hslashing rfl rfl
  | challenged =>
      have hunopened := hkept.wellFormed.unopened _ le_rfl
      refine hkept.opened ?_ hwf rfl (List.append_nil _)
      rw [hunopened]
      rfl
  | answered _ _ hsent =>
      refine hkept.settled (fun hid => absurd hid (hother hsent)) hwf ?_ rfl rfl
      intro recipient amount hmem
      cases List.mem_singleton.mp hmem
  | timedOut =>
      refine hkept.settled (fun _ => rfl) hwf ?_ rfl rfl
      intro recipient amount hmem
      simp at hmem
  | refunded =>
      refine hkept.settled (fun _ => rfl) hwf ?_ rfl rfl
      intro recipient amount hmem
      cases List.mem_singleton.mp hmem

theorem unattended_preserves :
    ((system keccak256 dep).restrict (notBy (base.store.providers id).operator)).Preserves
      fun _ chain => Unattended base id chain := by
  refine guarded_preserves ?_ ?_ ?_
  · exact fun hquiet hkept => hkept.quiet hquiet
  · intro block chain msg call out hguard haccepted hkept
    exact hkept.accepted (bne_iff_ne.mp hguard) haccepted
  · exact fun hkept _ => hkept

/-- From a reachable state with no call open, and as long as the operator of an active provider
makes no call: whatever others do, in any order and nested in any way, the record keeps its
operator, withdrawal address, anchor, proofs, commitment and exit pin; the status is still
active or it is slashed; while it is active no challenge against the provider has been settled;
and its stake has not been returned to anybody. -/
theorem operator_alone_acts {world later : World} {id : Nat}
    (hreach : Reachable keccak256 dep world) (hidle : world.stack = [])
    (hactive : (world.state.store.providers id).status = .active)
    (hsteps : ((system keccak256 dep).restrict
      (notBy (world.state.store.providers id).operator)).Steps world later) :
    (∃ openChallenges status, later.state.store.providers id =
        { world.state.store.providers id with
          openChallenges := openChallenges, status := status } ∧
        (status = .active ∨ status = .slashed)) ∧
      ((later.state.store.providers id).status = .active → ∀ challengeId,
        (later.state.store.challengeRecords challengeId).providerId = id →
        (later.state.store.challengeRecords challengeId).resolved = true →
        (world.state.store.challengeRecords challengeId).resolved = true) ∧
      ∀ recipient amount, .stakeReturned id recipient amount ∈ later.state.payments →
        .stakeReturned id recipient amount ∈ world.state.payments := by
  obtain ⟨env, chain, stack⟩ := world
  cases hidle
  have hstart : Unattended chain id chain :=
    ⟨hreach.distributed.wellFormed, ⟨_, _, rfl⟩, Or.inl hactive,
      fun _ _ _ hresolved => hresolved, fun _ _ hmem => hmem⟩
  have hkept := (hsteps.holds unattended_preserves (Machine.holds_of_idle hstart)).state
  obtain ⟨openChallenges, status, hrecord⟩ := hkept.record
  refine ⟨⟨openChallenges, status, hrecord, ?_⟩, hkept.unsettled, hkept.returned⟩
  have hstatus := hkept.status
  rw [hrecord] at hstatus
  exact hstatus

end

set_option maxRecDepth 10000 in
/-- Two missed periods after the stake somebody else lapses the provider. -/
theorem operator_alone_acts_lapsed :
    (lapsedWorld.state.store.providers 1).status = .slashed ∧
      ∃ openChallenges status, lapsedWorld.state.store.providers 1 =
        { stakedWorld.state.store.providers 1 with
          openChallenges := openChallenges, status := status } := by
  let others := (system Keccak.keccak256 sampleDeployment).restrict
    (notBy (stakedWorld.state.store.providers 1).operator)
  have hadvance : others.Step stakedWorld dueWorld :=
    .advances (show stakeBlock.timestamp ≤ lapseBlock.timestamp by decide)
  have hcall : others.call lapseBlock lapseAction dueWorld.state =
      some (dueWorld.state.after lapseBlock lapseAction) := rfl
  have hsteps : others.Steps stakedWorld lapsedWorld := (Relation.ReflTransGen.single hadvance).tail (.opens hcall)
  obtain ⟨⟨openChallenges, status, hrecord, _⟩, _⟩ :=
    operator_alone_acts stakedWorld_reachable rfl rfl hsteps
  exact ⟨rfl, openChallenges, status, hrecord⟩

end Blobsitter.Contract
