import Blobsitter.Contract.Distribution

/-!
# Solvency of the instance

What the instance owes is the stakes of live providers, the bonds of unresolved
challenges and the parked payouts.  Every accepted call moves this sum by exactly the
ETH it takes and gives, so the balance always covers it.
-/

namespace Blobsitter.Contract

open Library
open Reference (Chunk Hash Address)

/-- Ids of the active and unbonding providers. -/
def Storage.live (s : Storage) : Finset Nat :=
  (Finset.range s.nextProviderId).filter fun id =>
    (s.providers id).status = .active ∨ (s.providers id).status = .unbonding

/-- Bonds of the unresolved challenges. -/
def Storage.openBonds (s : Storage) : Nat :=
  ∑ id ∈ (Finset.range s.nextChallengeId).filter fun id =>
    (s.challengeRecords id).resolved = false, (s.challengeRecords id).bond

/-- Stakes held, open bonds and parked payouts. -/
def Storage.owed (dep : Deployment) (s : Storage) : Nat :=
  dep.params.stakeWei * s.live.card + s.openBonds + s.sink.totalClaimable

def ProviderStatus.liveCount : ProviderStatus → Nat
  | .active => 1
  | .unbonding => 1
  | _ => 0

def Challenge.openBond (c : Challenge) : Nat := if c.resolved = false then c.bond else 0

section

variable {keccak256 : ByteString → Hash} {dep : Deployment} {block : Block} {msg : Msg}
variable {s : Storage}

theorem Storage.card_live (s : Storage) :
    s.live.card = recordSum (fun p : Provider => p.status.liveCount) s.nextProviderId s.providers := by
  have hcount : ∀ status : ProviderStatus,
      (if status = .active ∨ status = .unbonding then 1 else 0) = status.liveCount := by
    intro status
    cases status <;> rfl
  rw [Storage.live, Finset.card_filter]
  exact Finset.sum_congr rfl fun id _ => hcount _

theorem Storage.openBonds_eq (s : Storage) :
    s.openBonds = recordSum Challenge.openBond s.nextChallengeId s.challengeRecords :=
  Finset.sum_filter _ _

theorem live_setProvider {id : Nat} {p : Provider} (hid : id < s.nextProviderId) :
    (s.setProvider id p).live.card + (s.providers id).status.liveCount =
      s.live.card + p.status.liveCount := by
  rw [Storage.card_live, Storage.card_live]
  exact recordSum_update (fun p : Provider => p.status.liveCount) _ _ hid p

theorem live_addProvider (operator withdrawal : Address) (anchor : Nat) :
    (s.addProvider operator withdrawal anchor).live.card = s.live.card + 1 := by
  rw [Storage.card_live, Storage.card_live]
  exact recordSum_push (fun p : Provider => p.status.liveCount) _ _ _

theorem live_addChallenge (c : Challenge) : (s.addChallenge c).live.card = s.live.card := by
  rw [Storage.card_live, Storage.card_live]
  exact recordSum_update_same (fun p : Provider => p.status.liveCount) _ _ rfl

theorem openBonds_addChallenge {c : Challenge} (hunresolved : c.resolved = false) :
    (s.addChallenge c).openBonds = s.openBonds + c.bond := by
  rw [Storage.openBonds_eq, Storage.openBonds_eq]
  have hpush := recordSum_push Challenge.openBond s.nextChallengeId s.challengeRecords c
  rwa [Challenge.openBond, if_pos hunresolved] at hpush

theorem live_resolve {challengeId : Nat} (status : ProviderStatus)
    (hid : (s.challengeRecords challengeId).providerId < s.nextProviderId) :
    (s.resolve challengeId status).live.card +
        (s.providers (s.challengeRecords challengeId).providerId).status.liveCount =
      s.live.card + status.liveCount := by
  rw [Storage.card_live, Storage.card_live]
  exact recordSum_update (fun p : Provider => p.status.liveCount) _ _ hid _

theorem openBonds_resolve {challengeId : Nat} (status : ProviderStatus)
    (hbelow : challengeId < s.nextChallengeId)
    (hunresolved : (s.challengeRecords challengeId).resolved = false) :
    (s.resolve challengeId status).openBonds + (s.challengeRecords challengeId).bond =
      s.openBonds := by
  rw [Storage.openBonds_eq, Storage.openBonds_eq]
  have hupdate := recordSum_update Challenge.openBond s.nextChallengeId s.challengeRecords hbelow
    { s.challengeRecords challengeId with resolved := true }
  rw [Challenge.openBond, if_pos hunresolved] at hupdate
  exact hupdate

theorem owed_of_same {next : Storage} (hproviders : next.providers = s.providers)
    (hproviderId : next.nextProviderId = s.nextProviderId)
    (hchallenges : next.challengeRecords = s.challengeRecords)
    (hchallengeId : next.nextChallengeId = s.nextChallengeId) (hsink : next.sink = s.sink) :
    next.owed dep = s.owed dep := by
  unfold Storage.owed Storage.live Storage.openBonds
  rw [hproviders, hproviderId, hchallenges, hchallengeId, hsink]

/-- A provider that keeps a live status, or leaves with its stake. -/
theorem owed_setProvider (dep : Deployment) (hwf : s.WellFormed) {id : Nat} (p : Provider)
    (hlive : (s.providers id).status.liveCount = 1) :
    (s.setProvider id p).owed dep + dep.params.stakeWei =
      s.owed dep + dep.params.stakeWei * p.status.liveCount := by
  have hassigned : (s.providers id).status ≠ .none := by
    intro hnone
    rw [hnone] at hlive
    cases hlive
  have hcount := live_setProvider (p := p) (hwf.assigned hassigned)
  rw [hlive] at hcount
  have hscaled := congrArg (dep.params.stakeWei * ·) hcount
  simp only [Nat.mul_add, Nat.mul_one] at hscaled
  change _ + s.openBonds + s.sink.totalClaimable + _ = _
  unfold Storage.owed
  omega

theorem owed_addChallenge {c : Challenge} (hunresolved : c.resolved = false) :
    (s.addChallenge c).owed dep = s.owed dep + c.bond := by
  have hsink : (s.addChallenge c).sink = s.sink := rfl
  unfold Storage.owed
  rw [live_addChallenge, openBonds_addChallenge hunresolved, hsink]
  omega

theorem owed_resolve (dep : Deployment) (hwf : s.WellFormed) {challengeId : Nat}
    (status : ProviderStatus)
    (hopened : (s.challengeRecords challengeId).challenger ≠ zeroAddress)
    (hunresolved : (s.challengeRecords challengeId).resolved = false) :
    (s.resolve challengeId status).owed dep + (s.challengeRecords challengeId).bond +
        dep.params.stakeWei *
          (s.providers (s.challengeRecords challengeId).providerId).status.liveCount =
      s.owed dep + dep.params.stakeWei * status.liveCount := by
  have hbelow := hwf.openedBelow hopened
  have hcount := live_resolve status (hwf.assigned (hwf.opened _ hbelow).2)
  have hbonds := openBonds_resolve status hbelow hunresolved
  have hscaled := congrArg (dep.params.stakeWei * ·) hcount
  simp only [Nat.mul_add] at hscaled
  have hsink : (s.resolve challengeId status).sink = s.sink := rfl
  unfold Storage.owed
  rw [hsink]
  omega

theorem liveCount_of_active {status : ProviderStatus} (hactive : status = .active) :
    status.liveCount = 1 := by
  rw [hactive]
  rfl

/-- A provider with an open challenge has its stake, unless it is slashed. -/
theorem liveCount_of_unresolved (hwf : s.WellFormed) {challengeId : Nat}
    (hopened : (s.challengeRecords challengeId).challenger ≠ zeroAddress)
    (hunresolved : (s.challengeRecords challengeId).resolved = false)
    (hstatus : (s.providers (s.challengeRecords challengeId).providerId).status ≠ .slashed) :
    (s.providers (s.challengeRecords challengeId).providerId).status.liveCount = 1 := by
  have hexited := hwf.not_exited hopened hunresolved
  have hnone := (hwf.opened _ (hwf.openedBelow hopened)).2
  cases hcase : (s.providers (s.challengeRecords challengeId).providerId).status with
  | none => exact absurd hcase hnone
  | active => rfl
  | unbonding => rfl
  | exited => exact absurd hcase hexited
  | slashed => exact absurd hcase hstatus

/-- A provider that keeps its stake changes nothing that is owed. -/
theorem owed_of_live (hwf : s.WellFormed) {id : Nat} {p : Provider}
    (hbefore : (s.providers id).status.liveCount = 1) (hafter : p.status.liveCount = 1) :
    (s.setProvider id p).owed dep = s.owed dep := by
  have howed := owed_setProvider dep hwf p hbefore
  rw [hafter, Nat.mul_one] at howed
  exact Nat.add_right_cancel howed

/-- The stake of a provider that loses it is no longer owed. -/
theorem owed_of_left (hwf : s.WellFormed) {id : Nat} {p : Provider}
    (hbefore : (s.providers id).status.liveCount = 1) (hafter : p.status.liveCount = 0) :
    (s.setProvider id p).owed dep + dep.params.stakeWei = s.owed dep := by
  have howed := owed_setProvider dep hwf p hbefore
  rwa [hafter, Nat.mul_zero, Nat.add_zero] at howed

/-- What is owed and the value of a call become what is owed afterwards, the absorbed
remainder and the transfer of the tail. -/
theorem Change.owed {call : Call} {out : Outcome}
    (hchange : Change keccak256 dep block msg s call out) (hwf : s.WellFormed)
    (hbalanced : s.sink.Balanced) :
    s.owed dep + msg.value = out.storage.owed dep + out.absorbed.getD 0 + out.tail.amount := by
  cases hchange with
  | declared hvalue _ hsame habsorbed _ htail =>
      obtain ⟨amount, htail⟩ := htail
      rw [hvalue, habsorbed, htail, owed_of_same hsame.providers hsame.nextProviderId
        hsame.challengeRecords hsame.nextChallengeId hsame.sink]
      rfl
  | pointed hvalue haccepted =>
      obtain ⟨amount, htail⟩ := haccepted.tail
      have hsame := haccepted.same
      rw [hvalue, haccepted.absorbed, htail, owed_of_same hsame.providers hsame.nextProviderId
        hsame.challengeRecords hsame.nextChallengeId hsame.sink]
      rfl
  | noted hvalue => rw [hvalue]; rfl
  | @staked operator withdrawal hvalue =>
      have hcount := live_addProvider (s := s) operator withdrawal (block.timestamp % 2 ^ 64)
      change _ = (s.addProvider operator withdrawal (block.timestamp % 2 ^ 64)).owed dep + 0 + 0
      unfold Storage.owed
      rw [hcount, hvalue, Nat.mul_add, Nat.mul_one]
      change _ = _ + s.openBonds + s.sink.totalClaimable + 0 + 0
      omega
  | unbonded hvalue _ hstatus =>
      rw [hvalue]
      exact (owed_of_live hwf (liveCount_of_active hstatus) rfl).symm
  | withdrawn hvalue hstatus =>
      rw [hvalue]
      exact (owed_of_left hwf (by rw [hstatus]; rfl) rfl).symm
  | @committed id _ hvalue _ hstatus =>
      rw [hvalue]
      have hlive := liveCount_of_active hstatus
      refine (owed_of_live hwf hlive ?_).symm
      exact hlive
  | @proven _ id _ _ hvalue _ _ hstatus =>
      rw [hvalue]
      have hlive := liveCount_of_active hstatus
      refine (owed_of_live hwf hlive ?_).symm
      exact hlive
  | @lapsed id bounty remainder hvalue hstatus _ hsplit =>
      have hwhole := (slashSplit_eq_ok hsplit).2
      have howed : (s.setProvider id { s.providers id with status := .slashed }).owed dep +
          dep.params.stakeWei = s.owed dep := owed_of_left hwf (liveCount_of_active hstatus) rfl
      rw [hvalue]
      change _ = (s.setProvider id _).owed dep + remainder + bounty
      omega
  | @challenged id indices root leafCount _ hpin =>
      have hfresh : (s.challengeRecords s.nextChallengeId).resolved = false := by
        rw [hwf.unopened _ le_rfl]
        rfl
      change _ = (s.addChallenge _).owed dep + 0 + 0
      rw [owed_addChallenge]
      · rfl
      · exact hfresh
  | @answered challengeId _ _ _ _ hvalue hopened _ _ hunresolved =>
      have howed := owed_resolve dep hwf
        (s.providers (s.challengeRecords challengeId).providerId).status hopened hunresolved
      rw [hvalue]
      change _ = (Storage.resolve s _ _).owed dep + 0 + (s.challengeRecords challengeId).bond
      omega
  | @timedOut challengeId bounty remainder hvalue hopened hunresolved _ _ hstatus hsplit =>
      have hwhole := (slashSplit_eq_ok hsplit).2
      have hlive := liveCount_of_unresolved hwf hopened hunresolved hstatus
      have howed := owed_resolve dep hwf .slashed hopened hunresolved
      rw [hlive] at howed
      rw [hvalue]
      change _ = (s.resolve challengeId .slashed).owed dep + remainder +
        (bounty + (s.challengeRecords challengeId).bond)
      change _ = s.owed dep + dep.params.stakeWei * 0 at howed
      omega
  | @refunded challengeId hvalue hopened hunresolved _ _ hstatus =>
      have howed := owed_resolve dep hwf .slashed hopened hunresolved
      rw [hstatus] at howed
      rw [hvalue]
      change _ = (s.resolve challengeId .slashed).owed dep + 0 +
        (s.challengeRecords challengeId).bond
      omega
  | @claimed sink amount hvalue hclaim =>
      have htotal := (hbalanced.claim hclaim).2
      rw [hvalue]
      change _ = dep.params.stakeWei * s.live.card + s.openBonds + sink.totalClaimable + 0 + amount
      unfold Storage.owed
      omega

theorem Change.balanced {call : Call} {out : Outcome}
    (hchange : Change keccak256 dep block msg s call out) (hbalanced : s.sink.Balanced) :
    out.storage.sink.Balanced := by
  cases hchange with
  | declared _ _ hsame =>
      rw [hsame.sink]
      exact hbalanced
  | pointed _ haccepted =>
      rw [haccepted.same.sink]
      exact hbalanced
  | claimed _ hclaim => exact (hbalanced.claim hclaim).1
  | _ => exact hbalanced

/-! ## The balance -/

/-- The records are sound, and the balance is what was forced in and what is owed. -/
structure Solvent (dep : Deployment) (chain : Chain) : Prop where
  wellFormed : chain.store.WellFormed
  balanced : chain.store.sink.Balanced
  covered : chain.balance = chain.forced + chain.store.owed dep
  bounded : chain.balance < etherBound

namespace Solvent

variable {chain entry next : Chain}

theorem aside (hsolvent : Solvent dep chain) (haside : chain.Aside next) : Solvent dep next := by
  obtain ⟨⟨entered, hstore⟩, _, _, hbalance, hforced⟩ := haside
  refine ⟨?_, ?_, ?_, ?_⟩
  · rw [hstore]
    exact hsolvent.wellFormed.of_same rfl rfl rfl rfl
  · rw [hstore]
    exact hsolvent.balanced
  · rw [hbalance, hforced, hstore]
    exact hsolvent.covered
  · rw [hbalance]
    exact hsolvent.bounded

/-- Storage is sound and the balance covers what is owed and an amount still to be paid. -/
structure Owing (dep : Deployment) (chain : Chain) (amount : Nat) : Prop where
  wellFormed : chain.store.WellFormed
  balanced : chain.store.sink.Balanced
  covered : chain.balance = chain.forced + chain.store.owed dep + amount
  bounded : chain.balance < etherBound

theorem park {recipient : Address} {amount : Nat} (hentry : Solvent dep entry)
    (howing : Owing dep chain amount) :
    Solvent dep (chain.park block entry recipient amount) := by
  unfold Chain.park
  cases hpark : chain.store.sink.park recipient amount with
  | error code => exact hentry
  | ok sink =>
      obtain ⟨hbalanced, htotal⟩ := howing.balanced.park hpark
      refine ⟨howing.wellFormed.of_same rfl rfl rfl rfl, hbalanced, ?_, howing.bounded⟩
      have hcovered := howing.covered
      change chain.balance = chain.forced + (dep.params.stakeWei * chain.store.live.card +
        chain.store.openBonds + sink.totalClaimable)
      unfold Storage.owed at hcovered
      omega

theorem pay {amount : Nat} (howing : Owing dep chain amount) :
    Solvent dep { chain with balance := chain.balance - amount } := by
  refine ⟨howing.wellFormed, howing.balanced, ?_, (Nat.sub_le _ _).trans_lt howing.bounded⟩
  have hcovered := howing.covered
  change chain.balance - amount = chain.forced + chain.store.owed dep
  omega

theorem startPayout {recipient : Address} {amount : Nat} {frame : Option (Frame Chain Rest)}
    (hentry : Solvent dep entry) (howing : Owing dep chain amount)
    (hstart : chain.startPayout dep block entry recipient amount = (next, frame)) {result : Chain}
    (hresult : Results next frame result) : Solvent dep result := by
  unfold Chain.startPayout at hstart
  simp only at hstart
  split at hstart
  · cases hstart
    obtain rfl := hresult.returned
    exact park hentry howing
  · cases hstart
    rcases hresult.opened with rfl | rfl | rfl
    · exact pay howing
    · exact park hentry howing
    · exact hentry

theorem claim {recipient : Address} {amount : Nat} {starved : Bool}
    {frame : Option (Frame Chain Rest)} (hentry : Solvent dep entry)
    (howing : Owing dep chain amount)
    (hstart : chain.startTail dep block entry starved (.claim recipient amount) = some (next, frame))
    {result : Chain} (hresult : Results next frame result) : Solvent dep result := by
  rw [Chain.startTail] at hstart
  split at hstart
  · cases hstart
  · cases hstart
    rcases hresult.opened with rfl | rfl | rfl
    · exact pay howing
    · exact hentry
    · exact hentry

theorem startTail {tail : Tail} {starved : Bool} {frame : Option (Frame Chain Rest)}
    (hentry : Solvent dep entry) (howing : Owing dep chain tail.amount)
    (hstart : chain.startTail dep block entry starved tail = some (next, frame)) {result : Chain}
    (hresult : Results next frame result) : Solvent dep result := by
  cases tail with
  | done =>
      cases hstart
      obtain rfl := hresult.returned
      exact ⟨howing.wellFormed, howing.balanced, howing.covered, howing.bounded⟩
  | payout recipient amount => exact startPayout hentry howing (Option.some.inj hstart) hresult
  | claim recipient amount => exact claim hentry howing hstart hresult
  | reimburse carrier amount isDeclaration =>
      have hsolvent : Solvent dep chain := ⟨howing.wellFormed, howing.balanced, howing.covered, howing.bounded⟩
      exact hsolvent.aside (startReimbursement_results (Option.some.inj hstart) hresult)

/-- After the effects of an accepted call the balance covers what is owed and the
transfer still to be made; it covered the absorbed remainder too. -/
theorem applyOutcome {call : Call} {out : Outcome} (hsolvent : Solvent dep chain)
    (haccepted : Accepted keccak256 dep block chain msg call out) :
    Owing dep (chain.applyOutcome block msg.value out) out.tail.amount ∧
      out.absorbed.getD 0 + out.tail.amount ≤ chain.balance + msg.value := by
  have howed := haccepted.change.owed hsolvent.wellFormed hsolvent.balanced
  have hcovered := hsolvent.covered
  have hbalance : (chain.applyOutcome block msg.value out).balance =
      chain.balance + msg.value - out.absorbed.getD 0 := rfl
  refine ⟨⟨haccepted.change.wellFormed haccepted.outside hsolvent.wellFormed,
    haccepted.change.balanced hsolvent.balanced, ?_, ?_⟩, by omega⟩
  · rw [hbalance]
    change _ = chain.forced + out.storage.owed dep + _
    omega
  · rw [hbalance]
    exact (Nat.sub_le _ _).trans_lt haccepted.balance_lt

theorem act {action : Action} {frame : Option (Frame Chain Rest)} (hsolvent : Solvent dep chain)
    (hact : chain.act dep block keccak256 action = some (next, frame)) {result : Chain}
    (hresult : Results next frame result) : Solvent dep result := by
  rcases act_cases hact hresult with ⟨msg, call, _, hcall⟩ | ⟨amount, hbound, rfl⟩ | haside
  · obtain ⟨out, haccepted, _, hstart⟩ := callInstance_accepted hcall
    exact startTail hsolvent (hsolvent.applyOutcome haccepted).1 hstart hresult
  · refine ⟨hsolvent.wellFormed, hsolvent.balanced, ?_,
      (Nat.add_le_add_right (Nat.le_add_right _ _) _).trans_lt hbound⟩
    have hcovered := hsolvent.covered
    change chain.balance + amount = chain.forced + amount + chain.store.owed dep
    omega
  · exact hsolvent.aside haside

theorem preserves : (system keccak256 dep).Preserves fun _ chain => Solvent dep chain where
  returns _ _ _ _ _ hsolvent hcall := hsolvent.act hcall (Or.inl rfl)
  opens _ _ _ _ _ hsolvent hcall :=
    ⟨hsolvent.act hcall (Or.inr ⟨_, rfl, Or.inl rfl⟩),
      hsolvent.act hcall (Or.inr ⟨_, rfl, Or.inr rfl⟩)⟩
  resume _ _ _ _ hsolvent hresume := hsolvent.aside (resume_aside hresume)
  advance _ _ _ hsolvent _ := hsolvent

theorem deployed (block : Block) : Solvent dep (Chain.deployed dep block) := by
  refine ⟨(deployed_distributed block).wellFormed, ?_, ?_,
    show 0 < etherBound by decide⟩
  · change 0 = ∑ account : Address, 0
    rw [Finset.sum_const_zero]
  · have hlive : (Chain.deployed dep block).store.live = ∅ := rfl
    have hbonds : (Chain.deployed dep block).store.openBonds = 0 := rfl
    change 0 = 0 + Storage.owed dep _
    rw [Storage.owed, hlive, hbonds]
    rfl

end Solvent

theorem Reachable.solvent {world : World} (hreach : Reachable keccak256 dep world) :
    Solvent dep world.state :=
  (hreach.holds Solvent.preserves Solvent.deployed).state

/-- The balance is exactly what was forced in, the stakes of live providers, the bonds
of unresolved challenges and the parked payouts; every accepted call is funded. -/
theorem instance_solvent {world : World} (hreach : Reachable keccak256 dep world) :
    world.state.balance = world.state.forced +
      (dep.params.stakeWei * world.state.store.live.card + world.state.store.openBonds +
        world.state.store.sink.totalClaimable) ∧
    world.state.store.sink.totalClaimable =
      ∑ account : Address, world.state.store.sink.claimable account ∧
    ∀ msg call out, Accepted keccak256 dep world.env world.state msg call out →
      out.absorbed.getD 0 + out.tail.amount ≤ world.state.balance + msg.value := by
  have hsolvent := hreach.solvent
  refine ⟨hsolvent.covered, hsolvent.balanced, ?_⟩
  intro msg call out haccepted
  exact (hsolvent.applyOutcome haccepted).2

theorem instance_solvent_lapsed :
    lapsedWorld.state.balance = lapsedWorld.state.forced +
      (sampleDeployment.params.stakeWei * lapsedWorld.state.store.live.card +
        lapsedWorld.state.store.openBonds + lapsedWorld.state.store.sink.totalClaimable) :=
  (instance_solvent lapsedWorld_reachable).1

end

end Blobsitter.Contract
