import Blobsitter.Contract.Pins
import Blobsitter.Contract.Solvency
import Blobsitter.Contract.PaymasterRuns

/-!
# Answering pins

An operator who kept the chunks answers every open challenge: the peaks and paths
rebuilt from the pinned prefix pass.  And an answer that passes reveals the stream's
own chunks, unless the hash collides.
-/

namespace Blobsitter.Contract

open Library
open Reference (Chunk Hash Address NoCollision rootPreimage)

section

variable {keccak256 : ByteString → Hash} {dep : Deployment} {block : Block} {msg : Msg}

theorem checkProofs_ok {indices : List Nat} {n : Nat} {peaks : List Hash} {proofs : List ChunkProof}
    {j : Nat} (hproofs : ∀ i proof, proofs[i]? = some proof → ∃ index, indices[j + i]? = some index ∧
      MMR.verify keccak256 proof.chunk index proof.path n peaks = .ok true) :
    checkProofs keccak256 indices n peaks proofs j = .ok () := by
  induction proofs generalizing j with
  | nil => rfl
  | cons proof rest ih =>
      obtain ⟨index, hindex, hverify⟩ := hproofs 0 proof rfl
      rw [Nat.add_zero] at hindex
      have hrest := @ih (j + 1) fun i later hlater => by
        obtain ⟨next, hnext, hverify⟩ := hproofs (i + 1) later hlater
        exact ⟨next, by rw [← hnext]; congr 1; omega, hverify⟩
      simp only [checkProofs, load_ok hindex, hverify, Checked.orPanic, bind, Except.bind,
        Bool.true_eq_false, revertIf_ok not_false, hrest]

theorem checkProofs_eq_ok {indices : List Nat} {n : Nat} {peaks : List Hash}
    {proofs : List ChunkProof} {j : Nat}
    (hok : checkProofs keccak256 indices n peaks proofs j = .ok ()) {i : Nat} {proof : ChunkProof}
    (hproof : proofs[i]? = some proof) : ∃ index, indices[j + i]? = some index ∧
      MMR.verify keccak256 proof.chunk index proof.path n peaks = .ok true := by
  induction proofs generalizing i j with
  | nil => cases hproof
  | cons first rest ih =>
      simp only [checkProofs, bind_eq_ok, orPanic_eq_ok, load_eq_ok, revertIf_eq_ok,
        Bool.not_eq_false] at hok
      obtain ⟨index, hindex, accepted, hverify, _, rfl, hrest⟩ := hok
      cases i with
      | zero =>
          obtain rfl := Option.some.inj hproof
          exact ⟨index, hindex, hverify⟩
      | succ i =>
          obtain ⟨next, hnext, hnextVerify⟩ := ih hrest hproof
          exact ⟨next, by rw [← hnext]; congr 1; omega, hnextVerify⟩

theorem checkReveals_eq_ok {seed : Hash} {id n : Nat} {peaks : List Hash}
    {reveals : List ChunkProof} {j : Nat}
    (hok : checkReveals keccak256 dep seed id n peaks reveals j = .ok ()) {i : Nat}
    {reveal : ChunkProof} (hreveal : reveals[i]? = some reveal) :
    ∃ index, custodyIndex keccak256 dep seed id (j + i) n = .ok index ∧
      MMR.verify keccak256 reveal.chunk index reveal.path n peaks = .ok true := by
  induction reveals generalizing i j with
  | nil => cases hreveal
  | cons first rest ih =>
      simp only [checkReveals, bind_eq_ok, orPanic_eq_ok, revertIf_eq_ok, Bool.not_eq_false] at hok
      obtain ⟨index, hindex, accepted, hverify, _, rfl, hrest⟩ := hok
      cases i with
      | zero =>
          obtain rfl := Option.some.inj hreveal
          exact ⟨index, hindex, hverify⟩
      | succ i =>
          obtain ⟨next, hnext, hnextVerify⟩ := ih hrest hreveal
          exact ⟨next, by rw [← hnext]; congr 1; omega, hnextVerify⟩

/-- The log shows a challenge being opened with these indices and its present pin. -/
structure Recorded (keccak256 : ByteString → Hash) (dep : Deployment) (log : List (Nat × Event))
    (id : Nat) (c : Challenge) (indices : List Nat) : Prop where
  event : (c.openedAt, Event.challengeOpened id c.providerId indices c.bond c.pinnedRoot
    c.pinnedLeafCount (c.openedAt + dep.params.responseWindow)) ∈ log
  indicesHash : c.indicesHash = keccak256 (packIndices indices)
  count : c.k = indices.length
  below : ∀ index ∈ indices, index < c.pinnedLeafCount
  deadlineFits : c.openedAt + dep.params.responseWindow < 2 ^ 64

/-- Only `challenge` opens a challenge. -/
theorem Change.opens {s : Storage} {call : Call} {out : Outcome}
    (hchange : Change keccak256 dep block msg s call out) :
    out.storage.nextChallengeId = s.nextChallengeId ∨
      out.storage.nextChallengeId = s.nextChallengeId + 1 ∧ s.nextChallengeId + 1 < 2 ^ 64 ∧
        ∃ indices, Recorded keccak256 dep (out.events.map fun event => (block.timestamp, event))
          s.nextChallengeId (out.storage.challengeRecords s.nextChallengeId) indices := by
  cases hchange with
  | declared _ _ hsame => exact Or.inl hsame.nextChallengeId
  | pointed _ haccepted => exact Or.inl haccepted.same.nextChallengeId
  | @challenged id indices root leafCount _ hpin _ hcount hindices hnext hdeadline =>
      refine Or.inr ⟨rfl, hnext, indices, ?_⟩
      have hrecord : ∀ c : Challenge, (s.addChallenge c).challengeRecords s.nextChallengeId = c :=
        fun c => Function.update_self _ _ _
      have htime : block.timestamp % 2 ^ 64 = block.timestamp := Nat.mod_eq_of_lt block.timestamp_lt
      have hlength : indices.length % 2 ^ 16 = indices.length :=
        Nat.mod_eq_of_lt (hcount.trans_lt dep.inRange.maxSample)
      simp only [Outcome.plain, hrecord]
      refine ⟨?_, rfl, hlength, hindices, hdeadline⟩
      simp only [htime]
      exact List.mem_cons_self
  | _ => exact Or.inl rfl

/-- Apart from being resolved, a challenge stays as it was opened. -/
theorem BondStep.kept_record {id : Nat} {operator : Address} {c next : Challenge}
    {payments : List Payment} (hstep : BondStep id operator c next payments) (hexists : c ≠ .empty) :
    ∃ resolved, next = { c with resolved := resolved } := by
  cases hstep with
  | kept hsame => exact ⟨c.resolved, hsame⟩
  | opened hempty => exact absurd hempty hexists
  | answered _ _ hafter => exact ⟨true, hafter⟩
  | timedOut _ _ hafter => exact ⟨true, hafter⟩

theorem Recorded.append {log extra : List (Nat × Event)} {id : Nat} {c : Challenge}
    {indices : List Nat} (hrecorded : Recorded keccak256 dep log id c indices) :
    Recorded keccak256 dep (log ++ extra) id c indices :=
  ⟨List.mem_append_left _ hrecorded.event, hrecorded.indicesHash, hrecorded.count, hrecorded.below,
    hrecorded.deadlineFits⟩

structure AllRecorded (keccak256 : ByteString → Hash) (dep : Deployment) (s : Storage)
    (log : List (Nat × Event)) : Prop where
  wellFormed : s.WellFormed
  idsFit : s.nextChallengeId < 2 ^ 64
  recorded : ∀ id < s.nextChallengeId,
    ∃ indices, Recorded keccak256 dep log id (s.challengeRecords id) indices

theorem Storage.WellFormed.record_ne_empty {s : Storage} (hwf : s.WellFormed) {id : Nat}
    (hlt : id < s.nextChallengeId) : s.challengeRecords id ≠ .empty :=
  Challenge.ne_empty (hwf.opened id hlt).1

theorem AllRecorded.change {s : Storage} {log : List (Nat × Event)} {call : Call} {out : Outcome}
    (hall : AllRecorded keccak256 dep s log) (houtside : Outside dep msg.sender)
    (hchange : Change keccak256 dep block msg s call out) :
    AllRecorded keccak256 dep out.storage
      (log ++ out.events.map fun event => (block.timestamp, event)) := by
  have hold : ∀ id < s.nextChallengeId, ∃ indices, Recorded keccak256 dep
      (log ++ out.events.map fun event => (block.timestamp, event)) id
      (out.storage.challengeRecords id) indices := by
    intro id hlt
    obtain ⟨indices, hrecorded⟩ := hall.recorded id hlt
    obtain ⟨resolved, hnext⟩ :=
      (hchange.bondStep hall.wellFormed id).kept_record (hall.wellFormed.record_ne_empty hlt)
    rw [hnext]
    exact ⟨indices, hrecorded.append.event, hrecorded.indicesHash, hrecorded.count,
      hrecorded.below, hrecorded.deadlineFits⟩
  have hwf := hchange.wellFormed houtside hall.wellFormed
  rcases hchange.opens with hsame | ⟨hnext, hfits, indices, hrecorded⟩
  · exact ⟨hwf, by rw [hsame]; exact hall.idsFit, by rw [hsame]; exact hold⟩
  · refine ⟨hwf, by rw [hnext]; exact hfits, ?_⟩
    intro id hlt
    rw [hnext] at hlt
    rcases Nat.lt_succ_iff_lt_or_eq.mp hlt with hbelow | rfl
    · exact hold id hbelow
    · exact ⟨indices, List.mem_append_right _ hrecorded.event, hrecorded.indicesHash,
        hrecorded.count, hrecorded.below, hrecorded.deadlineFits⟩

theorem recorded_invariant :
    StoreInvariant keccak256 dep fun _ s log _ => AllRecorded keccak256 dep s log where
  change hall houtside _ hchange := hall.change houtside hchange
  quiet _ _ hall _ := by
    refine ⟨hall.wellFormed.of_same rfl rfl rfl rfl, hall.idsFit, ?_⟩
    intro id hlt
    obtain ⟨indices, hrecorded⟩ := hall.recorded id hlt
    exact ⟨indices, hrecorded.append⟩
  advance hall _ := hall

theorem Reachable.recorded {world : World} (hreach : Reachable keccak256 dep world) :
    AllRecorded keccak256 dep world.state.store world.state.log := by
  refine (hreach.holds recorded_invariant.preserves ?_).state
  intro block
  refine ⟨(deployed_distributed block).wellFormed, show 0 < 2 ^ 64 by decide, ?_⟩
  intro id hlt
  exact absurd hlt (Nat.not_lt_zero _)

/-- A provider that has begun to leave, or was slashed. -/
def Provider.Left (p : Provider) : Prop := p.status ≠ .none ∧ p.status ≠ .active

theorem exitPin_update {providers : Nat → Provider} {id : Nat} {p : Provider} (other : Nat)
    (hkept : other = id → (p.exitRoot, p.exitLeafCount) =
      ((providers id).exitRoot, (providers id).exitLeafCount)) :
    ((Function.update providers id p other).exitRoot,
        (Function.update providers id p other).exitLeafCount) =
      ((providers other).exitRoot, (providers other).exitLeafCount) := by
  rw [Function.update_apply]
  split
  · rename_i heq
    rw [hkept heq, heq]
  · rfl

/-- A provider that has left keeps its exit pin. -/
theorem Change.exitPin {s : Storage} {call : Call} {out : Outcome}
    (hchange : Change keccak256 dep block msg s call out) (hwf : s.WellFormed) {id : Nat}
    (hleft : (s.providers id).Left) :
    ((out.storage.providers id).exitRoot, (out.storage.providers id).exitLeafCount) =
        ((s.providers id).exitRoot, (s.providers id).exitLeafCount) ∧
      (out.storage.providers id).Left := by
  constructor
  · cases hchange with
    | declared _ _ hsame => rw [hsame.providers]
    | pointed _ haccepted => rw [haccepted.same.providers]
    | noted => rfl
    | claimed => rfl
    | staked => exact exitPin_update id fun _ => rfl
    | unbonded _ _ hstatus =>
        refine exitPin_update id ?_
        rintro rfl
        exact absurd hstatus hleft.2
    | withdrawn => exact exitPin_update id fun _ => rfl
    | committed => exact exitPin_update id fun _ => rfl
    | proven => exact exitPin_update id fun _ => rfl
    | lapsed => exact exitPin_update id fun _ => rfl
    | challenged => exact exitPin_update id fun _ => rfl
    | answered => exact exitPin_update id fun _ => rfl
    | timedOut => exact exitPin_update id fun _ => rfl
    | refunded => exact exitPin_update id fun _ => rfl
  · rcases (hchange.stakeStep hwf id).moves with hsame | hmove
    · unfold Provider.Left
      rw [hsame]
      exact hleft
    · unfold Provider.Left at hleft ⊢
      generalize (s.providers id).status = before at hleft hmove
      generalize (out.storage.providers id).status = after at hmove
      cases hmove with
      | stake => exact absurd rfl hleft.1
      | unbond => exact absurd rfl hleft.2
      | slashActive => exact absurd rfl hleft.2
      | exit => decide
      | slashUnbonding => decide

/-- What no later call changes about the pins of a base state. -/
structure PinsKept (base : Storage) (s : Storage) : Prop where
  wellFormed : s.WellFormed
  opened : base.nextChallengeId ≤ s.nextChallengeId
  challenges : ∀ id < base.nextChallengeId,
    ∃ resolved, s.challengeRecords id = { base.challengeRecords id with resolved := resolved }
  exits : ∀ id, (base.providers id).Left →
    ((s.providers id).exitRoot, (s.providers id).exitLeafCount) =
        ((base.providers id).exitRoot, (base.providers id).exitLeafCount) ∧
      (s.providers id).Left

theorem pinsKept_self {s : Storage} (hwf : s.WellFormed) : PinsKept s s :=
  ⟨hwf, le_rfl, fun id _ => ⟨(s.challengeRecords id).resolved, rfl⟩, fun _ hleft => ⟨rfl, hleft⟩⟩

theorem pinsKept_invariant (base : Storage) :
    StoreInvariant keccak256 dep fun _ s _ _ => PinsKept base s where
  change {_ s _ _ _ _ out} hkept houtside _ hchange := by
    have hwf := hkept.wellFormed
    have hgrows : s.nextChallengeId ≤ out.storage.nextChallengeId := by
      rcases hchange.opens with hsame | ⟨hnext, _⟩
      · exact hsame.ge
      · omega
    refine ⟨hchange.wellFormed houtside hwf, hkept.opened.trans hgrows, ?_, ?_⟩
    · intro id hlt
      obtain ⟨before, hbefore⟩ := hkept.challenges id hlt
      obtain ⟨resolved, hnext⟩ := (hchange.bondStep hwf id).kept_record
        (hwf.record_ne_empty (hlt.trans_le hkept.opened))
      exact ⟨resolved, by rw [hnext, hbefore]⟩
    · intro id hleft
      obtain ⟨hpin, hstill⟩ := hkept.exits id hleft
      obtain ⟨hnext, hlater⟩ := hchange.exitPin hwf hstill
      exact ⟨hnext.trans hpin, hlater⟩
  quiet _ _ hkept _ :=
    ⟨hkept.wellFormed.of_same rfl rfl rfl rfl, hkept.opened, hkept.challenges, hkept.exits⟩
  advance hkept _ := hkept

theorem pins_kept {world later : World} (hreach : Reachable keccak256 dep world)
    (hidle : world.stack = []) (hsteps : (system keccak256 dep).Steps world later) :
    PinsKept world.state.store later.state.store := by
  have hwf := hreach.distributed.wellFormed
  obtain ⟨env, chain, stack⟩ := world
  cases hidle
  exact (hsteps.holds (pinsKept_invariant chain.store).preserves
    (Machine.holds_of_idle (pinsKept_self hwf))).state

/-! ## The honest answer -/

theorem respond_ok {s : Storage} {challengeId : Nat} {indices : List Nat} {n : Nat}
    {peaks : List Hash} {answers : List ChunkProof}
    (hopened : (s.challengeRecords challengeId).challenger ≠ zeroAddress)
    (hsender : msg.sender = (s.providers (s.challengeRecords challengeId).providerId).operator)
    (hfits : (s.challengeRecords challengeId).openedAt + dep.params.responseWindow < 2 ^ 64)
    (htime : block.timestamp < (s.challengeRecords challengeId).openedAt + dep.params.responseWindow)
    (hunresolved : (s.challengeRecords challengeId).resolved = false)
    (hstatus : (s.providers (s.challengeRecords challengeId).providerId).status ≠ .slashed)
    (hcount : answers.length = (s.challengeRecords challengeId).k)
    (hindices : keccak256 (packIndices indices) = (s.challengeRecords challengeId).indicesHash)
    (hleaves : n = (s.challengeRecords challengeId).pinnedLeafCount)
    (hroot : MMR.bagRoot keccak256 n peaks = (s.challengeRecords challengeId).pinnedRoot)
    (hproofs : checkProofs keccak256 indices n peaks answers 0 = .ok ())
    (hopen : 1 ≤ (s.providers (s.challengeRecords challengeId).providerId).openChallenges) :
    respond keccak256 dep block msg s challengeId indices n peaks answers =
      .ok ⟨s.resolve challengeId
          (s.providers (s.challengeRecords challengeId).providerId).status,
        [.challengeAnswered challengeId], none,
        [.bondToOperator challengeId
          (s.providers (s.challengeRecords challengeId).providerId).operator
          (s.challengeRecords challengeId).bond],
        .payout (s.providers (s.challengeRecords challengeId).providerId).operator
          (s.challengeRecords challengeId).bond⟩ := by
  have hpin : ¬(n ≠ (s.challengeRecords challengeId).pinnedLeafCount ∨
      MMR.bagRoot keccak256 n peaks ≠ (s.challengeRecords challengeId).pinnedRoot) := by
    rintro (hne | hne)
    · exact hne hleaves
    · exact hne hroot
  unfold respond
  rw [challengeRecord_eq_ok.mpr ⟨hopened, rfl⟩]
  simp only [bind, Except.bind, revertIf_ok (not_not_intro hsender), checkedAdd_ok hfits,
    Checked.orPanic, revertIf_ok (not_le.mpr htime), hunresolved, revertIf_ok Bool.false_ne_true,
    revertIf_ok hstatus, revertIf_ok (not_not_intro hcount), revertIf_ok (not_not_intro hindices),
    revertIf_ok hpin, hproofs, checkedSub_ok hopen]
  rfl

section

variable {stream : Nat → Chunk}

/-- The operator's answer from the first `n` chunks. -/
def honestAnswer (keccak256 : ByteString → Hash) (stream : Nat → Chunk) (challengeId n : Nat)
    (indices : List Nat) : Call :=
  .respond challengeId indices n (rebuiltPeaks keccak256 (chunksFrom stream 0 n))
    (indices.map (rebuiltProof keccak256 (chunksFrom stream 0 n)))

theorem honestAnswer_checks {n : Nat} (hn : n < 2 ^ 64) {indices : List Nat}
    (hbelow : ∀ index ∈ indices, index < n) :
    checkProofs keccak256 indices n (rebuiltPeaks keccak256 (chunksFrom stream 0 n))
      (indices.map (rebuiltProof keccak256 (chunksFrom stream 0 n))) 0 = .ok () := by
  apply checkProofs_ok
  intro i proof hproof
  rw [List.getElem?_map] at hproof
  obtain ⟨index, hindex, rfl⟩ := Option.map_eq_some_iff.mp hproof
  rw [rebuiltPeaks_eq keccak256 stream hn]
  exact ⟨index, by rw [Nat.zero_add]; exact hindex,
    verify_rebuiltProof keccak256 stream (hbelow index (List.mem_of_getElem? hindex)) hn⟩

/-- The bond of an unresolved challenge is in the balance. -/
theorem Solvent.bond_le {chain : Chain} (hsolvent : Solvent dep chain) {challengeId : Nat}
    (hbelow : challengeId < chain.store.nextChallengeId)
    (hunresolved : (chain.store.challengeRecords challengeId).resolved = false) :
    (chain.store.challengeRecords challengeId).bond ≤ chain.balance := by
  have hbonds := le_recordSum Challenge.openBond chain.store.nextChallengeId
    chain.store.challengeRecords hbelow
  have hbond : (chain.store.challengeRecords challengeId).openBond =
      (chain.store.challengeRecords challengeId).bond := by
    rw [Challenge.openBond, hunresolved]
    rfl
  rw [hbond, ← Storage.openBonds_eq] at hbonds
  calc (chain.store.challengeRecords challengeId).bond
      ≤ chain.store.openBonds := hbonds
    _ ≤ chain.forced + chain.store.owed dep := by
        unfold Storage.owed
        omega
    _ = chain.balance := hsolvent.covered.symm

theorem respond_dispatched {s : Storage} {challengeId : Nat} {indices : List Nat} {n : Nat}
    {peaks : List Hash} {answers : List ChunkProof} (hid : challengeId < 2 ^ 64) (hn : n < 2 ^ 64)
    (hindices : ∀ index ∈ indices, index < n) (hvalue : msg.value = 0) :
    dispatch keccak256 dep block msg s (.respond challengeId indices n peaks answers) =
      respond keccak256 dep block msg s challengeId indices n peaks answers := by
  have hall : (indices.all fun index => decide (index < 2 ^ 64)) = true := by
    rw [List.all_eq_true]
    intro index hmem
    exact decide_eq_true ((hindices index hmem).trans hn)
  have hrange : (Call.respond challengeId indices n peaks answers).inRange = true := by
    rw [Call.inRange, hall, decide_eq_true hid, decide_eq_true hn]
    rfl
  have hguard : ¬((Call.respond challengeId indices n peaks answers).inRange = false ∨
      (Call.respond challengeId indices n peaks answers).payable = false ∧ msg.value ≠ 0) := by
    rintro (hfalse | ⟨_, hpaid⟩)
    · rw [hrange] at hfalse
      cases hfalse
    · exact hpaid hvalue
  unfold dispatch
  rw [revertIf_ok hguard]
  rfl

/-- Before the deadline the operator of a provider that is not slashed can answer every
unresolved challenge from the pinned chunks. -/
theorem answerable {world : World} (hreach : Reachable keccak256 dep world)
    (hhonest : HonestDeclarations keccak256 stream world.state.log) {challengeId : Nat}
    (hbelow : challengeId < world.state.store.nextChallengeId)
    (hunresolved : (world.state.store.challengeRecords challengeId).resolved = false)
    (hstatus : (world.state.store.providers
      (world.state.store.challengeRecords challengeId).providerId).status ≠ .slashed)
    (htime : world.env.timestamp <
      (world.state.store.challengeRecords challengeId).openedAt + dep.params.responseWindow) :
    ∃ indices n, Recorded keccak256 dep world.state.log challengeId
        (world.state.store.challengeRecords challengeId) indices ∧
      (History.replay world.state.log).pinCount challengeId = some n ∧
      ∀ msg, msg.sender = (world.state.store.providers
          (world.state.store.challengeRecords challengeId).providerId).operator → msg.value = 0 →
        (∃ out, dispatch keccak256 dep world.env msg world.state.store
            (honestAnswer keccak256 stream challengeId n indices) = .ok out ∧
          out.absorbed.getD 0 + out.tail.amount ≤ world.state.balance) ∧
        (Outside dep msg.sender → ∃ result, world.state.callInstance dep world.env keccak256 msg
          (honestAnswer keccak256 stream challengeId n indices) = some result) := by
  have hall := hreach.recorded
  have hwf := hall.wellFormed
  have hsolvent := hreach.solvent
  have hpins := hreach.pinsMatch hhonest
  obtain ⟨indices, hrecorded⟩ := hall.recorded challengeId hbelow
  obtain ⟨n, hn, hpin, hle⟩ := hpins.challenges challengeId hbelow
  obtain ⟨hroot, hleaves⟩ := Prod.mk.inj hpin
  have hfits : n < 2 ^ 64 := hle.trans_lt hpins.fits
  have hopened := (hwf.opened challengeId hbelow).1
  refine ⟨indices, n, hrecorded, hn, ?_⟩
  intro msg hsender hvalue
  have hindices : ∀ index ∈ indices, index < n := by
    rw [← hleaves]
    exact hrecorded.below
  have hpeaks := rebuiltPeaks_eq keccak256 stream hfits
  have hchecks := @honestAnswer_checks keccak256 stream n hfits indices hindices
  have hrespond : respond keccak256 dep world.env msg world.state.store challengeId indices n _ _ =
      .ok _ := respond_ok hopened hsender hrecorded.deadlineFits htime hunresolved hstatus
    (by rw [List.length_map, hrecorded.count]) hrecorded.indicesHash.symm hleaves.symm
    (by rw [hpeaks, hroot]) hchecks (hwf.openChallenges_pos hopened hunresolved)
  have hdispatch := (respond_dispatched (hbelow.trans hall.idsFit) hfits hindices hvalue).trans
    hrespond
  have hbond := hsolvent.bond_le hbelow hunresolved
  have hfunded : 0 + (world.state.store.challengeRecords challengeId).bond ≤
      world.state.balance := by
    rw [Nat.zero_add]
    exact hbond
  refine ⟨⟨_, hdispatch, hfunded⟩, ?_⟩
  intro houtside
  have haccepted : Accepted keccak256 dep world.env world.state msg _ _ :=
    ⟨houtside, by rw [hvalue]; exact hreach.running.ether, hdispatch⟩
  exact haccepted.runs (hfunded.trans (Nat.le_add_right _ _))

theorem wordNat_index {index : Nat} (hindex : index < 2 ^ 64) :
    wordNat (beWord 32 index) = index := by
  have hfits : index < 256 ^ 32 := by
    calc index < 256 ^ 8 := hindex
      _ ≤ 256 ^ 32 := Nat.pow_le_pow_right (by decide) (by decide)
  exact wordNat_beWord hfits

theorem map_wordNat {indices : List Nat} (hindices : ∀ index ∈ indices, index < 2 ^ 64) :
    (indices.map (beWord 32)).map wordNat = indices := by
  induction indices with
  | nil => rfl
  | cons index rest ih =>
      have hrest := ih fun later hmem => hindices later (List.mem_cons_of_mem _ hmem)
      rw [List.map_cons, List.map_cons, hrest, wordNat_index (hindices index List.mem_cons_self)]

theorem packIndices_inj {first second : List Nat} (hfirst : ∀ index ∈ first, index < 2 ^ 64)
    (hsecond : ∀ index ∈ second, index < 2 ^ 64) (heq : packIndices first = packIndices second) :
    first = second := by
  have hwords := packWords_inj_of_pos (by decide) heq
  rw [← map_wordNat hfirst, ← map_wordNat hsecond, hwords]

variable (keccak256 dep stream)

/-- The strings hashed for a pin on the first `n` chunks. -/
def pinPreimages (n : Nat) : Set ByteString :=
  insert (rootPreimage n (firstPeaks keccak256 stream n)) (treePreimages keccak256 stream n)

/-- The strings hashed while an answer is checked. -/
def answerPreimages (indices : List Nat) (n : Nat) (peaks : List Hash)
    (answers : List ChunkProof) : Set ByteString :=
  {x | x = rootPreimage n peaks ∨ x = packIndices indices ∨
    ∃ answer index, (answer, index) ∈ answers.zip indices ∧
      x ∈ proofPreimages keccak256 answer index n}

/-- The strings hashed while an escape proof is checked, its positions aside. -/
def escapePreimages (seed : Hash) (id n : Nat) (peaks : List Hash)
    (reveals : List ChunkProof) : Set ByteString :=
  {x | x = rootPreimage n peaks ∨
    ∃ j reveal index, reveals[j]? = some reveal ∧
      custodyIndex keccak256 dep seed id j n = .ok index ∧
      x ∈ proofPreimages keccak256 reveal index n}

variable {keccak256 dep stream}

/-- What an accepted `respond` has passed. -/
theorem Change.answer {s : Storage} {challengeId : Nat} {indices : List Nat} {n : Nat}
    {peaks : List Hash} {answers : List ChunkProof} {out : Outcome}
    (hchange : Change keccak256 dep block msg s (.respond challengeId indices n peaks answers) out) :
    (s.challengeRecords challengeId).challenger ≠ zeroAddress ∧
      answers.length = (s.challengeRecords challengeId).k ∧
      keccak256 (packIndices indices) = (s.challengeRecords challengeId).indicesHash ∧
      n = (s.challengeRecords challengeId).pinnedLeafCount ∧
      MMR.bagRoot keccak256 n peaks = (s.challengeRecords challengeId).pinnedRoot ∧
      checkProofs keccak256 indices n peaks answers 0 = .ok () := by
  cases hchange with
  | pointed _ _ hcall =>
      rcases hcall with ⟨_, _, _, _, hcall⟩ | ⟨_, _, _, _, hcall⟩
      · cases hcall
      · cases hcall
  | noted _ hevent =>
      rcases hevent with ⟨_, hcall, _⟩ | ⟨hcall, _⟩
      · cases hcall
      · cases hcall
  | proven _ hcall =>
      rcases hcall with ⟨_, hcall⟩ | ⟨_, _, _, hcall⟩
      · cases hcall
      · cases hcall
  | answered _ hopened _ _ _ _ hcount hindices hleaves hroot hproofs =>
      exact ⟨hopened, hcount, hindices, hleaves, hroot, hproofs⟩

theorem pin_sound {n : Nat} {peaks : List Hash} {seen : Set ByteString} (hn : n < 2 ^ 64)
    (hroot : (MMR.bagRoot keccak256 n peaks, n) = pinAt keccak256 stream n)
    (hseen : rootPreimage n peaks ∈ seen)
    (hfree : NoCollision keccak256 (pinPreimages keccak256 stream n) seen) :
    peaks = firstPeaks keccak256 stream n :=
  bagRoot_sound keccak256 stream hn (Prod.mk.inj hroot).1
    (hfree.mono (Set.singleton_subset_iff.mpr (Set.mem_insert _ _))
      (Set.singleton_subset_iff.mpr hseen))

/-- An accepted answer names the indices of the challenge and reveals the stream's
chunks there. -/
theorem answer_sound {history : History} {s : Storage} {log : List (Nat × Event)}
    {challengeId : Nat} {indices : List Nat} {n : Nat} {peaks : List Hash}
    {answers : List ChunkProof} {out : Outcome} (hpins : PinsMatch keccak256 stream history s)
    (hall : AllRecorded keccak256 dep s log)
    (hrange : (Call.respond challengeId indices n peaks answers).inRange = true)
    (hchange : Change keccak256 dep block msg s (.respond challengeId indices n peaks answers) out) :
    ∃ opened, Recorded keccak256 dep log challengeId (s.challengeRecords challengeId) opened ∧
      history.pinCount challengeId = some n ∧
      (NoCollision keccak256 (insert (packIndices opened) (pinPreimages keccak256 stream n))
          (answerPreimages keccak256 indices n peaks answers) →
        indices = opened ∧ answers.map ChunkProof.chunk = opened.map stream) := by
  obtain ⟨hopened, hcount, hhash, hleaves, hroot, hproofs⟩ := hchange.answer
  have hbelow : challengeId < s.nextChallengeId := by
    by_contra hge
    exact hopened (by rw [hall.wellFormed.unopened challengeId (not_lt.mp hge)]; rfl)
  obtain ⟨opened, hrecorded⟩ := hall.recorded challengeId hbelow
  obtain ⟨n', hn', hpin, hle⟩ := hpins.challenges challengeId hbelow
  obtain rfl : n = n' := hleaves.trans (Prod.mk.inj hpin).2
  have hfits : n < 2 ^ 64 := hle.trans_lt hpins.fits
  refine ⟨opened, hrecorded, hn', ?_⟩
  intro hfree
  have hopenedFits : ∀ index ∈ opened, index < 2 ^ 64 := by
    intro index hmem
    have hindex := hrecorded.below index hmem
    rw [← hleaves] at hindex
    exact hindex.trans hfits
  have hgiven : ∀ index ∈ indices, index < 2 ^ 64 := by
    simp only [Call.inRange, Bool.and_eq_true, List.all_eq_true, decide_eq_true_eq] at hrange
    exact hrange.1.2
  have hindices : indices = opened := by
    have hpacked := hfree _ (Set.mem_insert _ _) _ (Or.inr (Or.inl rfl))
      (hrecorded.indicesHash.symm.trans hhash.symm)
    exact packIndices_inj hgiven hopenedFits hpacked.symm
  refine ⟨hindices, ?_⟩
  have hpeaks : peaks = firstPeaks keccak256 stream n := by
    refine pin_sound hfits ?_ (Or.inl rfl) (hfree.mono (Set.subset_insert _ _) subset_rfl)
    rw [hroot, hleaves]
    rw [hleaves] at hpin
    exact hpin
  have hlength : answers.length = opened.length := hcount.trans hrecorded.count
  apply List.ext_getElem?
  intro i
  rw [List.getElem?_map, List.getElem?_map]
  cases hanswer : answers[i]? with
  | none =>
      rw [List.getElem?_eq_none_iff, hlength] at hanswer
      rw [List.getElem?_eq_none hanswer]
      rfl
  | some answer =>
      obtain ⟨index, hindex, hverify⟩ := checkProofs_eq_ok hproofs hanswer
      rw [Nat.zero_add] at hindex
      have hpair : (answer, index) ∈ answers.zip indices :=
        List.mem_of_getElem? (List.getElem?_zip_eq_some.mpr ⟨hanswer, hindex⟩)
      rw [hpeaks] at hverify
      obtain ⟨_, hchunk⟩ := verify_sound keccak256 stream hfits hverify
        (hfree.mono ((Set.subset_insert _ _).trans (Set.subset_insert _ _))
          fun x hx => Or.inr (Or.inr ⟨answer, index, hpair, hx⟩))
      rw [← hindices, hindex, Option.map_some, Option.map_some, hchunk]

/-- An accepted escape proof reveals the stream's chunks at the derived positions. -/
theorem escape_sound {history : History} {s : Storage} {id n : Nat} {peaks : List Hash}
    {reveals : List ChunkProof} {out : Outcome} (hpins : PinsMatch keccak256 stream history s)
    (hok : submitProofEscape keccak256 dep block msg s id n peaks reveals = .ok out) :
    history.commitCount id = some n ∧
      reveals.length = (if n = 0 then 0 else dep.params.maxSample) ∧
      (NoCollision keccak256 (pinPreimages keccak256 stream n)
          (escapePreimages keccak256 dep (s.providers id).commitSeed id n peaks reveals) →
        ∀ j reveal, reveals[j]? = some reveal → ∃ index < n,
          custodyIndex keccak256 dep (s.providers id).commitSeed id j n = .ok index ∧
            reveal.chunk = stream index) := by
  obtain ⟨period, hguards, hleaves, hroot, hcount, hreveals, _⟩ := submitProofEscape_accepted hok
  obtain ⟨_, _, hcommit, _⟩ := submitGuards_eq_ok hguards
  have hcommitted : (s.providers id).commitPeriodPlusOne ≠ 0 := by
    rw [hcommit]
    exact Nat.succ_ne_zero _
  obtain ⟨n', hn', hpin, hle⟩ := (hpins.providers id).commitPin hcommitted
  obtain rfl : n = n' := hleaves.trans (Prod.mk.inj hpin).2
  have hfits : n < 2 ^ 64 := hle.trans_lt hpins.fits
  refine ⟨hn', hcount, ?_⟩
  intro hfree j reveal hreveal
  have hpeaks : peaks = firstPeaks keccak256 stream n := by
    refine pin_sound hfits ?_ (Or.inl rfl) hfree
    rw [hroot, hleaves]
    rw [hleaves] at hpin
    exact hpin
  obtain ⟨index, hindex, hverify⟩ := checkReveals_eq_ok hreveals hreveal
  rw [Nat.zero_add] at hindex
  rw [hpeaks] at hverify
  obtain ⟨hbelow, hchunk⟩ := verify_sound keccak256 stream hfits hverify
    (hfree.mono (Set.subset_insert _ _) fun x hx => Or.inr ⟨j, reveal, index, hreveal, hindex, hx⟩)
  exact ⟨index, hbelow, hindex, hchunk⟩

/-! ## Challenges of a leaving provider -/

/-- An exit count was taken when the provider left. -/
theorem History.exitCount_event {log : List (Nat × Event)} {id n : Nat}
    (hexit : (History.replay log).exitCount id = some n) :
    ∃ before time root count after,
      log = before ++ (time, Event.unbondingInitiated id root count) :: after ∧
        n = (History.replay before).leafCount := by
  induction log using List.reverseRecOn with
  | nil => cases hexit
  | append_singleton log entry ih =>
      obtain ⟨time, event⟩ := entry
      rw [show log ++ [(time, event)] = log ++ [event].map fun event => (time, event) from rfl,
        History.replay_append_events] at hexit
      change ((History.replay log).record event).exitCount id = some n at hexit
      have hearlier : (History.replay log).exitCount id = some n →
          ∃ before time' root count after, log ++ [(time, event)] =
              before ++ (time', Event.unbondingInitiated id root count) :: after ∧
            n = (History.replay before).leafCount := by
        intro hbefore
        obtain ⟨before, time', root, count, after, rfl, hn⟩ := ih hbefore
        refine ⟨before, time', root, count, after ++ [(time, event)], ?_, hn⟩
        rw [List.append_assoc, List.cons_append]
      cases event with
      | unbondingInitiated other root count =>
          simp only [History.record, Function.update_apply] at hexit
          split at hexit
          · rename_i heq
            rw [heq]
            exact ⟨log, time, root, count, [], rfl, (Option.some.inj hexit).symm⟩
          · exact hearlier hexit
      | _ => exact hearlier hexit

/-- A challenge of a provider that is leaving pins the dataset as it left it. -/
theorem challenge_unbonding {history : History} {s : Storage} {id : Nat} {indices : List Nat}
    {out : Outcome} (hpins : PinsMatch keccak256 stream history s)
    (hstatus : (s.providers id).status = .unbonding)
    (hchange : Change keccak256 dep block msg s (.challenge id indices) out) :
    ∃ n, history.exitCount id = some n ∧
      ((out.storage.challengeRecords s.nextChallengeId).pinnedRoot,
        (out.storage.challengeRecords s.nextChallengeId).pinnedLeafCount) =
          pinAt keccak256 stream n := by
  obtain ⟨n, hn⟩ := (hpins.providers id).leaving (Or.inl hstatus)
  have hexit := ((hpins.providers id).exitPin n hn).1
  refine ⟨n, hn, ?_⟩
  cases hchange with
  | pointed _ _ hcall =>
      rcases hcall with ⟨_, _, _, _, hcall⟩ | ⟨_, _, _, _, hcall⟩
      · cases hcall
      · cases hcall
  | noted _ hevent =>
      rcases hevent with ⟨_, hcall, _⟩ | ⟨hcall, _⟩
      · cases hcall
      · cases hcall
  | proven _ hcall =>
      rcases hcall with ⟨_, hcall⟩ | ⟨_, _, _, hcall⟩
      · cases hcall
      · cases hcall
  | @challenged _ _ root leafCount _ hpin =>
      rcases challengePin_eq_ok hpin with ⟨hactive, _⟩ | ⟨_, _, hroot, hleaves⟩
      · rw [hstatus] at hactive
        cases hactive
      · have hrecord : ∀ c : Challenge,
            (s.addChallenge c).challengeRecords s.nextChallengeId = c :=
          fun c => Function.update_self _ _ _
        simp only [Outcome.plain, hrecord]
        rw [hroot, hleaves]
        exact hexit

/-- Where the declarations commit a stream of chunks, every pin is the bagged root over
the stream's first chunks at the count where it was taken, and stays; the operator can
answer every open challenge, and only with the stream's chunks. -/
theorem pins_historical {world : World} (hreach : Reachable keccak256 dep world)
    (hhonest : HonestDeclarations keccak256 stream world.state.log) :
    (∀ challengeId < world.state.store.nextChallengeId,
      ChallengePin keccak256 stream world.state.store.leafCount
        ((History.replay world.state.log).pinCount challengeId)
        (world.state.store.challengeRecords challengeId)) ∧
    (∀ id, ProviderPins keccak256 stream world.state.store.leafCount
      ((History.replay world.state.log).exitCount id)
      ((History.replay world.state.log).commitCount id) (world.state.store.providers id)) ∧
    (∀ next, (system keccak256 dep).Step world next →
      world.Undoes next ∨ PinsKept world.state.store next.state.store) ∧
    (world.stack = [] → ∀ later, (system keccak256 dep).Steps world later →
      PinsKept world.state.store later.state.store) ∧
    (∀ msg id indices out,
      Accepted keccak256 dep world.env world.state msg (.challenge id indices) out →
      (world.state.store.providers id).status = .unbonding →
      ∃ before time root count after, world.state.log =
          before ++ (time, Event.unbondingInitiated id root count) :: after ∧
        ((out.storage.challengeRecords world.state.store.nextChallengeId).pinnedRoot,
          (out.storage.challengeRecords world.state.store.nextChallengeId).pinnedLeafCount) =
            pinAt keccak256 stream (History.replay before).leafCount) ∧
    (∀ challengeId < world.state.store.nextChallengeId,
      (world.state.store.challengeRecords challengeId).resolved = false →
      (world.state.store.providers
        (world.state.store.challengeRecords challengeId).providerId).status ≠ .slashed →
      world.env.timestamp <
        (world.state.store.challengeRecords challengeId).openedAt + dep.params.responseWindow →
      ∃ indices n, Recorded keccak256 dep world.state.log challengeId
          (world.state.store.challengeRecords challengeId) indices ∧
        (History.replay world.state.log).pinCount challengeId = some n ∧
        ∀ msg, msg.sender = (world.state.store.providers
            (world.state.store.challengeRecords challengeId).providerId).operator → msg.value = 0 →
          (∃ out, dispatch keccak256 dep world.env msg world.state.store
              (honestAnswer keccak256 stream challengeId n indices) = .ok out ∧
            out.absorbed.getD 0 + out.tail.amount ≤ world.state.balance) ∧
          (Outside dep msg.sender → ∃ result, world.state.callInstance dep world.env keccak256 msg
            (honestAnswer keccak256 stream challengeId n indices) = some result)) ∧
    (∀ msg challengeId indices n peaks answers out,
      Accepted keccak256 dep world.env world.state msg
        (.respond challengeId indices n peaks answers) out →
      ∃ opened, Recorded keccak256 dep world.state.log challengeId
          (world.state.store.challengeRecords challengeId) opened ∧
        (History.replay world.state.log).pinCount challengeId = some n ∧
        (NoCollision keccak256 (insert (packIndices opened) (pinPreimages keccak256 stream n))
            (answerPreimages keccak256 indices n peaks answers) →
          indices = opened ∧ answers.map ChunkProof.chunk = opened.map stream)) ∧
    ∀ msg id n peaks reveals out,
      Accepted keccak256 dep world.env world.state msg
        (.submitProofEscape id n peaks reveals) out →
      (History.replay world.state.log).commitCount id = some n ∧
        reveals.length = (if n = 0 then 0 else dep.params.maxSample) ∧
        (NoCollision keccak256 (pinPreimages keccak256 stream n)
            (escapePreimages keccak256 dep (world.state.store.providers id).commitSeed id n peaks
              reveals) →
          ∀ j reveal, reveals[j]? = some reveal → ∃ index < n,
            custodyIndex keccak256 dep (world.state.store.providers id).commitSeed id j n =
                .ok index ∧
              reveal.chunk = stream index) := by
  have hpins := hreach.pinsMatch hhonest
  have hall := hreach.recorded
  refine ⟨hpins.challenges, hpins.providers, ?_, ?_, ?_, ?_, ?_, ?_⟩
  · intro next hstep
    exact hstep.undoes_or_holds (pinsKept_invariant world.state.store).preserves
      (pinsKept_self hall.wellFormed)
  · intro hidle later hsteps
    exact pins_kept hreach hidle hsteps
  · intro msg id indices out haccepted hstatus
    obtain ⟨n, hexit, hpin⟩ := challenge_unbonding hpins hstatus haccepted.change
    obtain ⟨before, time, root, count, after, hlog, rfl⟩ := History.exitCount_event hexit
    exact ⟨before, time, root, count, after, hlog, hpin⟩
  · intro challengeId hbelow hunresolved hstatus htime
    exact answerable hreach hhonest hbelow hunresolved hstatus htime
  · intro msg challengeId indices n peaks answers out haccepted
    obtain ⟨hrange, hchange⟩ := dispatch_change haccepted.dispatched
    exact answer_sound hpins hall hrange hchange
  · intro msg id n peaks reveals out haccepted
    have hdispatched := haccepted.dispatched
    simp only [dispatch, bind_eq_ok, revertIf_eq_ok] at hdispatched
    obtain ⟨_, _, hok⟩ := hdispatched
    exact escape_sound hpins hok

end

end

def challengeAction : Action :=
  .call (sampleMsg (Vector.replicate 20 5) 200000) (.challenge 1 [0])

def challengedWorld : World :=
  ⟨stakeBlock, (declaredWorld.state.after stakeBlock challengeAction).1, []⟩

set_option maxRecDepth 10000 in
theorem challengedWorld_reachable :
    Reachable Keccak.keccak256 sampleDeployment challengedWorld := by
  have hcall : (system Keccak.keccak256 sampleDeployment).call stakeBlock challengeAction
      declaredWorld.state = some (challengedWorld.state, none) := rfl
  exact declaredWorld_reachable.steps (.single (.returns hcall))

theorem zeroRoots_honest : Reference.updateSubtreeRoots Keccak.keccak256 0
    (chunksFrom zeroStream 0 1) = .ok zeroDeclaration.newSubtreePeaks := rfl

set_option maxRecDepth 10000 in
theorem challengedWorld_honest :
    HonestDeclarations Keccak.keccak256 zeroStream challengedWorld.state.log := by
  have hlog : challengedWorld.state.log =
      [(7, .staked 1 sampleOperator sampleOperator)] ++
        [(7, .declared 0 1 zeroDeclaration.blobVersionedHashes zeroDeclaration.newSubtreePeaks
          zeroHash carrierMsg.sender)] ++
        [(7, .challengeOpened 0 1 [0] 200000 (MMR.bagRoot Keccak.keccak256 1
          zeroDeclaration.newSubtreePeaks) 1 107)] := rfl
  rw [hlog]
  refine .concat (.concat (.concat .nil ?_) ?_) ?_
  · intro _ _ _ _ _ _ hevent
    cases hevent
  · intro _ _ _ _ _ _ hevent
    cases hevent
    exact zeroRoots_honest
  · intro _ _ _ _ _ _ hevent
    cases hevent

set_option maxRecDepth 10000 in
theorem pins_historical_challenged :
    ChallengePin Keccak.keccak256 zeroStream challengedWorld.state.store.leafCount
      ((History.replay challengedWorld.state.log).pinCount 0)
      (challengedWorld.state.store.challengeRecords 0) ∧
    ∃ indices n result, challengedWorld.state.callInstance sampleDeployment challengedWorld.env
      Keccak.keccak256 (sampleMsg sampleOperator 0)
      (honestAnswer Keccak.keccak256 zeroStream 0 n indices) = some result := by
  have hpins := pins_historical challengedWorld_reachable challengedWorld_honest
  obtain ⟨hchallenges, _, _, _, _, hanswers, _⟩ := hpins
  have hbelow : 0 < challengedWorld.state.store.nextChallengeId := show 0 < 1 by decide
  have hstatus : (challengedWorld.state.store.providers
      (challengedWorld.state.store.challengeRecords 0).providerId).status ≠ .slashed :=
    show ProviderStatus.active ≠ .slashed by decide
  have htime : challengedWorld.env.timestamp <
      (challengedWorld.state.store.challengeRecords 0).openedAt +
        sampleDeployment.params.responseWindow := show 7 < 7 + 100 by decide
  obtain ⟨indices, n, _, _, hrespond⟩ := hanswers 0 hbelow rfl hstatus htime
  obtain ⟨result, hresult⟩ := (hrespond (sampleMsg sampleOperator 0) rfl rfl).2 (by decide)
  exact ⟨hchallenges 0 hbelow, indices, n, result, hresult⟩

def midBlock : Block := sampleBlock 50 (by simp)

def rechallengedWorld : World :=
  ⟨midBlock, (challengedWorld.state.after midBlock challengeAction).1, []⟩

def answerAction : Action :=
  .call (sampleMsg sampleOperator 0) (honestAnswer Keccak.keccak256 zeroStream 0 1 [0])

def answeredOutcome : Outcome where
  storage := rechallengedWorld.state.store.resolve 0 .active
  events := [.challengeAnswered 0]
  absorbed := none
  payments := [.bondToOperator 0 sampleOperator 200000]
  tail := .payout sampleOperator 200000

def answeredWorld : World :=
  ⟨midBlock, ((rechallengedWorld.state.applyOutcome midBlock 0 answeredOutcome).startPayout
    sampleDeployment midBlock rechallengedWorld.state sampleOperator 200000).1, []⟩

set_option maxRecDepth 10000 in
theorem rechallengedWorld_steps :
    (system Keccak.keccak256 sampleDeployment).Steps challengedWorld rechallengedWorld := by
  have hcall : (system Keccak.keccak256 sampleDeployment).call midBlock challengeAction
      challengedWorld.state = some (rechallengedWorld.state, none) := rfl
  have hadvance : stakeBlock.timestamp ≤ midBlock.timestamp := by decide
  exact .tail (.single (.advances hadvance)) (.returns hcall)

theorem rechallengedWorld_reachable :
    Reachable Keccak.keccak256 sampleDeployment rechallengedWorld :=
  challengedWorld_reachable.steps rechallengedWorld_steps

theorem zeroPeaks_honest : rebuiltPeaks Keccak.keccak256 (chunksFrom zeroStream 0 1) =
    zeroDeclaration.newSubtreePeaks :=
  (rebuiltPeaks_eq Keccak.keccak256 zeroStream (by decide)).trans rfl

set_option maxRecDepth 10000 in
/-- The lemma on honest answers spares the evaluation of the proof. -/
theorem answeredOutcome_dispatch : dispatch Keccak.keccak256 sampleDeployment midBlock
    (sampleMsg sampleOperator 0) rechallengedWorld.state.store
    (honestAnswer Keccak.keccak256 zeroStream 0 1 [0]) = .ok answeredOutcome := by
  have hbelow : ∀ index ∈ [0], index < 1 := by decide
  have hopened : (rechallengedWorld.state.store.challengeRecords 0).challenger ≠ zeroAddress := by
    decide
  refine (respond_dispatched (by decide) (by decide) hbelow rfl).trans ?_
  refine respond_ok hopened rfl (show 7 + 100 < 2 ^ 64 by decide) (show 50 < 7 + 100 by decide) rfl
    (show ProviderStatus.active ≠ .slashed by decide) rfl rfl rfl ?_
    (honestAnswer_checks (by decide) hbelow) (show 1 ≤ 2 by decide)
  rw [zeroPeaks_honest]
  rfl

set_option maxRecDepth 10000 in
theorem answeredWorld_steps :
    (system Keccak.keccak256 sampleDeployment).Steps rechallengedWorld answeredWorld := by
  have hcall : ∃ parked entry, (system Keccak.keccak256 sampleDeployment).call midBlock answerAction
      rechallengedWorld.state =
        some (answeredWorld.state, some ⟨parked, entry, .paidOut sampleOperator 200000⟩) := by
    rw [answerAction, system_call, Chain.callInstance, if_neg (by decide),
      answeredOutcome_dispatch]
    exact ⟨_, _, rfl⟩
  have hresume : (system Keccak.keccak256 sampleDeployment).resume midBlock
      (.paidOut sampleOperator 200000) answeredWorld.state = some answeredWorld.state := by
    change answeredWorld.state.resume sampleDeployment midBlock (.paidOut sampleOperator 200000) = _
    rw [Chain.resume, if_pos (show sampleOperator ≠ sampleDeployment.paymaster by decide)]
  obtain ⟨parked, entry, hcall⟩ := hcall
  exact .tail (.single (.opens hcall)) (.succeeds hresume)

theorem answeredWorld_reachable : Reachable Keccak.keccak256 sampleDeployment answeredWorld :=
  rechallengedWorld_reachable.steps answeredWorld_steps

set_option maxRecDepth 10000 in
theorem answeredWorld_unresolved : answeredWorld.state.store.unresolved 1 = {1} := by
  decide

end Blobsitter.Contract
