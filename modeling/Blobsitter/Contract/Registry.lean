import Blobsitter.Contract.Answers

/-!
# The provider registry in the log

The log says everything about a provider: its record and, but for the challenger's address,
every challenge against it.  Entries about other providers say nothing about it, so two
runs whose entries about a provider agree have left it the same record.
-/

namespace Blobsitter.Contract

open Library
open Reference (Hash Address)

/-- What is public about a challenge: all of its record but the challenger. -/
structure OpenedChallenge where
  bond : Nat
  openedAt : Nat
  pinnedRoot : Hash
  pinnedLeafCount : Nat
  indicesHash : Hash
  k : Nat
  resolved : Bool

def Challenge.opened (c : Challenge) : OpenedChallenge where
  bond := c.bond
  openedAt := c.openedAt
  pinnedRoot := c.pinnedRoot
  pinnedLeafCount := c.pinnedLeafCount
  indicesHash := c.indicesHash
  k := c.k
  resolved := c.resolved

/-- A provider and the challenges against it, by their ids. -/
@[ext]
structure Account where
  provider : Provider
  challenges : Nat → Option OpenedChallenge

def Storage.challengeAgainst (s : Storage) (id challengeId : Nat) : Option OpenedChallenge :=
  if challengeId < s.nextChallengeId ∧ (s.challengeRecords challengeId).providerId = id then
    some (s.challengeRecords challengeId).opened
  else none

def Storage.account (s : Storage) (id : Nat) : Account := ⟨s.providers id, s.challengeAgainst id⟩

/-- The provider that an event names. -/
def Event.named : Event → Option Nat
  | .staked providerId _ _ => some providerId
  | .unbondingInitiated providerId _ _ => some providerId
  | .withdrawn providerId => some providerId
  | .challengeOpened _ providerId _ _ _ _ _ => some providerId
  | .slashed providerId _ _ => some providerId
  | .custodyCommitted providerId _ _ _ _ => some providerId
  | .custodyProven providerId _ _ => some providerId
  | _ => none

/-- The challenge that an event resolves. -/
def Event.resolves : Event → Option Nat
  | .challengeAnswered challengeId => some challengeId
  | .challengeRefunded challengeId => some challengeId
  | .challengeTimedOut challengeId => some challengeId
  | _ => none

/-- What an event that names the provider does to its record. -/
def Provider.after (p : Provider) (time : Nat) : Event → Provider
  | .staked _ operator withdrawal =>
      { p with operator := operator, withdrawal := withdrawal, status := .active, anchor := time }
  | .unbondingInitiated _ exitRoot exitLeafCount =>
      { p.voidCommit with
        status := .unbonding
        unbondingAt := time
        exitRoot := exitRoot
        exitLeafCount := exitLeafCount }
  | .withdrawn _ => { p with status := .exited }
  | .challengeOpened _ _ _ _ _ _ _ => { p with openChallenges := p.openChallenges + 1 }
  | .slashed _ _ _ => { p with status := .slashed }
  | .custodyCommitted _ period seed root leafCount =>
      { p with
        commitPeriodPlusOne := period + 1
        commitSeed := seed
        commitRoot := root
        commitLeafCount := leafCount }
  | .custodyProven _ period degraded =>
      { p.voidCommit with lastProvenPlusOne := period + 1, lastDegraded := degraded }
  | _ => p

namespace Account

def empty : Account := ⟨.empty, fun _ => none⟩

/-- A challenge is resolved once; an id of another provider's challenge changes nothing. -/
def resolve (account : Account) (challengeId : Nat) : Account :=
  match account.challenges challengeId with
  | none => account
  | some c =>
      ⟨{ account.provider with openChallenges := account.provider.openChallenges - 1 },
        Function.update account.challenges challengeId (some { c with resolved := true })⟩

section

variable (keccak256 : ByteString → Hash)

/-- The challenges against the provider after an event that names it. -/
def challengesAfter (account : Account) (time : Nat) : Event → Nat → Option OpenedChallenge
  | .challengeOpened challengeId _ indices bond pinnedRoot pinnedLeafCount _ =>
      Function.update account.challenges challengeId (some
        { bond := bond
          openedAt := time
          pinnedRoot := pinnedRoot
          pinnedLeafCount := pinnedLeafCount
          indicesHash := keccak256 (packIndices indices)
          k := indices.length % 2 ^ 16
          resolved := false })
  | _ => account.challenges

/-- One entry of the log, read for one provider. -/
def read (id : Nat) (account : Account) (entry : Nat × Event) : Account :=
  if entry.2.named = some id then
    ⟨account.provider.after entry.1 entry.2, account.challengesAfter keccak256 entry.1 entry.2⟩
  else
    match entry.2.resolves with
    | some challengeId => account.resolve challengeId
    | none => account

/-- The account that the log tells of. -/
def replay (id : Nat) (log : List (Nat × Event)) : Account := log.foldl (read keccak256 id) empty

end

section

variable {keccak256 : ByteString → Hash} {account : Account} {id time : Nat} {event : Event}

theorem resolves_of_named (hnamed : event.named ≠ none) : event.resolves = none := by
  cases event <;> first | rfl | exact absurd rfl hnamed

theorem read_named (hnamed : event.named = some id) :
    account.read keccak256 id (time, event) =
      ⟨account.provider.after time event, account.challengesAfter keccak256 time event⟩ :=
  if_pos hnamed

theorem read_other {other : Nat} (hnamed : event.named = some other) (hother : other ≠ id) :
    account.read keccak256 id (time, event) = account := by
  have hne : event.named ≠ some id := by
    rw [hnamed]
    exact fun heq => hother (Option.some.inj heq)
  have hresolves := @resolves_of_named event (by rw [hnamed]; exact Option.some_ne_none other)
  rw [read, if_neg hne, hresolves]

theorem read_resolves {challengeId : Nat} (hresolves : event.resolves = some challengeId) :
    account.read keccak256 id (time, event) = account.resolve challengeId := by
  have hne : event.named ≠ some id := by
    intro heq
    rw [resolves_of_named (by rw [heq]; exact Option.some_ne_none id)] at hresolves
    cases hresolves
  rw [read, if_neg hne, hresolves]

theorem read_silent (hnamed : event.named = none) (hresolves : event.resolves = none) :
    account.read keccak256 id (time, event) = account := by
  rw [read, if_neg (by rw [hnamed]; exact Option.some_ne_none id |>.symm), hresolves]

theorem resolve_of_none {challengeId : Nat} (hnone : account.challenges challengeId = none) :
    account.resolve challengeId = account := by
  rw [resolve, hnone]

theorem resolve_of_some {challengeId : Nat} {c : OpenedChallenge}
    (hsome : account.challenges challengeId = some c) :
    account.resolve challengeId =
      ⟨{ account.provider with openChallenges := account.provider.openChallenges - 1 },
        Function.update account.challenges challengeId (some { c with resolved := true })⟩ := by
  rw [resolve, hsome]

end

end Account

/-! ## Accounts in storage -/

section

variable {s next : Storage} {id : Nat}

theorem Storage.account_of_same (hproviders : next.providers = s.providers)
    (hnextId : next.nextChallengeId = s.nextChallengeId)
    (hrecords : next.challengeRecords = s.challengeRecords) : next.account id = s.account id := by
  have hagainst : next.challengeAgainst id = s.challengeAgainst id := by
    funext challengeId
    rw [challengeAgainst, hnextId, hrecords, challengeAgainst]
  rw [account, hproviders, hagainst, account]

theorem Storage.account_setProvider_self (p : Provider) :
    (s.setProvider id p).account id = ⟨p, s.challengeAgainst id⟩ := by
  have hself : (s.setProvider id p).providers id = p := by
    rw [setProvider_providers, Function.update_self]
  rw [account, hself]
  rfl

theorem Storage.account_setProvider_of_ne {other : Nat} (hother : other ≠ id) (p : Provider) :
    (s.setProvider other p).account id = s.account id := by
  have hkept : (s.setProvider other p).providers id = s.providers id := by
    rw [setProvider_providers, Function.update_of_ne hother.symm]
  rw [account, hkept]
  rfl

theorem Storage.setProvider_same :
    s.setProvider id { s.providers id with status := (s.providers id).status } = s := by
  rw [setProvider, Function.update_eq_self]

/-- The new challenge stands in its provider's account only. -/
theorem Storage.challengeAgainst_addChallenge {c : Challenge} :
    (s.addChallenge c).challengeAgainst id =
      if c.providerId = id then
        Function.update (s.challengeAgainst id) s.nextChallengeId (some c.opened)
      else s.challengeAgainst id := by
  have hrecords : (s.addChallenge c).challengeRecords =
      Function.update s.challengeRecords s.nextChallengeId c := rfl
  have hnextId : (s.addChallenge c).nextChallengeId = s.nextChallengeId + 1 := rfl
  funext challengeId
  rw [challengeAgainst, hrecords, hnextId]
  by_cases hnew : challengeId = s.nextChallengeId
  · subst hnew
    rw [Function.update_self]
    by_cases hagainst : c.providerId = id
    · rw [if_pos ⟨Nat.lt_succ_self _, hagainst⟩, if_pos hagainst, Function.update_self]
    · rw [if_neg fun both => hagainst both.2, if_neg hagainst, challengeAgainst,
        if_neg fun both => Nat.lt_irrefl _ both.1]
  · have hsame : (challengeId < s.nextChallengeId + 1 ∧
        (s.challengeRecords challengeId).providerId = id) ↔
        challengeId < s.nextChallengeId ∧ (s.challengeRecords challengeId).providerId = id := by
      refine and_congr_left fun _ => ?_
      omega
    rw [Function.update_of_ne hnew]
    simp only [hsame]
    by_cases hagainst : c.providerId = id
    · rw [if_pos hagainst, Function.update_of_ne hnew]
      rfl
    · rw [if_neg hagainst]
      rfl

/-- A resolved challenge was in its provider's account. -/
theorem Storage.account_resolve {challengeId : Nat} {status : ProviderStatus}
    (hbelow : challengeId < s.nextChallengeId) :
    (s.resolve challengeId status).account id =
      if (s.challengeRecords challengeId).providerId = id then
        (⟨{ s.providers id with status := status }, s.challengeAgainst id⟩ : Account).resolve
          challengeId
      else s.account id := by
  have hrecords : (s.resolve challengeId status).challengeRecords =
      Function.update s.challengeRecords challengeId
        { s.challengeRecords challengeId with resolved := true } := rfl
  have hproviders : (s.resolve challengeId status).providers =
      Function.update s.providers (s.challengeRecords challengeId).providerId
        { s.providers (s.challengeRecords challengeId).providerId with
          openChallenges :=
            (s.providers (s.challengeRecords challengeId).providerId).openChallenges - 1
          status := status } := rfl
  have hagainst : ∀ other, other ≠ challengeId →
      (s.resolve challengeId status).challengeAgainst id other = s.challengeAgainst id other := by
    intro other hother
    rw [challengeAgainst, hrecords, Function.update_of_ne hother]
    rfl
  by_cases hpid : (s.challengeRecords challengeId).providerId = id
  · have hfound : s.challengeAgainst id challengeId =
        some (s.challengeRecords challengeId).opened := if_pos ⟨hbelow, hpid⟩
    rw [if_pos hpid, Account.resolve_of_some hfound, account, hproviders, hpid, Function.update_self]
    refine Account.ext rfl ?_
    funext other
    simp only
    by_cases hother : other = challengeId
    · subst hother
      rw [Function.update_self, challengeAgainst, hrecords, Function.update_self,
        if_pos ⟨hbelow, hpid⟩]
      rfl
    · rw [Function.update_of_ne hother, hagainst other hother]
  · rw [if_neg hpid, account, hproviders, Function.update_of_ne fun heq => hpid heq.symm, account]
    refine Account.ext rfl ?_
    funext other
    simp only
    by_cases hother : other = challengeId
    · subst hother
      rw [challengeAgainst, hrecords, Function.update_self, if_neg fun both => hpid both.2,
        challengeAgainst, if_neg fun both => hpid both.2]
    · exact hagainst other hother

end

section

variable {keccak256 : ByteString → Hash} {dep : Deployment} {block : Block} {msg : Msg}
variable {s : Storage} {id : Nat}

/-- An event that opens no challenge, and the record of the provider that it names. -/
theorem read_setProvider {other time : Nat} {event : Event} {p : Provider}
    (hnamed : event.named = some other) (hrecord : p = (s.providers other).after time event)
    (hkept : ∀ account : Account, account.challengesAfter keccak256 time event =
      account.challenges) :
    (s.account id).read keccak256 id (time, event) = (s.setProvider other p).account id := by
  by_cases hother : other = id
  · subst hother
    rw [Account.read_named hnamed, hkept, s.account_setProvider_self, hrecord]
    rfl
  · rw [Account.read_other hnamed hother, s.account_setProvider_of_ne hother]

theorem read_addChallenge {c : Challenge} {indices : List Nat} {deadline : Nat}
    (hresolved : c.resolved = false) (hhash : c.indicesHash = keccak256 (packIndices indices))
    (hk : c.k = indices.length % 2 ^ 16) :
    (s.account id).read keccak256 id (c.openedAt, .challengeOpened s.nextChallengeId c.providerId
        indices c.bond c.pinnedRoot c.pinnedLeafCount deadline) = (s.addChallenge c).account id := by
  have hproviders : (s.addChallenge c).providers = Function.update s.providers c.providerId
      { s.providers c.providerId with
        openChallenges := (s.providers c.providerId).openChallenges + 1 } := rfl
  have haccount : (s.addChallenge c).account id =
      ⟨(s.addChallenge c).providers id, (s.addChallenge c).challengeAgainst id⟩ := rfl
  rw [haccount, hproviders, s.challengeAgainst_addChallenge]
  by_cases hother : c.providerId = id
  · have hnamed : (Event.challengeOpened s.nextChallengeId c.providerId indices c.bond c.pinnedRoot
        c.pinnedLeafCount deadline).named = some id := congrArg some hother
    rw [Account.read_named hnamed, if_pos hother, hother, Function.update_self, Challenge.opened,
      hhash, hk, hresolved]
    rfl
  · rw [Account.read_other rfl hother, if_neg hother,
      Function.update_of_ne fun heq => hother heq.symm]
    rfl

/-- The event that resolves a challenge, after what was done to its provider's status. -/
theorem read_resolve {challengeId time : Nat} {event : Event} {status : ProviderStatus}
    (hresolves : event.resolves = some challengeId) (hbelow : challengeId < s.nextChallengeId) :
    ((s.setProvider (s.challengeRecords challengeId).providerId
        { s.providers (s.challengeRecords challengeId).providerId with status := status }).account
          id).read keccak256 id (time, event) = (s.resolve challengeId status).account id := by
  rw [Account.read_resolves hresolves, Storage.account_resolve hbelow]
  by_cases hother : (s.challengeRecords challengeId).providerId = id
  · rw [if_pos hother, hother, s.account_setProvider_self]
  · rw [if_neg hother, s.account_setProvider_of_ne hother]
    exact Account.resolve_of_none (if_neg fun both => hother both.2)

theorem foldl_silent {account : Account} {time : Nat} {events : List Event}
    (hsilent : ∀ event ∈ events, event.named = none ∧ event.resolves = none) :
    (events.map fun event => (time, event)).foldl (Account.read keccak256 id) account = account := by
  induction events with
  | nil => rfl
  | cons event rest ih =>
      obtain ⟨hnamed, hresolves⟩ := hsilent event List.mem_cons_self
      rw [List.map_cons, List.foldl_cons, Account.read_silent hnamed hresolves]
      exact ih fun later hmem => hsilent later (List.mem_cons_of_mem event hmem)

/-- Events of signed intents and announcements are about no provider. -/
theorem foldl_silent_singleton {account : Account} {time : Nat} {event : Event}
    (hnamed : event.named = none) (hresolves : event.resolves = none) :
    ([event].map fun event => (time, event)).foldl (Account.read keccak256 id) account = account := by
  refine foldl_silent fun other hmem => ?_
  rw [List.mem_singleton.mp hmem]
  exact ⟨hnamed, hresolves⟩

/-- The events of an accepted call say what it did to every account. -/
theorem Change.replayed {call : Call} {out : Outcome}
    (hchange : Change keccak256 dep block msg s call out) (hwf : s.WellFormed) :
    (out.events.map fun event => (block.timestamp, event)).foldl (Account.read keccak256 id)
      (s.account id) = out.storage.account id := by
  have htime : block.timestamp % 2 ^ 64 = block.timestamp := Nat.mod_eq_of_lt block.timestamp_lt
  cases hchange with
  | declared _ haccepted hsame =>
      obtain ⟨_, _, _, _, _, _, _, _, hevents⟩ := haccepted.subtreeCount
      rw [hevents, Storage.account_of_same hsame.providers hsame.nextChallengeId
        hsame.challengeRecords]
      exact foldl_silent_singleton rfl rfl
  | pointed _ haccepted =>
      have hsame := haccepted.same
      rw [Storage.account_of_same hsame.providers hsame.nextChallengeId hsame.challengeRecords]
      rcases haccepted.events with ⟨_, _, hevents⟩ | ⟨_, hevents⟩
      · rw [hevents]
        exact foldl_silent_singleton rfl rfl
      · rw [hevents]
        exact foldl_silent_singleton rfl rfl
  | noted _ hevent =>
      rcases hevent with ⟨_, _, rfl⟩ | ⟨_, rfl⟩
      · exact foldl_silent_singleton rfl rfl
      · exact foldl_silent_singleton rfl rfl
  | staked =>
      rw [htime]
      exact read_setProvider rfl rfl fun _ => rfl
  | unbonded =>
      rw [htime]
      exact read_setProvider rfl rfl fun _ => rfl
  | withdrawn => exact read_setProvider rfl rfl fun _ => rfl
  | committed => exact read_setProvider rfl rfl fun _ => rfl
  | proven => exact read_setProvider rfl rfl fun _ => rfl
  | lapsed => exact read_setProvider rfl rfl fun _ => rfl
  | @challenged other indices pinnedRoot pinnedLeafCount =>
      have hunopened := hwf.unopened _ le_rfl
      rw [htime]
      refine read_addChallenge (c := ⟨other, msg.sender, msg.value, block.timestamp, pinnedRoot,
        pinnedLeafCount, keccak256 (packIndices indices), indices.length % 2 ^ 16,
        (s.challengeRecords s.nextChallengeId).resolved⟩) ?_ rfl rfl
      rw [hunopened]
      rfl
  | @answered challengeId _ _ _ _ _ hopened =>
      have hread := @read_resolve keccak256 s id challengeId block.timestamp
        (.challengeAnswered challengeId)
        (s.providers (s.challengeRecords challengeId).providerId).status rfl (hwf.openedBelow hopened)
      rwa [s.setProvider_same] at hread
  | @timedOut challengeId _ _ _ hopened =>
      have hslashed := @read_setProvider keccak256 s id (s.challengeRecords challengeId).providerId
        block.timestamp (.slashed (s.challengeRecords challengeId).providerId .challengeTimeout
          msg.sender) _ rfl rfl fun _ => rfl
      rw [List.map_cons, List.foldl_cons, hslashed]
      exact @read_resolve keccak256 s id challengeId block.timestamp
        (.challengeTimedOut challengeId) .slashed rfl (hwf.openedBelow hopened)
  | @refunded challengeId _ hopened _ _ _ hstatus =>
      have hread := @read_resolve keccak256 s id challengeId block.timestamp
        (.challengeRefunded challengeId)
        (s.providers (s.challengeRecords challengeId).providerId).status rfl (hwf.openedBelow hopened)
      rw [s.setProvider_same, hstatus] at hread
      exact hread
  | claimed => rfl

end

/-! ## What is about a provider -/

/-- The entry opens this challenge against the provider. -/
def Event.opens (id challengeId : Nat) : Event → Bool
  | .challengeOpened opened providerId _ _ _ _ _ => opened == challengeId && providerId == id
  | _ => false

/-- The entry names the provider, or resolves a challenge that the log opens against it. -/
def isAbout (id : Nat) (log : List (Nat × Event)) (event : Event) : Bool :=
  event.named == some id ||
    event.resolves.any fun challengeId => log.any fun entry => entry.2.opens id challengeId

/-- The entries about a provider. -/
def about (id : Nat) (log : List (Nat × Event)) : List (Nat × Event) :=
  log.filter fun entry => isAbout id log entry.2

section

variable {keccak256 : ByteString → Hash} {id : Nat}

/-- A challenge is in the account only if some entry opened it. -/
theorem Account.read_challenges {account : Account} {entry : Nat × Event} {challengeId : Nat}
    (hsome : (account.read keccak256 id entry).challenges challengeId ≠ none) :
    account.challenges challengeId ≠ none ∨ entry.2.opens id challengeId = true := by
  obtain ⟨time, event⟩ := entry
  by_cases hnamed : event.named = some id
  · rw [read_named hnamed] at hsome
    cases event with
    | challengeOpened opened providerId =>
        obtain rfl := Option.some.inj hnamed
        by_cases hid : challengeId = opened
        · refine Or.inr ?_
          simp [Event.opens, hid]
        · simp only [challengesAfter, Function.update_of_ne hid] at hsome
          exact Or.inl hsome
    | _ => exact Or.inl hsome
  · cases hresolves : event.resolves with
    | none =>
        rw [read, if_neg hnamed, hresolves] at hsome
        exact Or.inl hsome
    | some resolved =>
        rw [read_resolves hresolves] at hsome
        refine Or.inl ?_
        cases hfound : account.challenges resolved with
        | none =>
            rw [resolve_of_none hfound] at hsome
            exact hsome
        | some c =>
            rw [resolve_of_some hfound] at hsome
            by_cases hid : challengeId = resolved
            · rw [hid, hfound]
              exact Option.some_ne_none c
            · simp only [Function.update_of_ne hid] at hsome
              exact hsome

/-- Entries that are not about the provider can be left out. -/
theorem foldl_about {whole rest : List (Nat × Event)} (hrest : rest ⊆ whole) {account : Account}
    (hopened : ∀ challengeId, account.challenges challengeId ≠ none →
      (whole.any fun entry => entry.2.opens id challengeId) = true) :
    (rest.filter fun entry => isAbout id whole entry.2).foldl (Account.read keccak256 id) account =
      rest.foldl (Account.read keccak256 id) account := by
  induction rest generalizing account with
  | nil => rfl
  | cons entry rest ih =>
      have hmem : entry ∈ whole := hrest List.mem_cons_self
      have htail : rest ⊆ whole := fun later hlater => hrest (List.mem_cons_of_mem entry hlater)
      have hnext : ∀ challengeId, (account.read keccak256 id entry).challenges challengeId ≠ none →
          (whole.any fun entry => entry.2.opens id challengeId) = true := by
        intro challengeId hsome
        rcases Account.read_challenges hsome with hbefore | hopens
        · exact hopened challengeId hbefore
        · exact List.any_eq_true.mpr ⟨entry, hmem, hopens⟩
      rw [List.foldl_cons, ← ih htail hnext, List.filter_cons]
      by_cases habout : isAbout id whole entry.2 = true
      · rw [if_pos habout]
        rfl
      · have hsame : account.read keccak256 id entry = account := by
          rw [isAbout, Bool.or_eq_true, not_or, beq_iff_eq] at habout
          obtain ⟨hnamed, hother⟩ := habout
          rw [Account.read, if_neg hnamed]
          cases hresolves : entry.2.resolves with
          | none => rfl
          | some challengeId =>
              refine Account.resolve_of_none ?_
              by_contra hsome
              rw [hresolves] at hother
              exact hother (hopened challengeId hsome)
        rw [if_neg habout, hsame]

theorem replay_about (log : List (Nat × Event)) :
    Account.replay keccak256 id (about id log) = Account.replay keccak256 id log :=
  foldl_about (List.Subset.refl log) fun _ hsome => absurd rfl hsome

end

/-- Ids of new providers and challenges, in the order of the log. -/
def Event.stakedId : Event → Option Nat
  | .staked providerId _ _ => some providerId
  | _ => none

def Event.openedId : Event → Option Nat
  | .challengeOpened challengeId _ _ _ _ _ _ => some challengeId
  | _ => none

section

variable {keccak256 : ByteString → Hash} {dep : Deployment} {block : Block} {msg : Msg}
variable {s : Storage}

/-- The registry is what the log tells, and ids are given out one after the other. -/
structure Registered (keccak256 : ByteString → Hash) (s : Storage) (log : List (Nat × Event)) :
    Prop where
  wellFormed : s.WellFormed
  accounts : ∀ id, Account.replay keccak256 id log = s.account id
  first : 1 ≤ s.nextProviderId
  providers : (recorded Event.stakedId log).map Prod.snd = List.range' 1 (s.nextProviderId - 1)
  challenges : (recorded Event.openedId log).map Prod.snd = List.range s.nextChallengeId

theorem Change.providerIds {call : Call} {out : Outcome}
    (hchange : Change keccak256 dep block msg s call out) :
    out.events.filterMap Event.stakedId = [] ∧ out.storage.nextProviderId = s.nextProviderId ∨
      out.events.filterMap Event.stakedId = [s.nextProviderId] ∧
        out.storage.nextProviderId = s.nextProviderId + 1 := by
  cases hchange with
  | declared _ haccepted hsame =>
      obtain ⟨_, _, _, _, _, _, _, _, hevents⟩ := haccepted.subtreeCount
      rw [hevents]
      exact Or.inl ⟨rfl, hsame.nextProviderId⟩
  | pointed _ haccepted =>
      rcases haccepted.events with ⟨_, _, hevents⟩ | ⟨_, hevents⟩
      · rw [hevents]
        exact Or.inl ⟨rfl, haccepted.same.nextProviderId⟩
      · rw [hevents]
        exact Or.inl ⟨rfl, haccepted.same.nextProviderId⟩
  | noted _ hevent =>
      rcases hevent with ⟨_, _, rfl⟩ | ⟨_, rfl⟩
      · exact Or.inl ⟨rfl, rfl⟩
      · exact Or.inl ⟨rfl, rfl⟩
  | staked => exact Or.inr ⟨rfl, rfl⟩
  | _ => exact Or.inl ⟨rfl, rfl⟩

theorem Change.challengeIds {call : Call} {out : Outcome}
    (hchange : Change keccak256 dep block msg s call out) :
    out.events.filterMap Event.openedId = [] ∧ out.storage.nextChallengeId = s.nextChallengeId ∨
      out.events.filterMap Event.openedId = [s.nextChallengeId] ∧
        out.storage.nextChallengeId = s.nextChallengeId + 1 := by
  cases hchange with
  | declared _ haccepted hsame =>
      obtain ⟨_, _, _, _, _, _, _, _, hevents⟩ := haccepted.subtreeCount
      rw [hevents]
      exact Or.inl ⟨rfl, hsame.nextChallengeId⟩
  | pointed _ haccepted =>
      rcases haccepted.events with ⟨_, _, hevents⟩ | ⟨_, hevents⟩
      · rw [hevents]
        exact Or.inl ⟨rfl, haccepted.same.nextChallengeId⟩
      · rw [hevents]
        exact Or.inl ⟨rfl, haccepted.same.nextChallengeId⟩
  | noted _ hevent =>
      rcases hevent with ⟨_, _, rfl⟩ | ⟨_, rfl⟩
      · exact Or.inl ⟨rfl, rfl⟩
      · exact Or.inl ⟨rfl, rfl⟩
  | challenged => exact Or.inr ⟨rfl, rfl⟩
  | _ => exact Or.inl ⟨rfl, rfl⟩

theorem Registered.change {log : List (Nat × Event)} (hregistered : Registered keccak256 s log)
    (houtside : Outside dep msg.sender) {call : Call} {out : Outcome}
    (hchange : Change keccak256 dep block msg s call out) :
    Registered keccak256 out.storage
      (log ++ out.events.map fun event => (block.timestamp, event)) := by
  obtain ⟨hwf, haccounts, hfirst, hproviders, hchallenges⟩ := hregistered
  refine ⟨hchange.wellFormed houtside hwf, ?_, ?_, ?_, ?_⟩
  · intro id
    rw [Account.replay, List.foldl_append, ← Account.replay, haccounts]
    exact hchange.replayed hwf
  · rcases hchange.providerIds with ⟨_, hsame⟩ | ⟨_, hnext⟩
    · rwa [hsame]
    · rw [hnext]
      omega
  · rw [recorded_append_events, List.map_append, hproviders, List.map_map]
    rcases hchange.providerIds with ⟨hevents, hsame⟩ | ⟨hevents, hnext⟩
    · rw [hevents, hsame, List.map_nil, List.append_nil]
    · rw [hevents, hnext, Nat.add_sub_cancel]
      conv => rhs; rw [← Nat.sub_add_cancel hfirst, List.range'_concat]
      have hnext : s.nextProviderId = 1 + 1 * (s.nextProviderId - 1) := by omega
      exact congrArg (fun id => _ ++ [id]) hnext
  · rw [recorded_append_events, List.map_append, hchallenges, List.map_map]
    rcases hchange.challengeIds with ⟨hevents, hsame⟩ | ⟨hevents, hnext⟩
    · rw [hevents, hsame, List.map_nil, List.append_nil]
    · rw [hevents, hnext, List.range_succ]
      rfl

theorem Account.read_transfer {account : Account} {id time : Nat} {event : Event}
    (htransfer : event.isTransfer = true) : account.read keccak256 id (time, event) = account := by
  refine read_silent ?_ ?_
  · cases event <;> first | rfl | cases htransfer
  · cases event <;> first | rfl | cases htransfer

theorem registered_invariant :
    StoreInvariant keccak256 dep fun _ s log _ => Registered keccak256 s log where
  change hregistered houtside _ hchange := hregistered.change houtside hchange
  quiet {_ s log extra _} sink entered hregistered htransfer := by
    have hread : ∀ {α : Type} (read : Event → Option α),
        (∀ event, event.isTransfer = true → read event = none) →
        recorded read (log ++ extra) = recorded read log :=
      fun read hnone => recorded_append_transfers read hnone log htransfer
    have hextra : ∀ id (account : Account),
        extra.foldl (Account.read keccak256 id) account = account := by
      intro id account
      clear hread
      induction extra with
      | nil => rfl
      | cons entry rest ih =>
          rw [List.foldl_cons, Account.read_transfer (htransfer entry List.mem_cons_self)]
          exact ih fun later hmem => htransfer later (List.mem_cons_of_mem entry hmem)
    obtain ⟨hwf, haccounts, hfirst, hproviders, hchallenges⟩ := hregistered
    refine ⟨hwf.of_same rfl rfl rfl rfl, ?_, hfirst, ?_, ?_⟩
    · intro id
      rw [Account.replay, List.foldl_append, hextra, ← Account.replay, haccounts]
      rfl
    · rw [hread Event.stakedId fun event hevent => by cases event <;> first | rfl | cases hevent]
      exact hproviders
    · rw [hread Event.openedId fun event hevent => by cases event <;> first | rfl | cases hevent]
      exact hchallenges
  advance hregistered _ := hregistered

theorem Reachable.registered {world : World} (hreach : Reachable keccak256 dep world) :
    Registered keccak256 world.state.store world.state.log := by
  refine (hreach.holds registered_invariant.preserves fun block => ?_).state
  refine ⟨(deployed_distributed block).wellFormed, fun id => ?_, le_rfl, rfl, rfl⟩
  refine Account.ext rfl ?_
  funext challengeId
  have hnone : (Chain.deployed dep block).store.challengeAgainst id challengeId = none :=
    if_neg fun both => Nat.not_lt_zero _ both.1
  exact hnone.symm

/-- In every reachable state the log rebuilds each provider's record and the challenges against
it; ids are given out in the order of the log; and two runs, of whatever deployments, whose
entries about a provider agree have left it the same account. -/
theorem registry_rebuilt {world : World} (hreach : Reachable keccak256 dep world) :
    (∀ id, Account.replay keccak256 id world.state.log = world.state.store.account id) ∧
      (recorded Event.stakedId world.state.log).map Prod.snd =
        List.range' 1 (world.state.store.nextProviderId - 1) ∧
      (recorded Event.openedId world.state.log).map Prod.snd =
        List.range world.state.store.nextChallengeId ∧
      ∀ (other : Deployment) (elsewhere : World) (id : Nat),
        Reachable keccak256 other elsewhere →
        about id elsewhere.state.log = about id world.state.log →
        elsewhere.state.store.account id = world.state.store.account id := by
  have hregistered := hreach.registered
  refine ⟨hregistered.accounts, hregistered.providers, hregistered.challenges, ?_⟩
  intro other elsewhere id helsewhere habout
  rw [← hregistered.accounts, ← helsewhere.registered.accounts, ← replay_about, habout,
    replay_about]

end

set_option maxRecDepth 10000 in
/-- The declaration after the stake is not about provider 1. -/
theorem registry_rebuilt_declared :
    Account.replay Keccak.keccak256 1 declaredWorld.state.log =
        declaredWorld.state.store.account 1 ∧
      (declaredWorld.state.store.account 1).provider.status = .active ∧
      stakedWorld.state.store.account 1 = declaredWorld.state.store.account 1 := by
  obtain ⟨haccounts, _, _, helsewhere⟩ := registry_rebuilt declaredWorld_reachable
  exact ⟨haccounts 1, rfl, helsewhere sampleDeployment stakedWorld 1 stakedWorld_reachable rfl⟩

end Blobsitter.Contract
