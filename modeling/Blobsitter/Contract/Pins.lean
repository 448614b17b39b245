import Blobsitter.Contract.Dataset
import Blobsitter.Contract.Distribution

/-!
# Pins as history

The log alone tells at which leaf count every pin was taken.  When the declarations
commit a chunk stream, storage holds exactly the pins of that history: the bagged
roots over the first chunks of the stream at those counts.
-/

namespace Blobsitter.Contract

open Library
open Reference (Chunk Hash Address updateHeights)

/-- The leaf count of the dataset, and the leaf counts at which providers left, at which
the pending commits were taken, and which the challenges pin. -/
structure History where
  leafCount : Nat
  exitCount : Nat → Option Nat
  commitCount : Nat → Option Nat
  pinCount : Nat → Option Nat

def History.initial : History := ⟨0, fun _ => none, fun _ => none, fun _ => none⟩

/-- A challenge pins the dataset as it is, or as it was when its provider left. -/
def History.record (history : History) : Event → History
  | .declared _ newLeafCount _ _ _ _ => { history with leafCount := newLeafCount }
  | .unbondingInitiated id _ _ =>
      { history with
        exitCount := Function.update history.exitCount id (some history.leafCount)
        commitCount := Function.update history.commitCount id none }
  | .custodyCommitted id _ _ _ _ =>
      { history with commitCount := Function.update history.commitCount id (some history.leafCount) }
  | .custodyProven id _ _ =>
      { history with commitCount := Function.update history.commitCount id none }
  | .challengeOpened challengeId id _ _ _ _ _ =>
      { history with
        pinCount := Function.update history.pinCount challengeId
          (some ((history.exitCount id).getD history.leafCount)) }
  | _ => history

def History.replay (log : List (Nat × Event)) : History :=
  log.foldl (fun history entry => history.record entry.2) .initial

theorem History.replay_append_events (log : List (Nat × Event)) (time : Nat) (events : List Event) :
    History.replay (log ++ events.map fun event => (time, event)) =
      events.foldl History.record (History.replay log) := by
  rw [History.replay, List.foldl_append, List.foldl_map]
  rfl

theorem History.replay_append_transfers (log : List (Nat × Event)) {extra : List (Nat × Event)}
    (htransfer : ∀ entry ∈ extra, entry.2.isTransfer = true) :
    History.replay (log ++ extra) = History.replay log := by
  rw [History.replay, List.foldl_append]
  change extra.foldl _ (History.replay log) = _
  induction extra with
  | nil => rfl
  | cons entry rest ih =>
      have hentry := htransfer entry List.mem_cons_self
      have hsame : (History.replay log).record entry.2 = History.replay log := by
        cases hevent : entry.2 <;> rw [hevent] at hentry <;> first | rfl | cases hentry
      rw [List.foldl_cons, hsame]
      exact ih fun later hmem => htransfer later (List.mem_cons_of_mem _ hmem)

section

variable (keccak256 : ByteString → Hash) (stream : Nat → Chunk)

/-- Every declaration of the log carries the subtree roots of the stream's next chunks. -/
def HonestDeclarations (log : List (Nat × Event)) : Prop :=
  ∀ before time after nonce n1 hashes roots pointer carrier,
    log = before ++ (time, .declared nonce n1 hashes roots pointer carrier) :: after →
    Reference.updateSubtreeRoots keccak256 (History.replay before).leafCount
      (chunksFrom stream (History.replay before).leafCount
        (n1 - (History.replay before).leafCount)) = .ok roots

/-- The one-word pin of the first `n` chunks, with their number. -/
def pinAt (n : Nat) : Hash × Nat :=
  (MMR.bagRoot keccak256 n (firstPeaks keccak256 stream n), n)

/-- A provider's pins are those of the history. -/
structure ProviderPins (leafCount : Nat) (exit commit : Option Nat) (p : Provider) : Prop where
  staying : p.status = .none ∨ p.status = .active → exit = none
  leaving : p.status = .unbonding ∨ p.status = .exited → ∃ n, exit = some n
  exitPin : ∀ n, exit = some n →
    (p.exitRoot, p.exitLeafCount) = pinAt keccak256 stream n ∧ n ≤ leafCount
  commitPin : p.commitPeriodPlusOne ≠ 0 → ∃ n, commit = some n ∧
    (p.commitRoot, p.commitLeafCount) = pinAt keccak256 stream n ∧ n ≤ leafCount

/-- A challenge's pin is that of the history. -/
def ChallengePin (leafCount : Nat) (pin : Option Nat) (c : Challenge) : Prop :=
  ∃ n, pin = some n ∧ (c.pinnedRoot, c.pinnedLeafCount) = pinAt keccak256 stream n ∧ n ≤ leafCount

/-- Storage holds the dataset and the pins of the history. -/
structure PinsMatch (history : History) (s : Storage) : Prop where
  leafCount : history.leafCount = s.leafCount
  fits : s.leafCount < 2 ^ 64
  peaks : s.peaks = firstPeaks keccak256 stream s.leafCount
  providers : ∀ id, ProviderPins keccak256 stream s.leafCount (history.exitCount id)
    (history.commitCount id) (s.providers id)
  challenges : ∀ challengeId < s.nextChallengeId,
    ChallengePin keccak256 stream s.leafCount (history.pinCount challengeId)
      (s.challengeRecords challengeId)

end

section

variable {keccak256 : ByteString → Hash} {stream : Nat → Chunk}
variable {dep : Deployment} {block : Block} {msg : Msg}

theorem HonestDeclarations.nil :
    HonestDeclarations keccak256 stream [] := by
  intro before _ _ _ _ _ _ _ _ hempty
  cases before with
  | nil => cases hempty
  | cons => cases hempty

theorem HonestDeclarations.concat
    {log : List (Nat × Event)} {entry : Nat × Event}
    (hhonest : HonestDeclarations keccak256 stream log)
    (hentry : ∀ nonce n1 hashes roots pointer carrier,
      entry.2 = .declared nonce n1 hashes roots pointer carrier →
      Reference.updateSubtreeRoots keccak256 (History.replay log).leafCount
        (chunksFrom stream (History.replay log).leafCount
          (n1 - (History.replay log).leafCount)) = .ok roots) :
    HonestDeclarations keccak256 stream (log ++ [entry]) := by
  intro before time after nonce n1 hashes roots pointer carrier hlog
  rcases List.eq_nil_or_concat after with rfl | ⟨rest, last, rfl⟩
  · obtain ⟨rfl, heq⟩ := List.append_inj' hlog rfl
    exact hentry nonce n1 hashes roots pointer carrier (by rw [(List.cons.inj heq).1])
  · rw [List.concat_eq_append, ← List.cons_append, ← List.append_assoc] at hlog
    obtain ⟨rfl, _⟩ := List.append_inj' hlog rfl
    exact hhonest before time rest nonce n1 hashes roots pointer carrier rfl

theorem HonestDeclarations.of_append {log extra : List (Nat × Event)}
    (hhonest : HonestDeclarations keccak256 stream (log ++ extra)) :
    HonestDeclarations keccak256 stream log := by
  rintro before time after nonce n1 hashes roots pointer carrier rfl
  refine hhonest before time (after ++ extra) nonce n1 hashes roots pointer carrier ?_
  rw [List.append_assoc, List.cons_append]

/-! ## One call -/

namespace ProviderPins

variable {leafCount : Nat} {exit commit : Option Nat} {p next : Provider}

theorem grow {larger : Nat} (hpins : ProviderPins keccak256 stream leafCount exit commit p)
    (hle : leafCount ≤ larger) : ProviderPins keccak256 stream larger exit commit p := by
  refine ⟨hpins.staying, hpins.leaving, ?_, ?_⟩
  · intro n hexit
    obtain ⟨hpin, hn⟩ := hpins.exitPin n hexit
    exact ⟨hpin, hn.trans hle⟩
  · intro hcommit
    obtain ⟨n, hn, hpin, hle'⟩ := hpins.commitPin hcommit
    exact ⟨n, hn, hpin, hle'.trans hle⟩

/-- The pins stay while the status does not start to leave. -/
theorem kept (hpins : ProviderPins keccak256 stream leafCount exit commit p)
    (hstaying : next.status = .none ∨ next.status = .active → p.status = .none ∨ p.status = .active)
    (hleaving : next.status = .unbonding ∨ next.status = .exited →
      p.status = .unbonding ∨ p.status = .exited)
    (hexit : (next.exitRoot, next.exitLeafCount) = (p.exitRoot, p.exitLeafCount))
    (hperiod : next.commitPeriodPlusOne = p.commitPeriodPlusOne)
    (hcommit : (next.commitRoot, next.commitLeafCount) = (p.commitRoot, p.commitLeafCount)) :
    ProviderPins keccak256 stream leafCount exit commit next := by
  refine ⟨fun hstatus => hpins.staying (hstaying hstatus),
    fun hstatus => hpins.leaving (hleaving hstatus), ?_, ?_⟩
  · rw [hexit]
    exact hpins.exitPin
  · rw [hperiod, hcommit]
    exact hpins.commitPin

end ProviderPins

namespace PinsMatch

variable {history : History} {s : Storage}

/-- One provider changes, and with it its own counts. -/
theorem setProvider (hpins : PinsMatch keccak256 stream history s) {id : Nat} {p : Provider}
    {exitCount commitCount : Nat → Option Nat}
    (hexit : ∀ other, other ≠ id → exitCount other = history.exitCount other)
    (hcommit : ∀ other, other ≠ id → commitCount other = history.commitCount other)
    (hp : ProviderPins keccak256 stream s.leafCount (exitCount id) (commitCount id) p) :
    PinsMatch keccak256 stream
      { history with exitCount := exitCount, commitCount := commitCount } (s.setProvider id p) := by
  refine ⟨hpins.leafCount, hpins.fits, hpins.peaks, ?_, hpins.challenges⟩
  intro other
  rw [Storage.setProvider_providers, Function.update_apply]
  split
  · rename_i heq
    rw [heq]
    exact hp
  · rename_i hne
    simp only [hexit other hne, hcommit other hne]
    exact hpins.providers other

/-- Storage that differs only where no pin is looks the same. -/
theorem of_same (hpins : PinsMatch keccak256 stream history s) {next : Storage}
    (hleafCount : next.leafCount = s.leafCount) (hpeaks : next.peaks = s.peaks)
    (hproviders : next.providers = s.providers)
    (hnext : next.nextChallengeId = s.nextChallengeId)
    (hchallenges : next.challengeRecords = s.challengeRecords) :
    PinsMatch keccak256 stream history next := by
  constructor
  · rw [hleafCount]
    exact hpins.leafCount
  · rw [hleafCount]
    exact hpins.fits
  · rw [hleafCount, hpeaks]
    exact hpins.peaks
  · rw [hleafCount, hproviders]
    exact hpins.providers
  · rw [hleafCount, hnext, hchallenges]
    exact hpins.challenges

/-- The status of one provider moves, without starting to leave. -/
theorem keepProvider (hpins : PinsMatch keccak256 stream history s) {id : Nat} {p : Provider}
    (hstaying : p.status = .none ∨ p.status = .active →
      (s.providers id).status = .none ∨ (s.providers id).status = .active)
    (hleaving : p.status = .unbonding ∨ p.status = .exited →
      (s.providers id).status = .unbonding ∨ (s.providers id).status = .exited)
    (hexit : (p.exitRoot, p.exitLeafCount) =
      ((s.providers id).exitRoot, (s.providers id).exitLeafCount))
    (hperiod : p.commitPeriodPlusOne = (s.providers id).commitPeriodPlusOne)
    (hcommit : (p.commitRoot, p.commitLeafCount) =
      ((s.providers id).commitRoot, (s.providers id).commitLeafCount)) :
    PinsMatch keccak256 stream history (s.setProvider id p) :=
  hpins.setProvider (fun _ _ => rfl) (fun _ _ => rfl)
    ((hpins.providers id).kept hstaying hleaving hexit hperiod hcommit)

/-- Resolving a challenge leaves every pin. -/
theorem resolve (hpins : PinsMatch keccak256 stream history s) {challengeId : Nat}
    {status : ProviderStatus}
    (hstaying : status = .none ∨ status = .active →
      (s.providers (s.challengeRecords challengeId).providerId).status = .none ∨
        (s.providers (s.challengeRecords challengeId).providerId).status = .active)
    (hleaving : status = .unbonding ∨ status = .exited →
      (s.providers (s.challengeRecords challengeId).providerId).status = .unbonding ∨
        (s.providers (s.challengeRecords challengeId).providerId).status = .exited) :
    PinsMatch keccak256 stream history (s.resolve challengeId status) := by
  have hrecord : PinsMatch keccak256 stream history (s.setChallenge challengeId
      { s.challengeRecords challengeId with resolved := true }) := by
    refine ⟨hpins.leafCount, hpins.fits, hpins.peaks, hpins.providers, ?_⟩
    intro other hlt
    change ChallengePin keccak256 stream s.leafCount (history.pinCount other)
      (Function.update s.challengeRecords challengeId _ other)
    rw [Function.update_apply]
    split
    · rename_i heq
      subst heq
      exact hpins.challenges other hlt
    · exact hpins.challenges other hlt
  exact hrecord.keepProvider hstaying hleaving rfl rfl rfl

theorem declare (hpins : PinsMatch keccak256 stream history s) {next : Storage}
    (hsame : s.SameProviders next) (hgrows : s.leafCount ≤ next.leafCount)
    (hfits : next.leafCount < 2 ^ 64)
    (hpeaks : next.peaks = firstPeaks keccak256 stream next.leafCount) :
    PinsMatch keccak256 stream { history with leafCount := next.leafCount } next := by
  refine ⟨rfl, hfits, hpeaks, ?_, ?_⟩
  · intro id
    rw [hsame.providers]
    exact (hpins.providers id).grow hgrows
  · intro challengeId hlt
    rw [hsame.nextChallengeId] at hlt
    obtain ⟨n, hn, hpin, hle⟩ := hpins.challenges challengeId hlt
    rw [hsame.challengeRecords]
    exact ⟨n, hn, hpin, hle.trans hgrows⟩

theorem challenged (hpins : PinsMatch keccak256 stream history s) {c : Challenge} {n : Nat}
    (hpin : (c.pinnedRoot, c.pinnedLeafCount) = pinAt keccak256 stream n) (hle : n ≤ s.leafCount) :
    PinsMatch keccak256 stream
      { history with pinCount := Function.update history.pinCount s.nextChallengeId (some n) }
      (s.addChallenge c) := by
  have hrecord : PinsMatch keccak256 stream
      { history with pinCount := Function.update history.pinCount s.nextChallengeId (some n) }
      { s.setChallenge s.nextChallengeId c with nextChallengeId := s.nextChallengeId + 1 } := by
    refine ⟨hpins.leafCount, hpins.fits, hpins.peaks, hpins.providers, ?_⟩
    intro other hlt
    change other < s.nextChallengeId + 1 at hlt
    change ChallengePin keccak256 stream s.leafCount
      (Function.update history.pinCount s.nextChallengeId (some n) other)
      (Function.update s.challengeRecords s.nextChallengeId c other)
    rw [Function.update_apply, Function.update_apply]
    split
    · exact ⟨n, rfl, hpin, hle⟩
    · exact hpins.challenges other (by omega)
  exact hrecord.keepProvider id id rfl rfl rfl

/-- The bagged root of the dataset as it is. -/
theorem snapshot (hpins : PinsMatch keccak256 stream history s) :
    (MMR.bagRoot keccak256 s.leafCount s.peaks, s.leafCount) = pinAt keccak256 stream s.leafCount := by
  rw [hpins.peaks]
  rfl

theorem declareFor (hpins : PinsMatch keccak256 stream history s) {d : Declaration}
    {publisherSig : ByteString} {openings : List BlobOpening} {equivalenceProof : ByteString}
    {out : Outcome} (hfits : d.newLeafCount < 2 ^ 64)
    (haccepted : DeclareAccepted keccak256 dep block msg s d publisherSig openings equivalenceProof
      out) (hsame : s.SameProviders out.storage)
    (hhonest : ∀ nonce n1 hashes roots pointer carrier,
      Event.declared nonce n1 hashes roots pointer carrier ∈ out.events →
      Reference.updateSubtreeRoots keccak256 s.leafCount
        (chunksFrom stream s.leafCount (n1 - s.leafCount)) = .ok roots) :
    PinsMatch keccak256 stream (out.events.foldl History.record history) out.storage := by
  have hgrows := haccepted.grows
  have hsum : s.leafCount + (d.newLeafCount - s.leafCount) = d.newLeafCount := by omega
  have hlen : s.peaks.length = (Reference.peakHeights s.leafCount).length := by
    rw [hpins.peaks, firstPeaks_length]
  obtain ⟨hcount, _, hevents, _, happly⟩ := haccepted.counted hlen hfits
  have hroots := hhonest _ _ _ _ _ _ (by rw [hevents]; exact List.mem_cons_self)
  rw [hpins.peaks, applyUpdate_firstPeaks keccak256 stream (by omega) (by omega) hroots,
    hsum] at happly
  have hpeaks := (Prod.mk.inj (Except.ok.inj happly)).1
  have hnext : out.events.foldl History.record history =
      { history with leafCount := out.storage.leafCount } := by
    rw [hevents, hcount]
    rfl
  rw [hnext]
  exact hpins.declare hsame (by omega) (by omega) (by rw [hcount, hpeaks])

/-- A challenge pins the dataset as it is, or what its leaving provider owes. -/
theorem challengePin (hpins : PinsMatch keccak256 stream history s) {id leafCount : Nat} {root : Hash}
    (hpin : challengePin keccak256 dep block s (s.providers id) = .ok (root, leafCount)) :
    ∃ n, (history.exitCount id).getD history.leafCount = n ∧
      (root, leafCount) = pinAt keccak256 stream n ∧ n ≤ s.leafCount := by
  have hprovider := hpins.providers id
  rcases challengePin_eq_ok hpin with ⟨hactive, rfl, rfl⟩ | ⟨hunbonding, _, rfl, rfl⟩
  · refine ⟨s.leafCount, ?_, hpins.snapshot, le_rfl⟩
    rw [hprovider.staying (Or.inr hactive)]
    exact hpins.leafCount
  · obtain ⟨n, hexit⟩ := hprovider.leaving (Or.inl hunbonding)
    obtain ⟨hexitPin, hle⟩ := hprovider.exitPin n hexit
    refine ⟨n, ?_, hexitPin, hle⟩
    rw [hexit]
    rfl

/-- A provider that starts to leave owes the dataset as it is. -/
theorem unbond (hpins : PinsMatch keccak256 stream history s) {id : Nat} {p : Provider}
    (hstatus : p.status = .unbonding) (hvoid : p.commitPeriodPlusOne = 0)
    (hexit : (p.exitRoot, p.exitLeafCount) =
      (MMR.bagRoot keccak256 s.leafCount s.peaks, s.leafCount)) :
    PinsMatch keccak256 stream
      { history with
        exitCount := Function.update history.exitCount id (some history.leafCount)
        commitCount := Function.update history.commitCount id none } (s.setProvider id p) := by
  refine hpins.setProvider (fun other hne => Function.update_of_ne hne _ _)
    (fun other hne => Function.update_of_ne hne _ _) ?_
  rw [Function.update_self, Function.update_self]
  refine ⟨?_, fun _ => ⟨_, rfl⟩, ?_, fun hcommit => absurd hvoid hcommit⟩
  · rw [hstatus]
    rintro (hnone | hactive)
    · cases hnone
    · cases hactive
  · intro n hn
    obtain rfl := Option.some.inj hn
    rw [hpins.leafCount, hexit]
    exact ⟨hpins.snapshot, le_rfl⟩

/-- The commit of a provider moves, and nothing else of it that is pinned. -/
theorem recommit (hpins : PinsMatch keccak256 stream history s) {id : Nat} {p : Provider}
    {count : Option Nat} (hstatus : p.status = (s.providers id).status)
    (hexit : (p.exitRoot, p.exitLeafCount) =
      ((s.providers id).exitRoot, (s.providers id).exitLeafCount))
    (hcommit : p.commitPeriodPlusOne ≠ 0 → ∃ n, count = some n ∧
      (p.commitRoot, p.commitLeafCount) = pinAt keccak256 stream n ∧ n ≤ s.leafCount) :
    PinsMatch keccak256 stream
      { history with commitCount := Function.update history.commitCount id count }
      (s.setProvider id p) := by
  refine hpins.setProvider (fun other hne => rfl)
    (fun other hne => Function.update_of_ne hne _ _) ?_
  rw [Function.update_self]
  refine ⟨?_, ?_, ?_, hcommit⟩
  · rw [hstatus]
    exact (hpins.providers id).staying
  · rw [hstatus]
    exact (hpins.providers id).leaving
  · rw [hexit]
    exact (hpins.providers id).exitPin

/-- Storage follows the history over every accepted call, if its declaration is honest. -/
theorem change (hpins : PinsMatch keccak256 stream history s) (hwf : s.WellFormed) {call : Call}
    {out : Outcome} (hchange : Change keccak256 dep block msg s call out)
    (hrange : call.inRange = true)
    (hhonest : ∀ nonce n1 hashes roots pointer carrier,
      Event.declared nonce n1 hashes roots pointer carrier ∈ out.events →
      Reference.updateSubtreeRoots keccak256 s.leafCount
        (chunksFrom stream s.leafCount (n1 - s.leafCount)) = .ok roots) :
    PinsMatch keccak256 stream (out.events.foldl History.record history) out.storage := by
  have hstays : ¬(ProviderStatus.slashed = .none ∨ ProviderStatus.slashed = .active) := by decide
  have hleaves : ¬(ProviderStatus.slashed = .unbonding ∨ ProviderStatus.slashed = .exited) := by
    decide
  cases hchange with
  | declared _ haccepted hsame =>
      simp only [Call.inRange, Bool.and_eq_true, decide_eq_true_eq] at hrange
      exact hpins.declareFor hrange.2 haccepted hsame hhonest
  | pointed _ haccepted =>
      have hsame := haccepted.same
      have hkept : out.events.foldl History.record history = history := by
        rcases haccepted.events with ⟨_, _, hevents⟩ | ⟨_, hevents⟩
        · rw [hevents]
          rfl
        · rw [hevents]
          rfl
      rw [hkept]
      exact hpins.of_same haccepted.leafCount haccepted.peaks hsame.providers hsame.nextChallengeId
        hsame.challengeRecords
  | noted _ hevent =>
      rcases hevent with ⟨url, _, rfl⟩ | ⟨_, rfl⟩
      · exact hpins
      · exact hpins
  | claimed => exact hpins.of_same rfl rfl rfl rfl rfl
  | @staked operator withdrawal =>
      have hadded : PinsMatch keccak256 stream history (s.setProvider s.nextProviderId
          { s.providers s.nextProviderId with
            operator := operator
            withdrawal := withdrawal
            status := .active
            anchor := block.timestamp % 2 ^ 64 }) := by
        refine hpins.keepProvider ?_ ?_ rfl rfl rfl
        · intro _
          rw [hwf.unassigned _ le_rfl]
          exact Or.inl rfl
        · rintro (hstatus | hstatus)
          · cases hstatus
          · cases hstatus
      exact hadded.of_same rfl rfl rfl rfl rfl
  | unbonded => exact hpins.unbond rfl rfl rfl
  | withdrawn _ hstatus =>
      refine hpins.keepProvider ?_ ?_ rfl rfl rfl
      · rintro (hnone | hactive)
        · cases hnone
        · cases hactive
      · intro _
        exact Or.inl hstatus
  | committed =>
      refine hpins.recommit rfl rfl ?_
      exact fun _ => ⟨_, rfl, hpins.leafCount.symm ▸ hpins.snapshot, hpins.leafCount.le⟩
  | proven => exact hpins.recommit rfl rfl fun hcommit => absurd rfl hcommit
  | lapsed =>
      exact hpins.keepProvider (fun hstatus => absurd hstatus hstays)
        (fun hstatus => absurd hstatus hleaves) rfl rfl rfl
  | challenged _ hpin =>
      obtain ⟨n, hcount, hpinned, hle⟩ := hpins.challengePin hpin
      rw [← hcount] at hpinned hle
      exact hpins.challenged hpinned hle
  | answered => exact hpins.resolve id id
  | timedOut =>
      exact hpins.resolve (fun hstatus => absurd hstatus hstays)
        fun hstatus => absurd hstatus hleaves
  | refunded =>
      exact hpins.resolve (fun hstatus => absurd hstatus hstays)
        fun hstatus => absurd hstatus hleaves

end PinsMatch

/-- A declaration is the only event of its call. -/
theorem Change.declared_alone {s : Storage} {call : Call} {out : Outcome}
    (hchange : Change keccak256 dep block msg s call out) {nonce n1 : Nat} {hashes roots : List Hash}
    {pointer : Hash} {carrier : Address}
    (hmem : Event.declared nonce n1 hashes roots pointer carrier ∈ out.events) :
    out.events = [.declared nonce n1 hashes roots pointer carrier] := by
  cases hchange with
  | declared _ haccepted =>
      obtain ⟨_, _, _, _, _, _, _, _, hevents⟩ := haccepted.subtreeCount
      rw [hevents, List.mem_singleton] at hmem
      rw [hevents, hmem]
  | pointed _ haccepted =>
      rcases haccepted.events with ⟨_, _, hevents⟩ | ⟨_, hevents⟩
      · rw [hevents] at hmem
        cases List.mem_singleton.mp hmem
      · rw [hevents] at hmem
        cases List.mem_singleton.mp hmem
  | noted _ hevent =>
      rcases hevent with ⟨url, _, rfl⟩ | ⟨_, rfl⟩
      · cases List.mem_singleton.mp hmem
      · cases List.mem_singleton.mp hmem
  | timedOut =>
      rcases List.mem_cons.mp hmem with hfirst | hsecond
      · cases hfirst
      · cases List.mem_singleton.mp hsecond
  | claimed => cases hmem
  | _ => cases List.mem_singleton.mp hmem

theorem pins_invariant : StoreInvariant keccak256 dep fun _ s log _ => s.WellFormed ∧
    (HonestDeclarations keccak256 stream log →
      PinsMatch keccak256 stream (History.replay log) s) where
  change hpins houtside hrange hchange := by
    obtain ⟨hwf, hmatch⟩ := hpins
    refine ⟨hchange.wellFormed houtside hwf, fun hhonest => ?_⟩
    have hbefore := hmatch hhonest.of_append
    rw [History.replay_append_events]
    refine hbefore.change hwf hchange hrange ?_
    intro nonce n1 hashes roots pointer carrier hmem
    rw [hchange.declared_alone hmem] at hhonest
    have hroots := hhonest _ _ [] nonce n1 hashes roots pointer carrier rfl
    rwa [hbefore.leafCount] at hroots
  quiet _ _ hpins htransfer := by
    obtain ⟨hwf, hmatch⟩ := hpins
    refine ⟨hwf.of_same rfl rfl rfl rfl, fun hhonest => ?_⟩
    rw [History.replay_append_transfers _ htransfer]
    exact (hmatch hhonest.of_append).of_same rfl rfl rfl rfl rfl
  advance hpins _ := hpins

theorem deployed_pinsMatch (block : Block) :
    PinsMatch keccak256 stream .initial (Chain.deployed dep block).store := by
  refine ⟨rfl, show 0 < 2 ^ 64 by decide, (firstPeaks_zero keccak256 stream).symm, ?_, ?_⟩
  · intro id
    refine ⟨fun _ => rfl, ?_, ?_, ?_⟩
    · rintro (hstatus | hstatus)
      · cases hstatus
      · cases hstatus
    · intro n hexit
      cases hexit
    · intro hcommit
      exact absurd rfl hcommit
  · intro challengeId hlt
    exact absurd hlt (Nat.not_lt_zero _)

theorem Reachable.pinsMatch {world : World} (hreach : Reachable keccak256 dep world)
    (hhonest : HonestDeclarations keccak256 stream world.state.log) :
    PinsMatch keccak256 stream (History.replay world.state.log) world.state.store := by
  refine (hreach.holds pins_invariant.preserves ?_).state.2 hhonest
  intro block
  exact ⟨(deployed_distributed block).wellFormed, fun _ => deployed_pinsMatch block⟩

end

end Blobsitter.Contract
