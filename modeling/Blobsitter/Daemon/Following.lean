import Blobsitter.Daemon.DeclaredScan
import Blobsitter.Daemon.Mirroring
import Mathlib.Logic.Relation

/-!
# Following the declarations

What the scan of the declarations meets: pages that leave logs out, calls that fail, blobs
that no source has, and a process that dies; or a tick in which none of this happens.  After
any of it the store and its files are at the frontier of the first declarations.
-/

namespace Blobsitter.Daemon

open Library
open Reference (Chunk Hash Mmr)
open Contract (declarations leafCountAfter firstPeaks DeclaredRecord Reachable Deployment World
  Storage)
open Relation (ReflTransGen)

/-- The `Declared` logs of the instance in the order of the blocks. -/
structure DeclaredHistory (config : ScanConfig) (ds : List (Nat × DeclaredRecord))
    (history : List Log) : Prop where
  ordered : Ordered Log.block history
  deployed : ∀ log ∈ history, config.scanFloor < log.block
  records : List.Forall₂ (fun log d => log.event.declaration = some d.2) history ds

section

variable (keccak256 : ByteString → Hash) (versionedHash : RawBlob → Except VerifyError Hash)
variable (published : Nat → List RawBlob) (config : ScanConfig) (codec : Codec Frontier)
variable (history : List Log)

/-- The follower on a data directory that was empty. -/
def DeclaredScan.Starts (s : DeclaredScan) : Prop :=
  ∃ disk store left, disk (.state .frontier) = none ∧ ChunkFile.data disk = [] ∧
    Store.open codec disk = .ok (store, left) ∧
    s = ⟨⟨store, left⟩, none, config.scanFloor, config.logPage, .idle⟩

/-- What the scan may meet.  A page leaves out any logs; the process dies inside the commit of
the event that is owed, or between any two steps. -/
def DeclaredScan.Possible (s : DeclaredScan) : DeclaredInput → Prop
  | .page (.ok logs) => ∀ finalized, s.phase = .paging finalized →
      logs.Sublist (between Log.block history s.cursor (s.pageEnd finalized))
  | .crash left => ∃ finalized to_ log rest timestamp event sources,
      s.phase = .dispatching finalized to_ (log :: rest) ∧ log.declaredEvent timestamp = some event ∧
      event.nonce = s.ingestor.store.frontier.nonce ∧
      Interrupted keccak256 versionedHash codec sources s.ingestor.store s.ingestor.disk event left
  | _ => True

/-- What it meets while every answer is complete, every blob is served and every write
completes. -/
inductive DeclaredScan.Healthy (s : DeclaredScan) : DeclaredInput → Prop where
  | page {finalized : Nat} (hphase : s.phase = .paging finalized) :
      Healthy s (.page (.ok (between Log.block history s.cursor (s.pageEnd finalized))))
  | dispatch {finalized to_ timestamp : Nat} {log : Log} {rest : List Log} {event : DeclaredEvent}
      {sources : List BlobSource} (hphase : s.phase = .dispatching finalized to_ (log :: rest))
      (hevent : log.declaredEvent timestamp = some event)
      (hserved : Supplies versionedHash sources event (published event.nonce)) :
      Healthy s (.dispatch timestamp sources .completes)
  | pageDone : Healthy s (.pageDone .completes)
  | done : Healthy s .done

def DeclaredScan.FaultStep (s next : DeclaredScan) : Prop :=
  ∃ input, s.Possible keccak256 versionedHash codec history input ∧
    s.step keccak256 versionedHash config codec input = some next

def DeclaredScan.HealthyStep (s next : DeclaredScan) : Prop :=
  ∃ input, s.Healthy versionedHash published history input ∧
    s.step keccak256 versionedHash config codec input = some next

/-- A whole tick in which nothing fails. -/
def DeclaredScan.HealthyTick (finalized : Nat) (s next : DeclaredScan) : Prop :=
  ∃ currentPage paged,
    s.step keccak256 versionedHash config codec (.tick finalized currentPage) = some paged ∧
    ReflTransGen (HealthyStep keccak256 versionedHash published config codec history) paged next ∧
    next.phase = .idle

/-- Nonce, leaf count and root of the store are the contract's. -/
def Store.Agrees (store : Store) (s : Storage) : Prop :=
  store.frontier.nonce = s.declarationNonce ∧ ∃ mmr, store.mmr = .ok mmr ∧
    mmr.leafCount = s.leafCount ∧
    mmr.root keccak256 = Contract.MMR.bagRoot keccak256 s.leafCount s.peaks

end

section

variable {keccak256 : ByteString → Hash} {versionedHash : RawBlob → Except VerifyError Hash}
variable {stream : Nat → Chunk} {published : Nat → List RawBlob} {config : ScanConfig}
variable {codec : Codec Frontier} {ds : List (Nat × DeclaredRecord)} {history : List Log}
variable {s next : DeclaredScan} {store : Storage} {k finalized : Nat}

theorem Log.announces {log : Log} {d : DeclaredRecord} {timestamp : Nat} {event : DeclaredEvent}
    (hrecord : log.event.declaration = some d) (hevent : log.declaredEvent timestamp = some event) :
    Announces event d := by
  obtain ⟨block, logged⟩ := log
  cases logged <;> cases hrecord
  unfold declaredEvent at hevent
  simp only at hevent
  split at hevent
  · obtain rfl := Option.some.inj hevent
    exact ⟨rfl, rfl, rfl, rfl⟩
  · cases hevent

theorem Log.declaredEvent_some {log : Log} {d : DeclaredRecord}
    (hrecord : log.event.declaration = some d) (hfits : d.newLeafCount < 2 ^ 64) (timestamp : Nat) :
    ∃ event, log.declaredEvent timestamp = some event := by
  obtain ⟨block, logged⟩ := log
  cases logged <;> cases hrecord
  unfold declaredEvent
  simp only
  rw [dif_pos hfits]
  exact ⟨_, rfl⟩

namespace DeclaredHistory

theorem length_eq (hhistory : DeclaredHistory config ds history) : history.length = ds.length :=
  hhistory.records.length_eq

theorem record (hhistory : DeclaredHistory config ds history) {log : Log} {j : Nat}
    (hlog : history[j]? = some log) :
    ∃ d, ds[j]? = some d ∧ log.event.declaration = some d.2 := by
  obtain ⟨hj, rfl⟩ := List.getElem?_eq_some_iff.mp hlog
  have hj' : j < ds.length := by rwa [← hhistory.length_eq]
  exact ⟨_, List.getElem?_eq_getElem hj', (List.forall₂_iff_get.mp hhistory.records).2 j hj hj'⟩

theorem upTo_scanFloor (hhistory : DeclaredHistory config ds history) :
    upTo Log.block history config.scanFloor = 0 := by
  rw [upTo, List.length_eq_zero_iff, List.filter_eq_nil_iff]
  intro log hmem hle
  exact absurd (of_decide_eq_true hle) (Nat.not_le_of_lt (hhistory.deployed log hmem))

end DeclaredHistory

/-! ## Fault histories -/

/-- What every step keeps: the ingestor and its files are at some of the declarations. -/
structure Follows (keccak256 : ByteString → Hash) (stream : Nat → Chunk) (codec : Codec Frontier)
    (ds : List (Nat × DeclaredRecord)) (history : List Log) (s : DeclaredScan) : Prop where
  reopens : Reopens keccak256 stream codec ds s.ingestor.disk
  mirroring : s.phase ≠ .dead → ∃ k, Mirroring keccak256 stream codec ds k s.ingestor
  logs : ∀ finalized to_ logs, s.phase = .dispatching finalized to_ logs →
    ∀ log ∈ logs, log ∈ history

namespace Follows

/-- The same files, and no page at hand. -/
theorem of_ingestor (hfollows : Follows keccak256 stream codec ds history s)
    (halive : s.phase ≠ .dead) (hsame : next.ingestor = s.ingestor)
    (hquiet : ∀ finalized to_ logs, next.phase ≠ .dispatching finalized to_ logs) :
    Follows keccak256 stream codec ds history next := by
  refine ⟨?_, ?_, fun finalized to_ logs hphase => absurd hphase (hquiet finalized to_ logs)⟩
  · rw [hsame]
    exact hfollows.reopens
  · intro _
    rw [hsame]
    exact hfollows.mirroring halive

theorem starts (hstarts : s.Starts config codec)
    (hreads : ReadsFrontiers keccak256 stream codec ds) :
    Follows keccak256 stream codec ds history s := by
  obtain ⟨disk, store, left, hfresh, hempty, hopen, rfl⟩ := hstarts
  have hopened : History keccak256 (fun _ => .ok (.replicate 32 0)) codec [] left store :=
    .opened hfresh hempty hopen
  have hsettled : Settled codec true store left := hopened.settled
  have hmirroring : Mirroring keccak256 stream codec ds 0 ⟨store, left⟩ := by
    refine ⟨Nat.zero_le _, ?_, hsettled⟩
    rw [hsettled.initial rfl, mirrored, List.take_zero]
    change _ = Frontier.mk 0 0 (firstPeaks keccak256 stream 0)
    rw [Contract.firstPeaks_zero]
    rfl
  refine ⟨hmirroring.reopens hreads, fun _ => ⟨0, hmirroring⟩, ?_⟩
  intro _ _ _ hphase
  cases hphase

/-- The log at the head of a page announces one of the declarations. -/
theorem head (hfollows : Follows keccak256 stream codec ds history s)
    (hhistory : DeclaredHistory config ds history) {finalized to_ timestamp : Nat} {log : Log}
    {rest : List Log} {event : DeclaredEvent}
    (hphase : s.phase = .dispatching finalized to_ (log :: rest))
    (hevent : log.declaredEvent timestamp = some event) :
    ∃ (j : Nat) (d : Nat × DeclaredRecord) (k : Nat), ds[j]? = some d ∧ Announces event d.2 ∧
      Mirroring keccak256 stream codec ds k s.ingestor := by
  have hmem := hfollows.logs finalized to_ _ hphase log List.mem_cons_self
  obtain ⟨j, hlog⟩ := List.getElem?_of_mem hmem
  obtain ⟨d, hd, hrecord⟩ := hhistory.record hlog
  have halive : s.phase ≠ .dead := by
    rw [hphase]
    simp
  obtain ⟨k, hmirroring⟩ := hfollows.mirroring halive
  exact ⟨j, d, k, hd, Log.announces hrecord hevent, hmirroring⟩

section

variable (hfollows : Follows keccak256 stream codec ds history s)
variable (hdeclared : Contract.Declared keccak256 store ds)
variable (hcanonical : CanonicalLog keccak256 versionedHash stream published ds)
variable (hreads : ReadsFrontiers keccak256 stream codec ds)
variable (hhistory : DeclaredHistory config ds history)

include hfollows hdeclared hcanonical hreads hhistory

theorem dispatch {finalized to_ timestamp : Nat} {log : Log} {rest : List Log}
    {event : DeclaredEvent} (hphase : s.phase = .dispatching finalized to_ (log :: rest))
    (hevent : log.declaredEvent timestamp = some event) (sources : List BlobSource)
    (rewind : CursorWrite) :
    Follows keccak256 stream codec ds history (s.dispatchDeclared keccak256 versionedHash config codec
      finalized to_ rest event sources rewind) := by
  obtain ⟨j, d, k, hd, hannounces, hmirroring⟩ := hfollows.head hhistory hphase hevent
  obtain ⟨k', hnext⟩ := @Mirroring.call_some keccak256 versionedHash stream published codec ds k
    s.ingestor ⟨event, sources⟩ d store j hmirroring hdeclared hd hannounces hcanonical
  rw [← DeclaredScan.dispatchDeclared_ingestor] at hnext
  refine ⟨hnext.reopens hreads, fun _ => ⟨k', hnext⟩, ?_⟩
  intro _ _ _ hdispatching other hmem
  rcases DeclaredScan.dispatchDeclared_phase with hrest | hidle | hdead
  · rw [hrest] at hdispatching
    obtain ⟨rfl, rfl, rfl⟩ := ScanPhase.dispatching.inj hdispatching
    exact hfollows.logs finalized to_ _ hphase other (List.mem_cons_of_mem log hmem)
  · rw [hidle] at hdispatching
    cases hdispatching
  · rw [hdead] at hdispatching
    cases hdispatching

theorem crash {finalized to_ timestamp : Nat} {log : Log} {rest : List Log}
    {event : DeclaredEvent} {sources : List BlobSource} {left : Disk DataFile}
    (hphase : s.phase = .dispatching finalized to_ (log :: rest))
    (hevent : log.declaredEvent timestamp = some event)
    (howed : event.nonce = s.ingestor.store.frontier.nonce)
    (hcrash : Interrupted keccak256 versionedHash codec sources s.ingestor.store s.ingestor.disk
      event left) :
    Follows keccak256 stream codec ds history
      { s with ingestor := ⟨s.ingestor.store, left⟩, phase := .dead } := by
  obtain ⟨j, d, k, hd, hannounces, hmirroring⟩ := hfollows.head hhistory hphase hevent
  rw [hmirroring.nonce_eq, hannounces.nonce, hdeclared.nonces j d hd] at howed
  subst howed
  refine ⟨hmirroring.crashed hreads hdeclared hcanonical hd hannounces hcrash,
    fun halive => absurd rfl halive, ?_⟩
  intro _ _ _ hdispatching
  cases hdispatching

theorem step (hstep : s.FaultStep keccak256 versionedHash config codec history next) :
    Follows keccak256 stream codec ds history next := by
  obtain ⟨input, hpossible, hstep⟩ := hstep
  cases input with
  | tick finalized currentPage =>
      obtain ⟨hphase, rfl⟩ := DeclaredScan.tick_eq_some hstep
      refine hfollows.of_ingestor (by rw [hphase]; simp) rfl ?_
      intro _ _ _ hdispatching
      cases hdispatching
  | page answer =>
      obtain ⟨finalized, hphase, _, ⟨logs, rfl, rfl⟩ | ⟨_, rfl⟩⟩ := DeclaredScan.page_eq_some hstep
      · refine ⟨hfollows.reopens, fun _ => hfollows.mirroring (by rw [hphase]; simp), ?_⟩
        rintro _ _ _ hdispatching log hmem
        obtain ⟨rfl, rfl, rfl⟩ := ScanPhase.dispatching.inj hdispatching
        have hbetween := (hpossible finalized hphase).subset hmem
        exact (List.mem_filter.mp hbetween).1
      · refine hfollows.of_ingestor (by rw [hphase]; simp) rfl ?_
        intro _ _ _ hdispatching
        cases hdispatching
  | dispatch timestamp sources rewind =>
      obtain ⟨finalized, to_, log, rest, event, hphase, hevent, rfl⟩ :=
        DeclaredScan.dispatch_eq_some hstep
      exact hfollows.dispatch hdeclared hcanonical hreads hhistory hphase hevent sources rewind
  | unreadable =>
      obtain ⟨halive, rfl⟩ := DeclaredScan.unreadable_eq_some hstep
      refine hfollows.of_ingestor halive rfl ?_
      intro _ _ _ hdispatching
      cases hdispatching
  | crash left =>
      obtain ⟨finalized, to_, log, rest, timestamp, event, sources, hphase, hevent, howed, hcrash⟩ :=
        hpossible
      obtain rfl := DeclaredScan.crash_eq_some hstep
      exact hfollows.crash hdeclared hcanonical hreads hhistory hphase hevent howed hcrash
  | pageDone write =>
      obtain ⟨finalized, to_, hphase, rfl⟩ := DeclaredScan.pageDone_eq_some hstep
      refine hfollows.of_ingestor (by rw [hphase]; simp) (DeclaredScan.setCursor_ingestor ..) ?_
      intro _ _ _ hdispatching
      rcases DeclaredScan.setCursor_phase s write to_ (.paging finalized) with hnext | hnext | hnext
      all_goals
        rw [hnext] at hdispatching
        cases hdispatching
  | done =>
      obtain ⟨finalized, _, hphase, rfl⟩ := DeclaredScan.done_eq_some hstep
      refine hfollows.of_ingestor (by rw [hphase]; simp) rfl ?_
      intro _ _ _ hdispatching
      cases hdispatching
  | restart =>
      obtain ⟨opened, left, cursor, hopen, _, rfl⟩ := DeclaredScan.restart_eq_some hstep
      obtain ⟨k, hmirroring⟩ := hfollows.reopens opened left hopen
      refine ⟨hmirroring.reopens hreads, fun _ => ⟨k, hmirroring⟩, ?_⟩
      intro _ _ _ hdispatching
      cases hdispatching

theorem run (hrun : ReflTransGen (DeclaredScan.FaultStep keccak256 versionedHash config codec history)
    s next) : Follows keccak256 stream codec ds history next := by
  induction hrun with
  | refl => exact hfollows
  | tail _ hstep ih => exact ih.step hdeclared hcanonical hreads hhistory hstep

end

end Follows

end

end Blobsitter.Daemon
