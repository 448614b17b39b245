import Blobsitter.Daemon.FeeEscalation
import Blobsitter.Daemon.Mirror
import Blobsitter.Daemon.Paging
import Blobsitter.Reference.Binding

/-!
# The root check

After each scan the follower holds its store against leaf count and root of the contract.
The check tells apart a store that is the published dataset from every other, whatever the
events were that filled it.
-/

namespace Blobsitter.Daemon

open Library
open Reference (Chunk Hash Mmr NoCollision rootPreimages streamPeaks)
open Contract (chunksFrom declarations Reachable Deployment World)

/-- The view calls at the finalized block. -/
structure RootAnswers where
  leafCount : Except String Nat
  root : Except String Hash

inductive RootCheckError where
  | rpc (message : String)
  | panicked (message : String)

def disagreement (finalized localCount : Nat) (localRoot : Hash) (chainCount : Nat)
    (chainRoot : Hash) : String :=
  "local store disagrees with L1 at finalized block " ++ finalized.repr ++ ": local (leafCount " ++
    localCount.repr ++ ", root " ++ hashText localRoot ++ ") vs chain (leafCount " ++
    chainCount.repr ++ ", root " ++ hashText chainRoot ++ ")"

/-- `check_root`: the alarms it raises.  A node behind the cursor is not compared with. -/
def checkRoot (keccak256 : ByteString → Hash) (cursor finalized : Nat) (store : Store)
    (answers : RootAnswers) : Except RootCheckError (List (Severity × String)) :=
  if finalized < cursor then .ok []
  else do
    let chainCount ← answers.leafCount.mapError .rpc
    let chainRoot ← answers.root.mapError .rpc
    let held ← store.mmr.mapError fun fault => .panicked fault.message
    if held.leafCount ≠ chainCount ∨ held.root keccak256 ≠ chainRoot then
      return [(.critical, disagreement finalized held.leafCount (held.root keccak256) chainCount
        chainRoot)]
    else return []

section

variable {keccak256 : ByteString → Hash} {versionedHash : RawBlob → Except VerifyError Hash}
variable {stream : Nat → Chunk} {published : Nat → List RawBlob} {codec : Codec Frontier}

/-- Answers that a node gives about a dataset. -/
def answersFor (keccak256 : ByteString → Hash) (dataset : List Chunk) : RootAnswers where
  leafCount := .ok dataset.length
  root := .ok (Reference.root keccak256 dataset.length (streamPeaks keccak256 dataset))

/-- Against the answers for a dataset the check is silent just when count and root of what the
store holds are the dataset's. -/
theorem checkRoot_silent_iff {accepted : Ingestor.Accepted} {ingestor : Ingestor}
    (hingested : Ingestor.Ingested keccak256 versionedHash accepted ingestor) {dataset : List Chunk}
    {cursor finalized : Nat} (hreached : cursor ≤ finalized) :
    ∃ alarms, checkRoot keccak256 cursor finalized ingestor.store (answersFor keccak256 dataset) =
        .ok alarms ∧
      (alarms = [] ↔ (Ingestor.stream accepted).length = dataset.length ∧
        Reference.root keccak256 (Ingestor.stream accepted).length
            (streamPeaks keccak256 (Ingestor.stream accepted)) =
          Reference.root keccak256 dataset.length (streamPeaks keccak256 dataset)) := by
  obtain ⟨held, hheld, hcommits⟩ := Mmr.fromState_streamPeaks keccak256 hingested.fits
  have hmmr : ingestor.store.mmr = .ok held := by
    rw [Store.mmr, hingested.frontier_eq, hheld]
    rfl
  have hroot : held.root keccak256 = Reference.root keccak256 (Ingestor.stream accepted).length
      (streamPeaks keccak256 (Ingestor.stream accepted)) := by
    rw [Mmr.root, hcommits.leafCount_eq, hcommits.peakList_eq keccak256 hingested.fits]
  unfold checkRoot
  rw [if_neg (Nat.not_lt.mpr hreached), hmmr]
  change ∃ alarms, (if held.leafCount ≠ dataset.length ∨ held.root keccak256 ≠ _ then
    Except.ok [_] else Except.ok []) = _ ∧ _
  rw [hcommits.leafCount_eq, hroot]
  split_ifs with hdiffers
  · refine ⟨_, rfl, ?_⟩
    constructor
    · intro hnone
      cases hnone
    · rintro ⟨hcount, hsame⟩
      rcases hdiffers with hother | hother
      · exact absurd hcount hother
      · exact absurd hsame hother
  · rw [not_or, not_not, not_not] at hdiffers
    exact ⟨[], rfl, fun _ => hdiffers, fun _ => rfl⟩

/-- The contract answers for the published dataset. -/
theorem contract_answers {dep : Deployment} {world : World} (hreach : Reachable keccak256 dep world)
    (hcanonical : CanonicalLog keccak256 versionedHash stream published
      (declarations world.state.log)) :
    answersFor keccak256 (chunksFrom stream 0 world.state.store.leafCount) =
      ⟨.ok world.state.store.leafCount, .ok (Contract.MMR.bagRoot keccak256
        world.state.store.leafCount world.state.store.peaks)⟩ := by
  have hdeclared := hreach.published.declared
  have hreplay := replayDeclarations_take hdeclared hcanonical (Nat.le_refl _)
  rw [List.take_length, hdeclared.replayed, hdeclared.latest] at hreplay
  obtain ⟨hpeaks, _⟩ := Prod.mk.inj (Except.ok.inj hreplay)
  unfold answersFor
  rw [Contract.chunksFrom_length, streamPeaks_chunksFrom, ← hpeaks]
  rfl

/-- Whatever events were delivered and whatever the sources served, the store reads as some
list of chunks.  A root check against the contract's state is silent if that list is the
published dataset, and only then, unless two strings hashed for the two roots collide. -/
theorem root_check_exact {dep : Deployment} {world : World} (hreach : Reachable keccak256 dep world)
    (hcanonical : CanonicalLog keccak256 versionedHash stream published
      (declarations world.state.log))
    {disk left : Disk DataFile} {store : Store} (hfresh : disk (.state .frontier) = none)
    (hempty : ChunkFile.data disk = []) (hopen : Store.open codec disk = .ok (store, left))
    (deliveries : List Delivery) {cursor finalized : Nat} (hreached : cursor ≤ finalized)
    {answers : RootAnswers} (hcount : answers.leafCount = .ok world.state.store.leafCount)
    (hroot : answers.root = .ok (Contract.MMR.bagRoot keccak256 world.state.store.leafCount
      world.state.store.peaks)) :
    let run := (Ingestor.deliver keccak256 versionedHash codec ⟨store, left⟩ deliveries).2
    let dataset := chunksFrom stream 0 world.state.store.leafCount
    ∃ held alarms, (∀ i chunk, run.store.chunk run.disk i = .ok chunk ↔ held[i]? = some chunk) ∧
      checkRoot keccak256 cursor finalized run.store answers = .ok alarms ∧
      (held = dataset → alarms = []) ∧
      (NoCollision keccak256 (rootPreimages keccak256 held) (rootPreimages keccak256 dataset) →
        alarms = [] → held = dataset) := by
  intro run dataset
  obtain ⟨accepted, _, hingested⟩ := @Ingestor.Ingested.deliver _ _ codec _ _ deliveries
    (Ingestor.Ingested.opened hfresh hempty hopen)
  rw [List.nil_append] at hingested
  have hanswers : answers = answersFor keccak256 dataset := by
    rw [contract_answers hreach hcanonical, ← hcount, ← hroot]
  obtain ⟨alarms, hchecked, hsilent⟩ :=
    @checkRoot_silent_iff keccak256 versionedHash accepted run hingested dataset _ _ hreached
  rw [← hanswers] at hchecked
  have hdataset : dataset.length < 2 ^ 64 := by
    rw [Contract.chunksFrom_length]
    exact hreach.published.declared.fits
  refine ⟨Ingestor.stream accepted, alarms, ?_, hchecked, ?_, ?_⟩
  · intro i chunk
    exact Store.chunk_eq_ok hingested.file (congrArg Frontier.leafCount hingested.frontier_eq)
  · intro hsame
    rw [hsilent, hsame]
    exact ⟨rfl, rfl⟩
  · intro hfree hnone
    exact Reference.stream_of_root hingested.fits hdataset hfree (hsilent.mp hnone).2

end

/-! ## One check -/

theorem freshStore_opened : Store.open sampleCodec (fun _ => none) = .ok (freshStore, freshDisk) :=
  Store.open_eq_ok.mpr ⟨none, rfl, rfl, rfl, fun _ => rfl, Nat.le_refl 0, rfl⟩

/-- The delivery of the declaration of one chunk. -/
def mirroringRun : List (Except IngestFault Bool) × Ingestor :=
  Ingestor.deliver Keccak.keccak256 declaredVersionedHash sampleCodec ⟨freshStore, freshDisk⟩
    [declaredDelivery]

theorem mirroringRun_eq : mirroringRun = Ingestor.deliver Keccak.keccak256 declaredVersionedHash
    sampleCodec ⟨freshStore, freshDisk⟩ [declaredDelivery] := rfl

theorem mirroringRun_mirrors : Mirrors Keccak.keccak256 declaredVersionedHash
    Contract.zeroStream (declarations Contract.declaredWorld.state.log) 1 mirroringRun.2 := by
  have hdelivered : Delivered declaredVersionedHash (fun _ => [zeroBlob])
      (declarations Contract.declaredWorld.state.log) 0 1 [declaredDelivery] := by
    rw [declaredWorld_declarations]
    exact .next rfl ⟨rfl, rfl, rfl, rfl⟩ (zeroSource_supplies rfl) .done
  have hopened := @Ingestor.Ingested.opened Keccak.keccak256 declaredVersionedHash sampleCodec _ _ _
    rfl rfl freshStore_opened
  have hempty : Mirrors Keccak.keccak256 declaredVersionedHash Contract.zeroStream
      (declarations Contract.declaredWorld.state.log) 0 ⟨freshStore, freshDisk⟩ :=
    ⟨[], rfl, by rw [List.take_zero]; rfl, hopened⟩
  have hmirrors := @Delivered.mirrors _ _ _ _ sampleCodec _ _ _ _ _
    Contract.declaredWorld_reachable.published.declared declaredWorld_canonical hdelivered _ hempty
  rw [mirroringRun_eq]
  exact hmirrors.2

def declaredAnswers : RootAnswers where
  leafCount := .ok Contract.declaredWorld.state.store.leafCount
  root := .ok (Contract.MMR.bagRoot Keccak.keccak256 Contract.declaredWorld.state.store.leafCount
    Contract.declaredWorld.state.store.peaks)

/-- The mirror of the declared chunk passes its check. -/
theorem root_check_exact_declared :
    checkRoot Keccak.keccak256 1 1 mirroringRun.2.store declaredAnswers = .ok [] := by
  have hcount : declaredAnswers.leafCount = .ok Contract.declaredWorld.state.store.leafCount := rfl
  obtain ⟨held, alarms, hheld, hchecked, hsilent, _⟩ := root_check_exact
    Contract.declaredWorld_reachable declaredWorld_canonical rfl rfl freshStore_opened
    [declaredDelivery] (Nat.le_refl 1) hcount rfl
  rw [← mirroringRun_eq] at hheld hchecked
  obtain ⟨accepted, _, hstream, hingested⟩ := mirroringRun_mirrors
  have hlast : Contract.leafCountAfter ((declarations Contract.declaredWorld.state.log).take 1) =
      Contract.declaredWorld.state.store.leafCount := by
    rw [← Contract.declaredWorld_reachable.published.declared.latest, declaredWorld_declarations]
    rfl
  have hsame : held = chunksFrom Contract.zeroStream 0 Contract.declaredWorld.state.store.leafCount := by
    rw [← hlast, ← hstream]
    refine List.ext_getElem? fun i => Option.ext fun chunk => ?_
    rw [← hheld i chunk]
    exact Store.chunk_eq_ok hingested.file (congrArg Frontier.leafCount hingested.frontier_eq)
  rw [← hsilent hsame]
  exact hchecked

end Blobsitter.Daemon
