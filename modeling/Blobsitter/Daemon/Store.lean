import Blobsitter.Daemon.Persist
import Blobsitter.Reference.Subtrees

/-!
# The daemon's store

A flat file with chunk `i` at byte offset `31 * i` and a committed frontier.  A commit
appends the chunks, syncs, and only then replaces the frontier file.  Opening trims
whatever lies past the frontier and refuses a directory that has lost data.
-/

namespace Blobsitter.Daemon

open Library
open Reference (Chunk Hash Fault Mmr peakHeights)

/-- How far the store has ingested: the nonce it owes next, and the state of the
mountain range over what it holds. -/
structure Frontier where
  nonce : Nat
  leafCount : Nat
  peaks : List Hash
  deriving DecidableEq

instance : Inhabited Frontier := ⟨⟨0, 0, []⟩⟩

/-- The errors that the contents of the directory decide, and a read past the end. -/
inductive StoreError where
  | io (source : String)
  | corruptFrontier (detail : String)
  | missingCommittedData (found committed : Nat)
  | orphanedChunkData (bytes : Nat)
  | outOfBounds (index leafCount : Nat)
  | inconsistentFrontier (detail : String)
  deriving DecidableEq, Repr

section

variable (codec : Codec Frontier)

/-- `None` when the file has never been written. -/
def Frontier.load (disk : Disk DataFile) : Except StoreError (Option Frontier) :=
  match disk (.state .frontier) with
  | none => .ok none
  | some bytes => ((codec.fromSlice bytes).map some).mapError .corruptFrontier

def Frontier.storeAtomic (frontier : Frontier) : List (DiskOp DataFile) :=
  writeAtomic .frontier (codec.toVec frontier)

namespace ChunkFile

def chunkBytes : Nat := 31

/-- The bytes of the file. -/
def data (disk : Disk DataFile) : ByteString := (disk .chunks).getD []

/-- Opening makes a file that is not there, and keeps one that is. -/
def «open» (disk : Disk DataFile) : Disk DataFile :=
  Function.update disk .chunks (some (data disk))

def lenBytes (disk : Disk DataFile) : Nat := (data disk).length

/-- `set_len` to a length that the file has reached. -/
def truncateTo (disk : Disk DataFile) (leafCount : Nat) : Disk DataFile :=
  Function.update disk .chunks (some ((data disk).take (leafCount * chunkBytes)))

/-- Offsets are plain numbers: a file ends below `2 ^ 63` bytes, and the write begins
where the committed chunks end. -/
def append (first : Nat) (chunks : List Chunk) : List (DiskOp DataFile) :=
  [.writeAt .chunks (first * chunkBytes) (packWords chunks)]

def read (disk : Disk DataFile) (index : Nat) : Except StoreError Chunk :=
  let bytes := ((data disk).drop (index * chunkBytes)).take chunkBytes
  if bytes.length = chunkBytes then .ok (wordOf 31 bytes)
  else .error (.io "failed to fill whole buffer")

end ChunkFile

/-- A store that is open: its files are those of the directory. -/
structure Store where
  frontier : Frontier
  deriving DecidableEq

/-- `Store::open`, past the directory lock. -/
def Store.open (disk : Disk DataFile) : Except StoreError (Store × Disk DataFile) := do
  let loaded ← Frontier.load codec disk
  let frontier := loaded.getD default
  let _ ← (Mmr.fromState frontier.leafCount frontier.peaks).mapError
    fun fault => .inconsistentFrontier fault.message
  let disk := ChunkFile.open disk
  let committed := frontier.leafCount
  let foundBytes := ChunkFile.lenBytes disk
  if loaded.isNone ∧ foundBytes > 0 then .error (.orphanedChunkData foundBytes)
  else if foundBytes / 31 < committed then
    .error (.missingCommittedData (foundBytes / 31) committed)
  else if foundBytes > committed * 31 then
    .ok (⟨frontier⟩, ChunkFile.truncateTo disk committed)
  else .ok (⟨frontier⟩, disk)

/-- The state at the committed frontier; `expect` turns a failure into a panic. -/
def Store.mmr (store : Store) : Except Fault Mmr :=
  (Mmr.fromState store.frontier.leafCount store.frontier.peaks).mapError
    fun _ => .panic "frontier was validated at open and on every commit"

/-- The frontier that a commit publishes. -/
def nextFrontier (nextNonce : Nat) (mmr : Mmr) : Frontier :=
  ⟨nextNonce, mmr.leafCount, mmr.peakList⟩

/-- The file operations of a commit, in their order. -/
def Store.commitOps (store : Store) (nextNonce : Nat) (chunks : List Chunk) (mmr : Mmr) :
    List (DiskOp DataFile) :=
  ChunkFile.append store.frontier.leafCount chunks ++
    (nextFrontier nextNonce mmr).storeAtomic codec

/-- `commit_declaration`, when no file operation fails. -/
def Store.commitDeclaration (store : Store) (disk : Disk DataFile) (nextNonce : Nat)
    (chunks : List Chunk) (mmr : Mmr) : Store × Disk DataFile :=
  (⟨nextFrontier nextNonce mmr⟩, runAll (store.commitOps codec nextNonce chunks mmr) disk)

/-- A committed chunk: bytes past the frontier do not exist for readers. -/
def Store.chunk (store : Store) (disk : Disk DataFile) (index : Nat) :
    Except StoreError Chunk :=
  if index ≥ store.frontier.leafCount then
    .error (.outOfBounds index store.frontier.leafCount)
  else ChunkFile.read disk index

end

section

variable {codec : Codec Frontier} {store : Store} {disk after : Disk DataFile}

/-! ## What opening does -/

theorem ChunkFile.data_of_some {bytes : ByteString} (hchunks : disk .chunks = some bytes) :
    ChunkFile.data disk = bytes := by
  rw [ChunkFile.data, hchunks, Option.getD_some]

/-- A directory opens when its frontier is sound and no committed byte is missing; without
a frontier file it must be empty.  The chunk file is cut at the frontier. -/
theorem Store.open_eq_ok :
    Store.open codec disk = .ok (store, after) ↔ ∃ loaded, Frontier.load codec disk = .ok loaded ∧
      store.frontier = loaded.getD default ∧
      store.frontier.peaks.length = (peakHeights store.frontier.leafCount).length ∧
      (loaded = none → ChunkFile.data disk = []) ∧
      store.frontier.leafCount * 31 ≤ (ChunkFile.data disk).length ∧
      after = Function.update disk .chunks
        (some ((ChunkFile.data disk).take (store.frontier.leafCount * 31))) := by
  have hdata : ChunkFile.data (ChunkFile.open disk) = ChunkFile.data disk :=
    ChunkFile.data_of_some (Function.update_self ..)
  have hcut : ∀ n, ChunkFile.truncateTo (ChunkFile.open disk) n =
      Function.update disk .chunks (some ((ChunkFile.data disk).take (n * 31))) := by
    intro n
    rw [ChunkFile.truncateTo, hdata, ChunkFile.open, Function.update_idem]
    rfl
  have hmissing : ∀ n, (ChunkFile.data disk).length / 31 < n ↔
      ¬n * 31 ≤ (ChunkFile.data disk).length := by
    intro n
    rw [Nat.div_lt_iff_lt_mul (by decide), Nat.not_le]
  unfold Store.open
  simp only [bind_eq_ok, mapError_eq_ok, ChunkFile.lenBytes, hdata, hcut, hmissing]
  constructor
  · rintro ⟨loaded, hload, mmr, hmmr, hbody⟩
    have hpeaks := Mmr.fromState_ok_iff.mp ⟨mmr, hmmr⟩
    split at hbody
    · cases hbody
    · rename_i horphaned
      have hempty : loaded = none → ChunkFile.data disk = [] := by
        rintro rfl
        by_contra hsome
        exact horphaned ⟨rfl, List.length_pos_of_ne_nil hsome⟩
      split at hbody
      · cases hbody
      · rename_i hheld
        have hle := not_not.mp hheld
        split at hbody
        · obtain ⟨rfl, rfl⟩ := Prod.mk.inj (Except.ok.inj hbody)
          exact ⟨loaded, hload, rfl, hpeaks, hempty, hle, rfl⟩
        · rename_i hexact
          obtain ⟨rfl, rfl⟩ := Prod.mk.inj (Except.ok.inj hbody)
          refine ⟨loaded, hload, rfl, hpeaks, hempty, hle, ?_⟩
          rw [List.take_of_length_le (Nat.not_lt.mp hexact)]
          rfl
  · rintro ⟨loaded, hload, hfrontier, hpeaks, hempty, hle, rfl⟩
    obtain ⟨mmr, hmmr⟩ := Mmr.fromState_ok_iff.mpr hpeaks
    rw [hfrontier] at hmmr hle
    have hstore : (⟨loaded.getD default⟩ : Store) = store := by rw [← hfrontier]
    refine ⟨loaded, hload, mmr, hmmr, ?_⟩
    rw [if_neg, if_neg (not_not_intro hle), hfrontier, hstore]
    · split
      · rfl
      · rename_i hexact
        rw [List.take_of_length_le (Nat.not_lt.mp hexact)]
        rfl
    · rintro ⟨hnone, hbytes⟩
      rw [hempty (Option.isNone_iff_eq_none.mp hnone)] at hbytes
      exact Nat.lt_irrefl _ hbytes

/-- Bytes beside a missing frontier file are taken for damage. -/
theorem Store.open_orphaned (hfrontier : disk (.state .frontier) = none)
    (hbytes : ChunkFile.data disk ≠ []) :
    Store.open codec disk = .error (.orphanedChunkData (ChunkFile.data disk).length) := by
  have hload : Frontier.load codec disk = .ok none := by
    rw [Frontier.load, hfrontier]
  have hdata : ChunkFile.data (ChunkFile.open disk) = ChunkFile.data disk :=
    ChunkFile.data_of_some (Function.update_self ..)
  obtain ⟨mmr, hmmr⟩ := (@Mmr.fromState_ok_iff 0 []).mpr rfl
  have hdefault : Mmr.fromState ((none : Option Frontier).getD default).leafCount
      ((none : Option Frontier).getD default).peaks = .ok mmr := hmmr
  rw [Store.open, hload, ok_bind]
  simp only [mapError_eq_ok.mpr hdefault, ok_bind, ChunkFile.lenBytes, hdata]
  exact if_pos ⟨rfl, List.length_pos_of_ne_nil hbytes⟩

/-- Between two commits: the chunk file ends at the frontier, and the frontier file
holds the frontier of the store.  Before the first commit there is no such file. -/
structure Settled (codec : Codec Frontier) (fresh : Bool) (store : Store)
    (disk : Disk DataFile) : Prop where
  nonce_le : store.frontier.nonce ≤ store.frontier.leafCount
  fits : store.frontier.leafCount < 2 ^ 64
  peaks : store.frontier.peaks.length = (peakHeights store.frontier.leafCount).length
  chunks : ∃ bytes, disk .chunks = some bytes ∧ bytes.length = store.frontier.leafCount * 31
  file : disk (.state .frontier) = if fresh then none else some (codec.toVec store.frontier)
  initial : fresh = true → store.frontier = default

/-- The directory after a commit. -/
theorem Store.runAll_commitOps {bytes : ByteString} (hchunks : disk .chunks = some bytes)
    (hlen : bytes.length = store.frontier.leafCount * 31) (nextNonce : Nat) (chunks : List Chunk)
    (mmr : Mmr) :
    runAll (store.commitOps codec nextNonce chunks mmr) disk =
      Function.update (Function.update (Function.update disk .chunks
        (some (bytes ++ packWords chunks))) (.state .frontier)
          (some (codec.toVec (nextFrontier nextNonce mmr)))) (.tmp .frontier) none := by
  change runAll ((nextFrontier nextNonce mmr).storeAtomic codec) (Function.update disk .chunks
    (some (overwrite ((disk .chunks).getD []) _ _))) = _
  have hend : bytes.length = store.frontier.leafCount * ChunkFile.chunkBytes := hlen
  rw [Frontier.storeAtomic, writeAtomic, runAll_replaceFile, hchunks, Option.getD_some,
    overwrite_end _ hend]

theorem ChunkFile.read_packWords {chunks : List Chunk} {i : Nat} {chunk : Chunk}
    (hfile : disk .chunks = some (packWords chunks)) (hchunk : chunks[i]? = some chunk) :
    ChunkFile.read disk i = .ok chunk := by
  have hbytes : ((ChunkFile.data disk).drop (i * ChunkFile.chunkBytes)).take ChunkFile.chunkBytes =
      chunk.toList := by
    rw [ChunkFile.data_of_some hfile]
    exact packWords_slice hchunk
  have hlen : chunk.toList.length = ChunkFile.chunkBytes := Vector.length_toList
  unfold ChunkFile.read
  simp only [hbytes]
  rw [if_pos hlen, toList_wordOf]

/-- The readable chunks are those of the file. -/
theorem Store.chunk_eq_ok {chunks : List Chunk} (hfile : disk .chunks = some (packWords chunks))
    (hcount : store.frontier.leafCount = chunks.length) {i : Nat} {chunk : Chunk} :
    store.chunk disk i = .ok chunk ↔ chunks[i]? = some chunk := by
  unfold Store.chunk
  rw [hcount]
  by_cases hi : i < chunks.length
  · have hget := List.getElem?_eq_getElem hi
    rw [if_neg (by omega), ChunkFile.read_packWords hfile hget, hget]
    constructor
    · intro heq
      rw [Except.ok.inj heq]
    · intro heq
      rw [Option.some.inj heq]
  · rw [if_pos (by omega), List.getElem?_eq_none (by omega)]
    constructor
    · intro heq
      cases heq
    · intro heq
      cases heq

end

end Blobsitter.Daemon
