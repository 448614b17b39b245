import Blobsitter.Daemon.Store
import Blobsitter.Reference.PathBuilder

/-!
# Proofs from the store

`build_proof_set` rebuilds the peaks and the paths of any past leaf count from the
chunk file, and checks them with the verifier of the contract before it returns them.
A read that fails while the builder hashes is parked, and fails the set afterwards.
-/

namespace Blobsitter.Daemon

open Library
open Reference (Chunk Hash Fault PathBuilder ChunkSource root verify honestPath)

/-- A read-only view at a committed frontier.  `faults` is what the system makes of the
read calls, counted from the first one of a run. -/
structure Reader where
  disk : Disk DataFile
  leafCount : Nat
  faults : Nat → Option String

/-- `Store::reader`; the system serves every read. -/
def Store.reader (store : Store) (disk : Disk DataFile) : Reader :=
  ⟨disk, store.frontier.leafCount, fun _ => none⟩

/-- `Reader::chunk`, after so many read calls. -/
def Reader.chunk (reader : Reader) (index calls : Nat) : Except StoreError Chunk × Nat :=
  if index ≥ reader.leafCount then (.error (.outOfBounds index reader.leafCount), calls)
  else
    match reader.faults calls with
    | some source => (.error (.io source), calls + 1)
    | none => (ChunkFile.read reader.disk index, calls + 1)

/-- The revealed chunks, up to the first error. -/
def Reader.chunks (reader : Reader) : List Nat → Nat → Except StoreError (List Chunk × Nat)
  | [], calls => .ok ([], calls)
  | index :: rest, calls => do
      let read := reader.chunk index calls
      let chunk ← read.1
      let (others, calls) ← reader.chunks rest read.2
      return (chunk :: others, calls)

/-- The read calls so far, and the first error of the builder's reads. -/
structure Reads where
  calls : Nat
  parked : Option StoreError

/-- `chunk_at`: a failed read parks its error and gives out a zero chunk. -/
def Reader.chunkAt (reader : Reader) : ChunkSource Reads := fun index reads =>
  let read := reader.chunk index reads.calls
  match read.1 with
  | .ok chunk => (chunk, ⟨read.2, reads.parked⟩)
  | .error error => (Vector.replicate 31 0, ⟨read.2, reads.parked.or (some error)⟩)

inductive ProofError where
  | store (error : StoreError)
  | indexOutOfRange (index n : Nat)
  | beyondFrontier (n frontier : Nat)
  | pinMismatch (n : Nat) (expected computed : String)
  | selfCheckFailed (index : Nat)
  deriving DecidableEq, Repr

/-- How a call ends without a set: it returns an error, or it panics. -/
inductive ProofFault where
  | returned (error : ProofError)
  | panicked (message : String)
  deriving DecidableEq, Repr

/-- One proven chunk: the raw bytes and the sibling path, bottom level first. -/
structure ProvenChunk where
  chunk : Chunk
  path : List Hash
  deriving DecidableEq

/-- The peak list to re-bag, and the proofs in the order of the indices. -/
structure ProofSet where
  n : Nat
  peaks : List Hash
  proven : List ProvenChunk
  deriving DecidableEq

/-- `hex::encode`. -/
def hexEncode (bytes : ByteString) : String :=
  String.ofList (bytes.flatMap fun byte =>
    [hexDigit (byte.toNat / 16), hexDigit (byte.toNat % 16)])

section

variable (keccak256 : ByteString → Hash) (reader : Reader)

def provePaths (n : Nat) : List Nat → PathBuilder Reads →
    Except Fault (List (List Hash) × PathBuilder Reads)
  | [], builder => .ok ([], builder)
  | index :: rest, builder => do
      let proved ← builder.prove keccak256 reader.chunkAt index n
      let (others, builder) ← provePaths n rest proved.2
      return (proved.1.2 :: others, builder)

/-- The final check with the verifier of the contract. -/
def selfCheck (n : Nat) (peaks : List Hash) :
    List (Nat × Chunk × List Hash) → Except ProofFault Unit
  | [] => .ok ()
  | (index, chunk, path) :: rest => do
      let accepted ← (verify keccak256 chunk index path n peaks).mapError
        fun fault => .panicked fault.message
      if accepted = false then .error (.returned (.selfCheckFailed index))
      else selfCheck n peaks rest

/-- `build_proof_set`. -/
def buildProofSet (indices : List Nat) (n : Nat) (pinnedRoot : Hash) :
    Except ProofFault ProofSet :=
  let frontier := reader.leafCount
  if n > frontier then .error (.returned (.beyondFrontier n frontier))
  else
    match indices.find? (fun index => index ≥ n) with
    | some index => .error (.returned (.indexOutOfRange index n))
    | none => do
        let (chunks, calls) ← (reader.chunks indices 0).mapError
          fun error => .returned (.store error)
        let built := PathBuilder.peaksAt keccak256 reader.chunkAt n ⟨[], ⟨calls, none⟩⟩
        let (paths, builder) ← (provePaths keccak256 reader n indices built.2).mapError
          fun fault => .panicked fault.message
        match builder.source.parked with
        | some error => .error (.returned (.store error))
        | none => do
            let computed := root keccak256 n built.1
            if computed ≠ pinnedRoot then
              .error (.returned (.pinMismatch n (hexEncode pinnedRoot.toList)
                (hexEncode computed.toList)))
            else do
              selfCheck keccak256 n built.1 (indices.zip (chunks.zip paths))
              return ⟨n, built.1, List.zipWith ProvenChunk.mk chunks paths⟩

/-- How many read calls it makes when those for the revealed chunks succeed. -/
def readCalls (indices : List Nat) (n : Nat) : Nat :=
  let built := PathBuilder.peaksAt keccak256 reader.chunkAt n ⟨[], ⟨indices.length, none⟩⟩
  match provePaths keccak256 reader n indices built.2 with
  | .ok (_, builder) => builder.source.calls
  | .error _ => built.2.source.calls

end

/-! ## What a served reader gives -/

/-- The file holds the first `n` chunks of the stream, below the frontier. -/
structure Reader.Holds (reader : Reader) (stream : Nat → Chunk) (n : Nat) : Prop where
  below : n ≤ reader.leafCount
  read : ∀ i < n, ChunkFile.read reader.disk i = .ok (stream i)

/-- The system serves every read. -/
def Reader.Served (reader : Reader) : Prop := ∀ calls, reader.faults calls = none

section

variable {keccak256 : ByteString → Hash} {reader : Reader} {stream : Nat → Chunk} {n : Nat}

/-- No error has been parked. -/
def Reads.Clean (reads : Reads) : Prop := reads.parked = none

theorem Reader.Holds.chunk (hholds : reader.Holds stream n) {i : Nat} (hi : i < n) (calls : Nat) :
    reader.chunk i calls = (match reader.faults calls with
      | some source => .error (.io source)
      | none => .ok (stream i), calls + 1) := by
  have hle := hholds.below
  rw [Reader.chunk, if_neg (by omega), hholds.read i hi]
  cases reader.faults calls with
  | some source => rfl
  | none => rfl

/-- A chunk that is given out without parking an error is the stream's. -/
theorem Reader.Holds.soundSource (hholds : reader.Holds stream n) :
    PathBuilder.SoundSource stream n Reads.Clean reader.chunkAt := by
  have hread : ∀ i < n, ∀ reads : Reads, (reader.chunkAt i reads).2.Clean →
      reads.Clean ∧ (reader.chunkAt i reads).1 = stream i := by
    intro i hi reads hclean
    have hchunk := hholds.chunk hi reads.calls
    cases hfault : reader.faults reads.calls with
    | some source =>
        rw [hfault] at hchunk
        simp only [Reader.chunkAt, hchunk, Reads.Clean, Option.or_eq_none_iff] at hclean
        cases hclean.2
    | none =>
        rw [hfault] at hchunk
        simp only [Reader.chunkAt, hchunk] at hclean ⊢
        exact ⟨hclean, trivial⟩
  exact ⟨fun i hi reads hclean => (hread i hi reads hclean).1,
    fun i hi reads hclean => (hread i hi reads hclean).2⟩

/-- From one state of the reads to a later one nothing is parked exactly when nothing was
before and every read call in between is served. -/
def Reader.Between (reader : Reader) (before after : Reads) : Prop :=
  before.calls ≤ after.calls ∧ (after.Clean ↔ before.Clean ∧
    ∀ call, before.calls ≤ call → call < after.calls → reader.faults call = none)

theorem Reader.between_trans {first second third : Reads} (hfirst : reader.Between first second)
    (hsecond : reader.Between second third) : reader.Between first third := by
  obtain ⟨hle, hclean⟩ := hfirst
  obtain ⟨hle', hclean'⟩ := hsecond
  refine ⟨hle.trans hle', ?_⟩
  rw [hclean', hclean]
  constructor
  · rintro ⟨⟨hstart, hearly⟩, hlate⟩
    refine ⟨hstart, ?_⟩
    intro call hlower hupper
    rcases Nat.lt_or_ge call second.calls with hlt | hge
    · exact hearly call hlower hlt
    · exact hlate call hge hupper
  · rintro ⟨hstart, hall⟩
    exact ⟨⟨hstart, fun call hlower hupper => hall call hlower (hupper.trans_le hle')⟩,
      fun call hlower hupper => hall call (hle.trans hlower) hupper⟩

theorem Reader.Holds.carries (hholds : reader.Holds stream n) :
    PathBuilder.Carries n reader.Between reader.chunkAt where
  refl := fun reads => ⟨Nat.le_refl _,
    fun hclean => ⟨hclean, fun call hlower hupper => absurd hupper (Nat.not_lt.mpr hlower)⟩,
    fun hboth => hboth.1⟩
  trans := Reader.between_trans
  read := by
    intro i hi reads
    have hchunk := hholds.chunk hi reads.calls
    have honly : (∀ call, reads.calls ≤ call → call < reads.calls + 1 →
        reader.faults call = none) ↔ reader.faults reads.calls = none := by
      constructor
      · exact fun hall => hall _ (Nat.le_refl _) (Nat.lt_succ_self _)
      · intro hone call hlower hupper
        rw [show call = reads.calls by omega]
        exact hone
    cases hfault : reader.faults reads.calls with
    | some source =>
        rw [hfault] at hchunk honly
        simp only [Reader.chunkAt, hchunk, Reader.Between, Reads.Clean, Option.or_eq_none_iff, honly]
        exact ⟨Nat.le_succ _, by simp⟩
    | none =>
        rw [hfault] at hchunk honly
        simp only [Reader.chunkAt, hchunk, Reader.Between, Reads.Clean, honly]
        exact ⟨Nat.le_succ _, by simp⟩

/-- The revealed chunks are read exactly when all these calls are served. -/
theorem Reader.Holds.chunks_eq_ok (hholds : reader.Holds stream n) {indices : List Nat}
    (hindices : ∀ i ∈ indices, i < n) {calls : Nat} {read : List Chunk × Nat} :
    reader.chunks indices calls = .ok read ↔
      (∀ call, calls ≤ call → call < calls + indices.length → reader.faults call = none) ∧
        read = (indices.map stream, calls + indices.length) := by
  induction indices generalizing calls read with
  | nil =>
      rw [Reader.chunks, Except.ok.injEq]
      constructor
      · rintro rfl
        exact ⟨fun call hlower hupper => absurd hupper (Nat.not_lt.mpr hlower), rfl⟩
      · rintro ⟨_, rfl⟩
        rfl
  | cons index rest ih =>
      have hrest := fun i hmem => hindices i (List.mem_cons_of_mem index hmem)
      have hfirst := hholds.chunk (hindices index List.mem_cons_self) calls
      have hlength : calls + (index :: rest).length = calls + 1 + rest.length := by
        rw [List.length_cons]
        omega
      rw [hlength]
      simp only [Reader.chunks, hfirst, bind_eq_ok, pure_eq_ok]
      constructor
      · rintro ⟨chunk, hchunk, others, hothers, rfl⟩
        obtain ⟨hserved, rfl⟩ := (ih hrest).mp hothers
        cases hfault : reader.faults calls with
        | some source =>
            rw [hfault] at hchunk
            cases hchunk
        | none =>
            rw [hfault] at hchunk
            cases hchunk
            refine ⟨?_, rfl⟩
            intro call hlower hupper
            rcases Nat.eq_or_lt_of_le hlower with rfl | hlt
            · exact hfault
            · exact hserved call hlt hupper
      · rintro ⟨hserved, rfl⟩
        refine ⟨stream index, ?_, _, (ih hrest).mpr
          ⟨fun call hlower => hserved call (Nat.le_of_succ_le hlower), rfl⟩, rfl⟩
        rw [hserved calls (Nat.le_refl _) (by omega)]

/-- The paths of all indices: the calls between, and honest paths after a clean run. -/
theorem provePaths_spec (hholds : reader.Holds stream n) (hn : n < 2 ^ 64) {indices : List Nat}
    (hindices : ∀ i ∈ indices, i < n) (builder : PathBuilder Reads) :
    ∃ paths last, provePaths keccak256 reader n indices builder = .ok (paths, last) ∧
      reader.Between builder.source last.source ∧
      (builder.memo.Honest keccak256 stream → last.source.Clean →
        paths = indices.map fun i => honestPath keccak256 stream i n) := by
  induction indices generalizing builder with
  | nil => exact ⟨[], builder, rfl, hholds.carries.refl _, fun _ _ => rfl⟩
  | cons index rest ih =>
      obtain ⟨k, path, next, hprove, hcarries, hsound⟩ := @PathBuilder.prove_spec _ keccak256
        reader.chunkAt stream n Reads.Clean index (hindices index List.mem_cons_self) hn builder
      obtain ⟨others, last, hothers, hbetween, hhonest⟩ :=
        ih (fun i hmem => hindices i (List.mem_cons_of_mem _ hmem)) next
      refine ⟨path :: others, last, ?_, Reader.between_trans (hcarries _ hholds.carries) hbetween, ?_⟩
      · simp only [provePaths, hprove, ok_bind, hothers]
        rfl
      · intro hmemo hclean
        obtain ⟨hnext, rfl⟩ := hsound hholds.soundSource hmemo (hbetween.2.mp hclean).1
        rw [hhonest hnext hclean, List.map_cons]

theorem selfCheck_honest (hn : n < 2 ^ 64) {indices : List Nat} (hindices : ∀ i ∈ indices, i < n) :
    selfCheck keccak256 n (leafPeaks (Reference.node keccak256) 64
        (fun i => Reference.leaf keccak256 (stream i)) n)
      (indices.zip ((indices.map stream).zip
        (indices.map fun i => honestPath keccak256 stream i n))) = .ok () := by
  induction indices with
  | nil => rfl
  | cons index rest ih =>
      have hrest := ih fun i hmem => hindices i (List.mem_cons_of_mem _ hmem)
      have hverify := Reference.verify_honestPath keccak256 stream
        (hindices index List.mem_cons_self) hn
      simp only [List.map_cons, List.zip_cons_cons, selfCheck, hverify]
      exact hrest

/-- Below the frontier the set is returned exactly when no read fails and the root is that
of the chunks; it consists of their peaks and their honest paths. -/
theorem buildProofSet_eq_ok (hholds : reader.Holds stream n) (hn : n < 2 ^ 64) {indices : List Nat}
    (hindices : ∀ i ∈ indices, i < n) {pinnedRoot : Hash} {set : ProofSet} :
    buildProofSet keccak256 reader indices n pinnedRoot = .ok set ↔
      (∀ call < readCalls keccak256 reader indices n, reader.faults call = none) ∧
      root keccak256 n (leafPeaks (Reference.node keccak256) 64
        (fun i => Reference.leaf keccak256 (stream i)) n) = pinnedRoot ∧
      set = ⟨n, leafPeaks (Reference.node keccak256) 64
        (fun i => Reference.leaf keccak256 (stream i)) n,
        indices.map fun i => ⟨stream i, honestPath keccak256 stream i n⟩⟩ := by
  have hle := hholds.below
  have hfind : indices.find? (fun index => index ≥ n) = none := by
    rw [List.find?_eq_none]
    intro i hmem
    have hi := hindices i hmem
    simp only [decide_eq_true_eq]
    omega
  have hbuilt := @PathBuilder.peaksAt_carries _ keccak256 _ _ _ hholds.carries hn
    ⟨[], ⟨indices.length, none⟩⟩
  obtain ⟨paths, last, hpaths, hbetween, hhonest⟩ := @provePaths_spec keccak256 _ _ _ hholds hn _
    hindices (PathBuilder.peaksAt keccak256 reader.chunkAt n ⟨[], ⟨indices.length, none⟩⟩).2
  have hcalls : readCalls keccak256 reader indices n = last.source.calls := by
    simp only [readCalls, hpaths]
  have hwhole := Reader.between_trans hbuilt hbetween
  -- after a clean run everything that was built is the stream's
  have hrun : last.source.Clean →
      (PathBuilder.peaksAt keccak256 reader.chunkAt n ⟨[], ⟨indices.length, none⟩⟩).1 =
          leafPeaks (Reference.node keccak256) 64 (fun i => Reference.leaf keccak256 (stream i)) n ∧
        paths = indices.map fun i => honestPath keccak256 stream i n := by
    intro hclean
    obtain ⟨_, hpeaks, hmemo⟩ := PathBuilder.peaksAt_sound hholds.soundSource hn
      (Reference.Memo.honest_nil keccak256 stream) (hbetween.2.mp hclean).1
    exact ⟨hpeaks, hhonest hmemo hclean⟩
  have hproven : List.zipWith ProvenChunk.mk (indices.map stream)
      (indices.map fun i => honestPath keccak256 stream i n) =
        indices.map fun i => ⟨stream i, honestPath keccak256 stream i n⟩ := by
    rw [List.zipWith_map, List.zipWith_self]
  unfold buildProofSet
  simp only
  rw [if_neg (by omega), hfind]
  constructor
  · intro hok
    obtain ⟨read, hread, hok⟩ := bind_eq_ok.mp hok
    obtain ⟨hserved, rfl⟩ := (hholds.chunks_eq_ok hindices).mp (mapError_eq_ok.mp hread)
    rw [Nat.zero_add] at hok
    obtain ⟨built, hpathsOk, hok⟩ := bind_eq_ok.mp hok
    rw [mapError_eq_ok, hpaths] at hpathsOk
    cases hpathsOk
    cases hparked : last.source.parked with
    | some error =>
        simp only [hparked] at hok
        cases hok
    | none =>
        obtain ⟨hpeaks, rfl⟩ := hrun hparked
        simp only [hparked, hpeaks] at hok
        by_cases hroot : root keccak256 n (leafPeaks (Reference.node keccak256) 64
            (fun i => Reference.leaf keccak256 (stream i)) n) = pinnedRoot
        · rw [if_neg (not_not_intro hroot)] at hok
          obtain ⟨_, _, hset⟩ := bind_eq_ok.mp hok
          refine ⟨?_, hroot, ?_⟩
          · intro call hcall
            rcases Nat.lt_or_ge call indices.length with hlt | hge
            · exact hserved call (Nat.zero_le _) (by omega)
            · exact (hwhole.2.mp hparked).2 call hge (hcalls ▸ hcall)
          · rw [← pure_eq_ok.mp hset, hproven]
        · rw [if_pos hroot] at hok
          cases hok
  · rintro ⟨hserved, hroot, rfl⟩
    have hclean : last.source.parked = none :=
      hwhole.2.mpr ⟨rfl, fun call _ hupper => hserved call (hcalls ▸ hupper)⟩
    obtain ⟨hpeaks, rfl⟩ := hrun hclean
    have hread : reader.chunks indices 0 = .ok (indices.map stream, 0 + indices.length) := by
      refine (hholds.chunks_eq_ok hindices).mpr ⟨?_, rfl⟩
      intro call _ hupper
      have hle' : indices.length ≤ last.source.calls := hwhole.1
      exact hserved call (by omega)
    refine bind_eq_ok.mpr ⟨_, mapError_eq_ok.mpr hread, ?_⟩
    rw [Nat.zero_add]
    refine bind_eq_ok.mpr ⟨_, mapError_eq_ok.mpr hpaths, ?_⟩
    simp only [hclean, hpeaks, hroot]
    rw [if_neg (not_not_intro rfl)]
    refine bind_eq_ok.mpr ⟨(), selfCheck_honest hn hindices, ?_⟩
    rw [hproven]
    rfl

/-- Below the frontier, and with the root of its own chunks, the store proves every index. -/
theorem buildProofSet_served (hserved : reader.Served) (hholds : reader.Holds stream n)
    (hn : n < 2 ^ 64) {indices : List Nat} (hindices : ∀ i ∈ indices, i < n) {pinnedRoot : Hash}
    (hroot : root keccak256 n (leafPeaks (Reference.node keccak256) 64
      (fun i => Reference.leaf keccak256 (stream i)) n) = pinnedRoot) :
    buildProofSet keccak256 reader indices n pinnedRoot =
      .ok ⟨n, leafPeaks (Reference.node keccak256) 64
        (fun i => Reference.leaf keccak256 (stream i)) n,
        indices.map fun i => ⟨stream i, honestPath keccak256 stream i n⟩⟩ :=
  (buildProofSet_eq_ok hholds hn hindices).mpr ⟨fun call _ => hserved call, hroot, rfl⟩

end

end Blobsitter.Daemon
