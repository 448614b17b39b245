import Blobsitter.Daemon.Ingest
import Blobsitter.Library.Keccak

/-!
# Crash consistency of the store

A crash inside a commit leaves the chunk file with a prefix of the appended bytes and
any temporary file, or the complete next state.  Reopening recovers the state before
or after the commit, unless no frontier file has ever been written: then the bytes of
the torn append are taken for a lost dataset, and the store refuses to open.
-/

namespace Blobsitter.Daemon

open Library
open Reference (Chunk Hash Mmr peakHeights packSlice packSlice_length)

section

variable (keccak256 : ByteString → Hash) (versionedHash : RawBlob → Except VerifyError Hash)
variable (codec : Codec Frontier) (sources : List BlobSource)

/-- A crash while the event is ingested, at any point of its commit. -/
def Interrupted (store : Store) (disk : Disk DataFile) (event : DeclaredEvent)
    (crashed : Disk DataFile) : Prop :=
  ∃ chunks mmr, verified keccak256 versionedHash sources store event = .ok (chunks, mmr) ∧
    Crash (store.commitOps codec event.nextNonce chunks mmr) disk crashed

/-- Directory and store after the committed declarations `history`, on a directory that
was empty at first.  The daemon may stop or crash, and restart, on the way; a crash that
lost its commit leaves the history as it was. -/
inductive History : List DeclaredEvent → Disk DataFile → Store → Prop where
  | opened {disk left : Disk DataFile} {store : Store} (hfresh : disk (.state .frontier) = none)
      (hempty : ChunkFile.data disk = []) (hopen : Store.open codec disk = .ok (store, left)) :
      History [] left store
  | committed {history : List DeclaredEvent} {disk after : Disk DataFile} {store next : Store}
      {sources : List BlobSource} {event : DeclaredEvent} (hhistory : History history disk store)
      (hingest : ingest keccak256 versionedHash codec sources store disk event =
        .ok (true, next, after)) : History (history ++ [event]) after next
  | restarted {history : List DeclaredEvent} {disk crashed left : Disk DataFile} {store : Store}
      {sources : List BlobSource} {event : DeclaredEvent} (hhistory : History history disk store)
      (hcrash : crashed = disk ∨
        Interrupted keccak256 versionedHash codec sources store disk event crashed)
      (hkept : crashed (.state .frontier) = disk (.state .frontier))
      (hopen : Store.open codec crashed = .ok (store, left)) : History history left store

/-- The crashed directory opens, on the state before or after the commit with the chunk
file trimmed to it, and ingesting the event again ends as if there had been no crash. -/
def Recovers (event : DeclaredEvent) (before : Store) (disk : Disk DataFile) (after : Store)
    (afterDisk crashed : Disk DataFile) : Prop :=
  ∃ recovered left, Store.open codec crashed = .ok (recovered, left) ∧
    (recovered = before ∧ left .chunks = disk .chunks ∨
      recovered = after ∧ left .chunks = afterDisk .chunks) ∧
    (∃ bytes, left .chunks = some bytes ∧ bytes.length = 31 * recovered.frontier.leafCount) ∧
    ∃ committed, ingest keccak256 versionedHash codec sources recovered left event =
      .ok (committed, after, afterDisk)

end

section

variable {keccak256 : ByteString → Hash} {versionedHash : RawBlob → Except VerifyError Hash}
variable {codec : Codec Frontier} {sources : List BlobSource} {fresh : Bool}
variable {store : Store} {disk crashed : Disk DataFile} {event : DeclaredEvent}
variable {chunks : List Chunk} {mmr : Mmr}

/-- Every declaration brings a chunk, so the nonce never wraps. -/
theorem Settled.nextNonce_eq (hsettled : Settled codec fresh store disk)
    (hverified : Verified keccak256 store event chunks mmr)
    (hnonce : event.nonce = store.frontier.nonce) :
    event.nextNonce = store.frontier.nonce + 1 := by
  have hle := hsettled.nonce_le
  have hgrows := hverified.grows
  have hlt := event.newLeafCount_lt
  rw [DeclaredEvent.nextNonce, hnonce, Nat.mod_eq_of_lt (by omega)]

theorem Verified.counted (hverified : Verified keccak256 store event chunks mmr) :
    mmr.leafCount = event.newLeafCount ∧
      mmr.peakList.length = (peakHeights event.newLeafCount).length := by
  obtain ⟨before, hbefore, hupdate⟩ := hverified.update
  have hgrows := hverified.grows
  have hlt := event.newLeafCount_lt
  have hcounted := Mmr.applyUpdate_counted keccak256 hbefore (by omega) (by omega) hupdate
  rwa [Nat.add_sub_cancel' hgrows.le] at hcounted

/-- A commit leaves a settled directory. -/
theorem Settled.commit (hsettled : Settled codec fresh store disk)
    (hverified : Verified keccak256 store event chunks mmr)
    (hnonce : event.nonce = store.frontier.nonce) :
    Settled codec false (store.commitDeclaration codec disk event.nextNonce chunks mmr).1
      (store.commitDeclaration codec disk event.nextNonce chunks mmr).2 := by
  obtain ⟨bytes, hbytes, hlen⟩ := hsettled.chunks
  obtain ⟨hcount, hpeaks⟩ := hverified.counted
  have hgrows := hverified.grows
  have hnext := hsettled.nextNonce_eq hverified hnonce
  have hle := hsettled.nonce_le
  have hrun := @Store.runAll_commitOps codec store disk bytes hbytes hlen event.nextNonce chunks mmr
  refine ⟨?_, ?_, ?_, ⟨bytes ++ packWords chunks, ?_, ?_⟩, ?_, fun hfalse => by cases hfalse⟩
  · change event.nextNonce ≤ mmr.leafCount
    omega
  · change mmr.leafCount < _
    rw [hcount]
    exact event.newLeafCount_lt
  · change mmr.peakList.length = (peakHeights mmr.leafCount).length
    rw [hcount, hpeaks]
  · change runAll _ disk _ = _
    rw [hrun]
    rfl
  · change _ = mmr.leafCount * 31
    rw [List.length_append, packWords_length, hlen, hverified.count, hcount]
    omega
  · change runAll _ disk _ = _
    rw [hrun]
    rfl

/-- Before the rename the old frontier stands, beside a prefix of the append. -/
theorem crash_commitOps {bytes : ByteString} {nextNonce : Nat} (hchunks : disk .chunks = some bytes)
    (hlen : bytes.length = store.frontier.leafCount * 31)
    (hcrash : Crash (store.commitOps codec nextNonce chunks mmr) disk crashed) :
    (∃ tail content, tail <+: packWords chunks ∧
      crashed = Function.update (Function.update disk .chunks (some (bytes ++ tail)))
        (.tmp .frontier) content) ∨
      crashed = runAll (store.commitOps codec nextNonce chunks mmr) disk := by
  have hend : bytes.length = store.frontier.leafCount * ChunkFile.chunkBytes := hlen
  have hwrite : ∀ part : ByteString,
      (DiskOp.writeAt .chunks (store.frontier.leafCount * ChunkFile.chunkBytes) part).run disk =
        Function.update disk .chunks (some (bytes ++ part)) := by
    intro part
    rw [← overwrite_end part hend]
    change Function.update disk .chunks (some (overwrite ((disk .chunks).getD []) _ part)) = _
    rw [hchunks, Option.getD_some]
  have htmp : ∀ part : ByteString, Function.update disk .chunks (some (bytes ++ part)) =
      Function.update (Function.update disk .chunks (some (bytes ++ part))) (.tmp .frontier)
        (disk (.tmp .frontier)) := by
    intro part
    funext name
    by_cases hname : name = .tmp .frontier
    · subst hname
      rw [Function.update_self]
      rfl
    · rw [Function.update_of_ne hname]
  cases hcrash with
  | inside htorn =>
      cases htorn with
      | untouched =>
          refine Or.inl ⟨[], disk (.tmp .frontier), List.nil_prefix, ?_⟩
          rw [← htmp, List.append_nil, ← hchunks, Function.update_eq_self]
      | landed count _ =>
          refine Or.inl ⟨_, disk (.tmp .frontier), List.take_prefix count _, ?_⟩
          rw [hwrite]
          exact htmp _
  | later hrest =>
      rcases crash_replaceFile hrest with ⟨content, hleft⟩ | hleft
      · refine Or.inl ⟨_, content, List.prefix_rfl, ?_⟩
        rw [hleft, hwrite]
      · exact Or.inr hleft

theorem Settled.of_restart {left : Disk DataFile} (hsettled : Settled codec fresh store disk)
    (hcrash : crashed = disk ∨
      Interrupted keccak256 versionedHash codec sources store disk event crashed)
    (hkept : crashed (.state .frontier) = disk (.state .frontier))
    (hopen : Store.open codec crashed = .ok (store, left)) : Settled codec fresh store left := by
  obtain ⟨bytes, hbytes, hlen⟩ := hsettled.chunks
  obtain ⟨loaded, _, _, _, _, _, rfl⟩ := Store.open_eq_ok.mp hopen
  have hdata : ∃ tail, crashed .chunks = some (bytes ++ tail) := by
    rcases hcrash with rfl | ⟨chunks, mmr, _, hops⟩
    · exact ⟨[], by rw [List.append_nil, hbytes]⟩
    · rcases crash_commitOps hbytes hlen hops with ⟨tail, content, _, rfl⟩ | rfl
      · exact ⟨tail, rfl⟩
      · rw [Store.runAll_commitOps hbytes hlen]
        exact ⟨_, rfl⟩
  obtain ⟨tail, htail⟩ := hdata
  refine ⟨hsettled.nonce_le, hsettled.fits, hsettled.peaks, ⟨bytes, ?_, hlen⟩, ?_, hsettled.initial⟩
  · rw [Function.update_self, ChunkFile.data_of_some htail, List.take_left' hlen]
  · rw [← hsettled.file, ← hkept]
    rfl

/-- Every history leaves a settled directory. -/
theorem History.settled {history : List DeclaredEvent}
    (hhistory : History keccak256 versionedHash codec history disk store) :
    Settled codec history.isEmpty store disk := by
  induction hhistory with
  | opened hfresh hempty hopen =>
      obtain ⟨loaded, hload, hfrontier, _, _, _, rfl⟩ := Store.open_eq_ok.mp hopen
      rw [Frontier.load, hfresh] at hload
      obtain rfl := Except.ok.inj hload
      rw [Option.getD_none] at hfrontier
      refine ⟨?_, ?_, ?_, ⟨[], ?_, ?_⟩, ?_, fun _ => hfrontier⟩
      · rw [hfrontier]
        exact Nat.le_refl 0
      · rw [hfrontier]
        exact Nat.two_pow_pos 64
      · rw [hfrontier]
        rfl
      · rw [Function.update_self, hempty, List.take_nil]
      · rw [hfrontier]
        rfl
      · exact hfresh
  | committed _ hingest ih =>
      obtain ⟨hnonce, chunks, mmr, hverified, hcommit⟩ := ingest_eq_commit hingest
      obtain ⟨rfl, rfl⟩ := Prod.mk.inj hcommit
      have hsettled := ih.commit (verified_eq_ok hverified) hnonce
      rwa [← show (_ ++ [_] : List DeclaredEvent).isEmpty = false by simp] at hsettled
  | restarted _ hcrash hkept hopen ih => exact ih.of_restart hcrash hkept hopen

/-! ## Recovery -/

theorem Settled.load (hsettled : Settled codec fresh store disk)
    (hreads : fresh = false → codec.ReadsBack store.frontier)
    (hkept : crashed (.state .frontier) = disk (.state .frontier)) :
    Frontier.load codec crashed = .ok (if fresh then none else some store.frontier) := by
  rw [Frontier.load, hkept, hsettled.file]
  cases hfresh : fresh with
  | true => rfl
  | false =>
      have hback : codec.fromSlice (codec.toVec store.frontier) = .ok store.frontier := hreads hfresh
      simp only [Bool.false_eq_true, if_false, hback]
      rfl

/-- A settled directory with a torn append opens trimmed, unless there is no frontier
file and something was appended. -/
theorem Settled.open_torn {bytes tail : ByteString} {content : Option ByteString}
    (hsettled : Settled codec fresh store disk)
    (hreads : fresh = false → codec.ReadsBack store.frontier)
    (hlen : bytes.length = store.frontier.leafCount * 31) (htail : fresh = true → tail = []) :
    Store.open codec (Function.update (Function.update disk .chunks (some (bytes ++ tail)))
        (.tmp .frontier) content) =
      .ok (store, Function.update (Function.update disk .chunks (some bytes)) (.tmp .frontier)
        content) := by
  have hne : DataFile.chunks ≠ .tmp .frontier := by decide
  have hdata : ChunkFile.data (Function.update (Function.update disk .chunks (some (bytes ++ tail)))
      (.tmp .frontier) content) = bytes ++ tail := ChunkFile.data_of_some rfl
  refine Store.open_eq_ok.mpr ⟨_, hsettled.load hreads rfl, ?_, hsettled.peaks, ?_, ?_, ?_⟩
  · cases hfresh : fresh with
    | true => exact hsettled.initial hfresh
    | false => rfl
  · intro hnone
    cases hfresh : fresh with
    | true =>
        have hzero : store.frontier.leafCount = 0 := by rw [hsettled.initial hfresh]; rfl
        rw [hzero, Nat.zero_mul] at hlen
        rw [hdata, htail hfresh, List.append_nil, List.eq_nil_of_length_eq_zero hlen]
    | false =>
        rw [hfresh] at hnone
        cases hnone
  · rw [hdata, List.length_append, hlen]
    omega
  · rw [hdata, List.take_left' hlen, Function.update_comm hne, Function.update_comm hne,
      Function.update_idem]

/-- Committing on a directory with a leftover temporary file ends in the same state. -/
theorem commitDeclaration_leftover {bytes : ByteString} (content : Option ByteString)
    (hbytes : disk .chunks = some bytes) (hlen : bytes.length = store.frontier.leafCount * 31)
    (nextNonce : Nat) :
    store.commitDeclaration codec (Function.update (Function.update disk .chunks (some bytes))
        (.tmp .frontier) content) nextNonce chunks mmr =
      store.commitDeclaration codec disk nextNonce chunks mmr := by
  have hleft : Function.update (Function.update disk .chunks (some bytes)) (.tmp .frontier) content
      .chunks = some bytes := rfl
  rw [Store.commitDeclaration, Store.commitDeclaration, Store.runAll_commitOps hbytes hlen,
    Store.runAll_commitOps hleft hlen]
  congr 1
  funext name
  cases name with
  | chunks => rfl
  | state file => cases file <;> rfl
  | tmp file => cases file <;> rfl

/-- From a torn append the store recovers the state before the commit. -/
theorem recovers_before {bytes tail : ByteString} {content : Option ByteString}
    (hsettled : Settled codec fresh store disk)
    (hverified : verified keccak256 versionedHash sources store event = .ok (chunks, mmr))
    (hnonce : event.nonce = store.frontier.nonce)
    (hreads : fresh = false → codec.ReadsBack store.frontier) (hbytes : disk .chunks = some bytes)
    (hlen : bytes.length = store.frontier.leafCount * 31) (htail : fresh = true → tail = []) :
    Recovers keccak256 versionedHash codec sources event store disk
      (store.commitDeclaration codec disk event.nextNonce chunks mmr).1
      (store.commitDeclaration codec disk event.nextNonce chunks mmr).2
      (Function.update (Function.update disk .chunks (some (bytes ++ tail))) (.tmp .frontier)
        content) := by
  refine ⟨store, _, hsettled.open_torn hreads hlen htail, Or.inl ⟨rfl, hbytes.symm⟩,
    ⟨bytes, rfl, by rw [hlen, Nat.mul_comm]⟩, true, ?_⟩
  rw [ingest_commit hnonce hverified, commitDeclaration_leftover content hbytes hlen]

/-- After the rename the store is already in the state after the commit. -/
theorem recovers_after (hsettled : Settled codec fresh store disk)
    (hverified : verified keccak256 versionedHash sources store event = .ok (chunks, mmr))
    (hnonce : event.nonce = store.frontier.nonce)
    (hreads : codec.ReadsBack
      (store.commitDeclaration codec disk event.nextNonce chunks mmr).1.frontier) :
    Recovers keccak256 versionedHash codec sources event store disk
      (store.commitDeclaration codec disk event.nextNonce chunks mmr).1
      (store.commitDeclaration codec disk event.nextNonce chunks mmr).2
      (store.commitDeclaration codec disk event.nextNonce chunks mmr).2 := by
  have hnext := hsettled.commit (verified_eq_ok hverified) hnonce
  have howed := hsettled.nextNonce_eq (verified_eq_ok hverified) hnonce
  generalize hcommit : store.commitDeclaration codec disk event.nextNonce chunks mmr = committed at *
  obtain ⟨after, afterDisk⟩ := committed
  obtain ⟨bytes, hbytes, hlen⟩ := hnext.chunks
  have hcut : Function.update afterDisk .chunks (some bytes) = afterDisk := by
    rw [← hbytes, Function.update_eq_self]
  refine ⟨after, afterDisk, ?_, Or.inr ⟨rfl, rfl⟩, ⟨bytes, hbytes, by rw [hlen, Nat.mul_comm]⟩,
    false, ?_⟩
  · refine Store.open_eq_ok.mpr ⟨_, hnext.load (fun _ => hreads) rfl, rfl, hnext.peaks, ?_, ?_, ?_⟩
    · intro hnone
      cases hnone
    · rw [ChunkFile.data_of_some hbytes, hlen]
    · rw [ChunkFile.data_of_some hbytes, ← hlen, List.take_length, hcut]
  · apply ingest_redelivery
    have hafter : after.frontier.nonce = event.nextNonce :=
      congrArg (fun pair => pair.1.frontier.nonce) hcommit.symm
    rw [hafter, howed, hnonce]
    exact Nat.lt_succ_self _

/-- A crash recovers exactly when a declaration had been committed before, no byte of the
append had landed, or the rename had taken place. -/
theorem crash_consistent_iff {history : List DeclaredEvent} {after : Store}
    {afterDisk : Disk DataFile}
    (hhistory : History keccak256 versionedHash codec history disk store)
    (hingest : ingest keccak256 versionedHash codec sources store disk event =
      .ok (true, after, afterDisk))
    (hcrash : Interrupted keccak256 versionedHash codec sources store disk event crashed)
    (hbefore : history ≠ [] → codec.ReadsBack store.frontier)
    (hafter : codec.ReadsBack after.frontier) :
    Recovers keccak256 versionedHash codec sources event store disk after afterDisk crashed ↔
      history ≠ [] ∨ crashed .chunks = disk .chunks ∨
        crashed (.state .frontier) ≠ disk (.state .frontier) := by
  have hsettled := hhistory.settled
  have hreads : history.isEmpty = false → codec.ReadsBack store.frontier := by
    intro hsome
    exact hbefore (List.isEmpty_eq_false_iff.mp hsome)
  obtain ⟨hnonce, chunks, mmr, hverified, hcommit⟩ := ingest_eq_commit hingest
  obtain ⟨rfl, rfl⟩ := Prod.mk.inj hcommit
  obtain ⟨bytes, hbytes, hlen⟩ := hsettled.chunks
  obtain ⟨chunks', mmr', hverified', hops⟩ := hcrash
  obtain ⟨rfl, rfl⟩ := Prod.mk.inj (Except.ok.inj (hverified'.symm.trans hverified))
  rcases crash_commitOps hbytes hlen hops with ⟨tail, content, _, rfl⟩ | rfl
  · have hkept : Function.update (Function.update disk .chunks (some (bytes ++ tail)))
        (.tmp .frontier) content (.state .frontier) = disk (.state .frontier) := rfl
    have hchunks : Function.update (Function.update disk .chunks (some (bytes ++ tail)))
        (.tmp .frontier) content .chunks = some (bytes ++ tail) := rfl
    rw [hkept, hchunks, hbytes]
    constructor
    · rintro ⟨recovered, left, hopen, -⟩
      by_contra hnot
      rw [not_or, not_or, not_not] at hnot
      obtain ⟨rfl, htorn, -⟩ := hnot
      have hsome : bytes ++ tail ≠ [] := by
        intro hnil
        obtain ⟨rfl, rfl⟩ := List.append_eq_nil_iff.mp hnil
        exact htorn rfl
      have hdata := ChunkFile.data_of_some hchunks
      rw [Store.open_orphaned (hkept.trans hsettled.file) (by rw [hdata]; exact hsome)] at hopen
      cases hopen
    · intro hcondition
      refine recovers_before hsettled hverified hnonce hreads hbytes hlen ?_
      intro hempty
      rcases hcondition with hsome | hsame | hrenamed
      · exact absurd (List.isEmpty_iff.mp hempty) hsome
      · exact List.append_right_eq_self.mp (Option.some.inj hsame)
      · exact absurd rfl hrenamed
  · refine iff_of_true (recovers_after hsettled hverified hnonce hafter) ?_
    cases hempty : history.isEmpty with
    | false => exact Or.inl (List.isEmpty_eq_false_iff.mp hempty)
    | true =>
        refine Or.inr (Or.inr ?_)
        rw [hsettled.file, hempty, Store.runAll_commitOps hbytes hlen]
        intro hnone
        cases hnone

end

def zeroChunk : Chunk := Vector.replicate 31 0

def zeroBlob : RawBlob := ⟨packSlice [zeroChunk], packSlice_length (by decide)⟩

/-- Versioned hash of the blob that is zero everywhere: its commitment is the point at
infinity. -/
def zeroBlobHash : Hash :=
  beWord 32 0x010657f37554c781402a22917dee2f75def7ab966d7b770905398eba3c444014

/-- The versioned hash, as far as the sample needs it. -/
def sampleVersionedHash (blob : RawBlob) : Except VerifyError Hash :=
  if blob = zeroBlob then .ok zeroBlobHash else .error (.invalidBlob "not the zero blob")

def zeroSource : BlobSource := fun _ _ => .ok [zeroBlob]

/-- The first declaration of an instance: one zero chunk. -/
def zeroEvent : DeclaredEvent where
  nonce := 0
  newLeafCount := 1
  blobVersionedHashes := [zeroBlobHash]
  newSubtreePeaks := [Reference.leaf Keccak.keccak256 zeroChunk]
  blockNumber := 1
  blockTimestamp := 12
  newLeafCount_lt := by decide

def freshStore : Store := ⟨default⟩

/-- The data directory once an empty one has been opened. -/
def freshDisk : Disk DataFile := Function.update (fun _ => none) .chunks (some [])

/-- One byte of the first append has reached the disk. -/
def tornDisk : Disk DataFile := Function.update freshDisk .chunks (some [0])

def zeroFrontier : Frontier :=
  ⟨1, 1, Reference.streamPeaks Keccak.keccak256 [zeroChunk]⟩

/-- `to_vec_pretty` of a frontier. -/
def frontierJson (frontier : Frontier) : ByteString :=
  let peaks := frontier.peaks.map fun peak => hexText peak.toList
  ("\x7b\n  \"nonce\": " ++ toString frontier.nonce ++ ",\n  \"leaf_count\": " ++
    toString frontier.leafCount ++ ",\n  \"peaks\": " ++
    (if peaks = [] then "[]" else "[\n    " ++ ",\n    ".intercalate peaks ++ "\n  ]") ++
    "\n\x7d").toUTF8.toList

/-- The text format, read back for the one frontier of the sample. -/
def sampleCodec : Codec Frontier where
  toVec := frontierJson
  fromSlice bytes :=
    if bytes = frontierJson zeroFrontier then .ok zeroFrontier else .error "expected value"

theorem freshDisk_history :
    History Keccak.keccak256 sampleVersionedHash sampleCodec [] freshDisk freshStore := by
  have hopened : Store.open sampleCodec (fun _ => none) = .ok (freshStore, freshDisk) :=
    Store.open_eq_ok.mpr ⟨none, rfl, rfl, rfl, fun _ => rfl, Nat.le_refl 0, rfl⟩
  exact .opened rfl rfl hopened

/-- A source that serves one blob, whatever is asked. -/
theorem single_supplies {versionedHash : RawBlob → Except VerifyError Hash} {blob : RawBlob}
    {vh : Hash} {event : DeclaredEvent} (hhash : versionedHash blob = .ok vh)
    (hhashes : event.blobVersionedHashes = [vh]) :
    Supplies versionedHash [fun _ _ => .ok [blob]] event [blob] := by
  refine ⟨?_, ?_⟩
  · intro asked hmem
    rw [hhashes] at hmem
    obtain rfl := List.mem_singleton.mp hmem
    refine ⟨_, List.mem_singleton_self _, fun _ _ => ?_⟩
    exact ⟨_, blob, rfl, List.mem_singleton_self _, hhash⟩
  · intro source hsource candidate hoffers served hserved _ _ _
    obtain rfl := List.mem_singleton.mp hsource
    obtain ⟨_, candidates, hanswer, hmem⟩ := hoffers
    obtain rfl := Except.ok.inj hanswer
    rw [List.mem_singleton.mp hmem, List.mem_singleton.mp hserved]

theorem zeroEvent_supplied :
    Supplies sampleVersionedHash [zeroSource] zeroEvent [zeroBlob] :=
  single_supplies (if_pos rfl) rfl

theorem zeroBlob_packed : [zeroBlob].map Subtype.val = Reference.packed [zeroChunk] := by
  have hpacked : Reference.packed [zeroChunk] = [packSlice [zeroChunk]] :=
    Reference.packed_cons (List.cons_ne_nil _ _)
  rw [hpacked, List.map_singleton, zeroBlob]

/-- The first declaration is ingested, and its frontier is the sample's. -/
theorem zeroEvent_verified : ∃ mmr,
    verified Keccak.keccak256 sampleVersionedHash [zeroSource] freshStore zeroEvent =
      .ok ([zeroChunk], mmr) ∧ nextFrontier zeroEvent.nextNonce mmr = zeroFrontier := by
  obtain ⟨roots, mmr, hroots, hupdate, hcommits⟩ :=
    (Mmr.new_commitsTo Keccak.keccak256).applyUpdate Keccak.keccak256
      (List.cons_ne_nil zeroChunk []) (by decide)
  obtain rfl : zeroEvent.newSubtreePeaks = roots := Except.ok.inj hroots
  have hhashes : List.Forall₂ (fun vh blob => sampleVersionedHash blob = .ok vh)
      zeroEvent.blobVersionedHashes [zeroBlob] := .cons (if_pos rfl) .nil
  have hmmr : Mmr.fromState freshStore.frontier.leafCount freshStore.frontier.peaks =
      .ok Mmr.new := rfl
  refine ⟨mmr, ?_, ?_⟩
  · exact verified_ok Nat.one_pos rfl zeroBlob_packed hhashes zeroEvent_supplied hroots hmmr hupdate
  · rw [nextFrontier, hcommits.leafCount_eq, hcommits.peakList_eq _ (by decide)]
    rfl

theorem tornDisk_interrupted :
    Interrupted Keccak.keccak256 sampleVersionedHash sampleCodec [zeroSource] freshStore freshDisk
      zeroEvent tornDisk := by
  obtain ⟨mmr, hverified, _⟩ := zeroEvent_verified
  refine ⟨[zeroChunk], mmr, hverified, .inside ?_⟩
  have htorn : tornDisk = (DiskOp.writeAt DataFile.chunks (freshStore.frontier.leafCount *
      ChunkFile.chunkBytes) ((packWords [zeroChunk]).take 1)).run freshDisk := by
    funext name
    cases name <;> rfl
  rw [htorn]
  exact .landed 1 Nat.one_pos

theorem crash_consistent_iff_torn : ∃ after afterDisk,
    ingest Keccak.keccak256 sampleVersionedHash sampleCodec [zeroSource] freshStore freshDisk
      zeroEvent = .ok (true, after, afterDisk) ∧
    (Recovers Keccak.keccak256 sampleVersionedHash sampleCodec [zeroSource] zeroEvent freshStore
        freshDisk after afterDisk tornDisk ↔
      ([] : List DeclaredEvent) ≠ [] ∨ tornDisk .chunks = freshDisk .chunks ∨
        tornDisk (.state .frontier) ≠ freshDisk (.state .frontier)) := by
  obtain ⟨mmr, hverified, hfrontier⟩ := zeroEvent_verified
  refine ⟨_, _, ingest_commit rfl hverified, ?_⟩
  refine crash_consistent_iff freshDisk_history (ingest_commit rfl hverified) tornDisk_interrupted
    (fun hsome => absurd rfl hsome) ?_
  change sampleCodec.ReadsBack (nextFrontier zeroEvent.nextNonce mmr)
  rw [hfrontier]
  exact if_pos rfl

/-- After one torn byte of the first commit the store never opens again. -/
theorem torn_first_commit_refused :
    Store.open sampleCodec tornDisk = .error (.orphanedChunkData 1) ∧
      ∃ after afterDisk,
        History Keccak.keccak256 sampleVersionedHash sampleCodec [] freshDisk freshStore ∧
        ingest Keccak.keccak256 sampleVersionedHash sampleCodec [zeroSource] freshStore freshDisk
          zeroEvent = .ok (true, after, afterDisk) ∧
        Interrupted Keccak.keccak256 sampleVersionedHash sampleCodec [zeroSource] freshStore
          freshDisk zeroEvent tornDisk ∧
        sampleCodec.ReadsBack after.frontier ∧
        ¬Recovers Keccak.keccak256 sampleVersionedHash sampleCodec [zeroSource] zeroEvent freshStore
          freshDisk after afterDisk tornDisk := by
  have hopen : Store.open sampleCodec tornDisk = .error (.orphanedChunkData 1) :=
    Store.open_orphaned rfl (List.cons_ne_nil _ _)
  obtain ⟨mmr, hverified, hfrontier⟩ := zeroEvent_verified
  refine ⟨hopen, _, _, freshDisk_history, ingest_commit rfl hverified, tornDisk_interrupted, ?_, ?_⟩
  · change sampleCodec.ReadsBack (nextFrontier zeroEvent.nextNonce mmr)
    rw [hfrontier]
    exact if_pos rfl
  · rintro ⟨recovered, left, hok, -⟩
    rw [hopen] at hok
    cases hok

end Blobsitter.Daemon
