import Blobsitter.Daemon.ProofSet
import Blobsitter.Daemon.Source

/-!
# The beacon adapter and the archives

The beacon adapter asks its endpoints in order and stops as soon as it holds as many
candidates as were asked for.  It counts, the chain identifies: an endpoint is never asked
when those before it have returned enough blobs, whichever blobs these are.
-/

namespace Blobsitter.Daemon

open Library
open Reference (Hash)

/-- A beacon endpoint: what it answers at a slot, once the body is decoded. -/
structure Endpoint where
  url : String
  answer : Nat → List Hash → Except String (List RawBlob)

structure BeaconSource where
  endpoints : List Endpoint
  genesisTime : Nat
  secondsPerSlot : Nat

def BeaconSource.slotFor (beacon : BeaconSource) (blockTimestamp : Nat) : Except String Nat :=
  if blockTimestamp < beacon.genesisTime then
    .error ("beacon genesis_time " ++ toString beacon.genesisTime ++ " is after block timestamp " ++
      toString blockTimestamp ++
      " — the beacon config points at a different chain than the execution RPC")
  else .ok ((blockTimestamp - beacon.genesisTime) / max beacon.secondsPerSlot 1)

def Endpoint.blobsUrl (endpoint : Endpoint) (slot : Nat) : String :=
  String.ofList (endpoint.url.toList.reverse.dropWhile (· == '/')).reverse ++
    "/eth/v1/beacon/blobs/" ++ toString slot

/-- The loop over the endpoints: candidates accumulate until there are enough. -/
def fetchLoop (slot : Nat) (wanted : List Hash) :
    List Endpoint → List RawBlob → String → Except String (List RawBlob)
  | [], collected, lastErr =>
      if collected ≠ [] then .ok collected
      else .error ("all beacon endpoints failed for slot " ++ toString slot ++ ": " ++ lastErr)
  | endpoint :: rest, collected, lastErr =>
      match endpoint.answer slot wanted with
      | .ok blobs =>
          let short : Prop := blobs.length < wanted.length
          let collected := collected ++ blobs
          if collected.length ≥ wanted.length then .ok collected
          else fetchLoop slot wanted rest collected
            (if short then endpoint.blobsUrl slot ++ " served a partial or empty blob set" else lastErr)
      | .error detail => fetchLoop slot wanted rest collected detail

def BeaconSource.fetch (beacon : BeaconSource) : BlobSource := fun ctx wanted => do
  let slot ← beacon.slotFor ctx.blockTimestamp
  fetchLoop slot wanted beacon.endpoints [] "no beacon endpoints configured"

/-- A Blobscan-style archive: one lookup for each hash, finished in any order. -/
structure Archive where
  lookup : Hash → Except String RawBlob
  finished : List Hash → List Hash
  finished_perm : ∀ wanted, (finished wanted).Perm wanted

def Archive.found (archive : Archive) (wanted : List Hash) : List RawBlob :=
  (archive.finished wanted).filterMap fun vh => (archive.lookup vh).toOption

def Archive.errors (archive : Archive) (wanted : List Hash) : List String :=
  (archive.finished wanted).filterMap fun vh =>
    match archive.lookup vh with
    | .ok _ => none
    | .error detail => some ("0x" ++ hexEncode vh.toList ++ ": " ++ detail)

def Archive.fetch (archive : Archive) : BlobSource := fun _ wanted =>
  if archive.found wanted = [] ∧ archive.errors wanted ≠ [] then
    .error ("all lookups failed: " ++ "; ".intercalate (archive.errors wanted))
  else .ok (archive.found wanted)

/-- The chain of the daemon: the endpoints near the head, then the archives. -/
def blobChain (beacon : BeaconSource) (archives : List Archive) : List BlobSource :=
  beacon.fetch :: archives.map Archive.fetch

/-- How many blobs the endpoint returns when it is asked. -/
def Endpoint.count (endpoint : Endpoint) (slot : Nat) (wanted : List Hash) : Nat :=
  match endpoint.answer slot wanted with
  | .ok blobs => blobs.length
  | .error _ => 0

/-- Some endpoint returns the blob, and those before it return fewer blobs than are wanted,
counting the ones already held. -/
inductive Reached (slot : Nat) (wanted : List Hash) (blob : RawBlob) : Nat → List Endpoint → Prop
  | here {held : Nat} {endpoint : Endpoint} {rest : List Endpoint} {blobs : List RawBlob}
      (hroom : held < wanted.length) (hanswer : endpoint.answer slot wanted = .ok blobs)
      (hmem : blob ∈ blobs) : Reached slot wanted blob held (endpoint :: rest)
  | later {held : Nat} {endpoint : Endpoint} {rest : List Endpoint}
      (hrest : Reached slot wanted blob (held + endpoint.count slot wanted) rest) :
      Reached slot wanted blob held (endpoint :: rest)

section

variable {slot : Nat} {wanted : List Hash} {blob : RawBlob}

theorem Reached.room {held : Nat} {endpoints : List Endpoint}
    (hreached : Reached slot wanted blob held endpoints) : held < wanted.length := by
  induction hreached with
  | here hroom => exact hroom
  | later _ ih => exact Nat.lt_of_le_of_lt (Nat.le_add_right _ _) ih

/-- An endpoint that fails is passed over. -/
theorem reached_cons_error {held : Nat} {endpoint : Endpoint} {rest : List Endpoint}
    {detail : String} (hanswer : endpoint.answer slot wanted = .error detail) :
    Reached slot wanted blob held (endpoint :: rest) ↔ Reached slot wanted blob held rest := by
  have hcount : endpoint.count slot wanted = 0 := by rw [Endpoint.count, hanswer]
  constructor
  · intro hreached
    cases hreached with
    | here _ hok =>
        rw [hanswer] at hok
        cases hok
    | later hrest => rwa [hcount] at hrest
  · intro hrest
    apply Reached.later
    rwa [hcount]

/-- An endpoint that answers in time is heard, and its blobs count. -/
theorem reached_cons_ok {held : Nat} {endpoint : Endpoint} {rest : List Endpoint}
    {blobs : List RawBlob} (hanswer : endpoint.answer slot wanted = .ok blobs)
    (hroom : held < wanted.length) :
    Reached slot wanted blob held (endpoint :: rest) ↔
      blob ∈ blobs ∨ Reached slot wanted blob (held + blobs.length) rest := by
  have hcount : endpoint.count slot wanted = blobs.length := by rw [Endpoint.count, hanswer]
  constructor
  · intro hreached
    cases hreached with
    | here _ hok hmem =>
        rw [hanswer] at hok
        cases hok
        exact Or.inl hmem
    | later hrest =>
        rw [hcount] at hrest
        exact Or.inr hrest
  · rintro (hmem | hrest)
    · exact .here hroom hanswer hmem
    · apply Reached.later
      rwa [hcount]

/-- The adapter returns what it holds and what it reaches. -/
theorem mem_fetchLoop_iff {endpoints : List Endpoint} {collected : List RawBlob} {lastErr : String}
    (hroom : collected.length < wanted.length) :
    (∃ out, fetchLoop slot wanted endpoints collected lastErr = .ok out ∧ blob ∈ out) ↔
      blob ∈ collected ∨ Reached slot wanted blob collected.length endpoints := by
  induction endpoints generalizing collected lastErr with
  | nil =>
      rw [fetchLoop]
      constructor
      · rintro ⟨out, hout, hmem⟩
        split at hout
        · cases hout
          exact Or.inl hmem
        · cases hout
      · rintro (hmem | hreached)
        · exact ⟨collected, if_pos (List.ne_nil_of_mem hmem), hmem⟩
        · cases hreached
  | cons endpoint rest ih =>
      rw [fetchLoop]
      cases hanswer : endpoint.answer slot wanted with
      | error detail =>
          simp only
          rw [ih hroom, reached_cons_error hanswer]
      | ok blobs =>
          simp only
          rw [reached_cons_ok hanswer hroom, ← or_assoc, ← List.mem_append, ← List.length_append]
          by_cases henough : (collected ++ blobs).length ≥ wanted.length
          · rw [if_pos henough]
            constructor
            · rintro ⟨out, hout, hmem⟩
              cases hout
              exact Or.inl hmem
            · rintro (hmem | hlate)
              · exact ⟨_, rfl, hmem⟩
              · exact absurd hlate.room (Nat.not_lt_of_ge henough)
          · rw [if_neg henough]
            exact ih (Nat.lt_of_not_le henough)

/-- The adapter, asked for a list that is not empty, returns exactly what it reaches. -/
theorem BeaconSource.mem_fetch_iff {beacon : BeaconSource} {ctx : BlobContext} (hwanted : wanted ≠ []) :
    (∃ out, beacon.fetch ctx wanted = .ok out ∧ blob ∈ out) ↔
      ∃ slot, beacon.slotFor ctx.blockTimestamp = .ok slot ∧
        Reached slot wanted blob 0 beacon.endpoints := by
  have hroom : ([] : List RawBlob).length < wanted.length := List.length_pos_iff.mpr hwanted
  constructor
  · rintro ⟨out, hfetch, hmem⟩
    obtain ⟨slot, hslot, hloop⟩ := bind_eq_ok.mp hfetch
    rcases (mem_fetchLoop_iff hroom).mp ⟨out, hloop, hmem⟩ with hnone | hreached
    · cases hnone
    · exact ⟨slot, hslot, hreached⟩
  · rintro ⟨slot, hslot, hreached⟩
    obtain ⟨out, hloop, hmem⟩ := (@mem_fetchLoop_iff slot wanted blob beacon.endpoints []
      "no beacon endpoints configured" hroom).mpr (Or.inr hreached)
    exact ⟨out, bind_eq_ok.mpr ⟨slot, hslot, hloop⟩, hmem⟩

end

/-! ## Completeness -/

section

variable (versionedHash : RawBlob → Except VerifyError Hash) (ctx : BlobContext)

/-- Whenever the endpoint is asked for this hash at the slot, its answer holds the blob. -/
def Endpoint.Serves (endpoint : Endpoint) (slot : Nat) (vh : Hash) : Prop :=
  ∀ wanted, vh ∈ wanted → ∃ blobs blob, endpoint.answer slot wanted = .ok blobs ∧ blob ∈ blobs ∧
    versionedHash blob = .ok vh

/-- The lookup of this hash finds the blob. -/
def Archive.Has (archive : Archive) (vh : Hash) : Prop :=
  ∃ blob, archive.lookup vh = .ok blob ∧ versionedHash blob = .ok vh

/-- A lookup never answers with a blob of another hash. -/
def Archive.Faithful (archive : Archive) : Prop :=
  ∀ vh blob found, archive.lookup vh = .ok blob → versionedHash blob = .ok found → found = vh

/-- Some configured endpoint or archive would serve the hash when asked. -/
def ServedBySome (beacon : BeaconSource) (archives : List Archive) (vh : Hash) : Prop :=
  (∃ slot, beacon.slotFor ctx.blockTimestamp = .ok slot ∧
    ∃ endpoint ∈ beacon.endpoints, endpoint.Serves versionedHash slot vh) ∨
  ∃ archive ∈ archives, archive.Has versionedHash vh

/-- An endpoint that is reached in time returns a blob of the hash. -/
def HeardOf (beacon : BeaconSource) (wanted : List Hash) (vh : Hash) : Prop :=
  ∃ slot blob, beacon.slotFor ctx.blockTimestamp = .ok slot ∧ versionedHash blob = .ok vh ∧
    Reached slot wanted blob 0 beacon.endpoints

/-- The chain returns a blob of each wanted hash. -/
def Acquires (wanted : List Hash) (sources : List BlobSource) : Prop :=
  ∃ blobs, acquire versionedHash ctx wanted sources = .ok blobs ∧
    ∀ vh ∈ wanted, ∃ blob, blobs vh = some blob ∧ versionedHash blob = .ok vh

end

section

variable {versionedHash : RawBlob → Except VerifyError Hash} {ctx : BlobContext}
variable {wanted : List Hash} {beacon : BeaconSource} {archives : List Archive}

theorem Archive.mem_found {archive : Archive} {wanted : List Hash} {blob : RawBlob} :
    blob ∈ archive.found wanted ↔ ∃ vh ∈ wanted, archive.lookup vh = .ok blob := by
  unfold Archive.found
  rw [List.mem_filterMap]
  constructor
  · rintro ⟨vh, hmem, hlookup⟩
    refine ⟨vh, (archive.finished_perm wanted).mem_iff.mp hmem, ?_⟩
    cases hanswer : archive.lookup vh with
    | error detail =>
        rw [hanswer] at hlookup
        cases hlookup
    | ok found =>
        rw [hanswer] at hlookup
        cases hlookup
        rfl
  · rintro ⟨vh, hmem, hlookup⟩
    exact ⟨vh, (archive.finished_perm wanted).mem_iff.mpr hmem, by rw [hlookup]; rfl⟩

theorem Archive.Has.serves {archive : Archive} {vh : Hash} (hhas : archive.Has versionedHash vh) :
    Serves versionedHash ctx archive.fetch vh := by
  obtain ⟨blob, hlookup, hhash⟩ := hhas
  intro asked hmem
  have hfound := Archive.mem_found.mpr ⟨vh, hmem, hlookup⟩
  refine ⟨archive.found asked, blob, if_neg ?_, hfound, hhash⟩
  rintro ⟨hnone, _⟩
  exact List.ne_nil_of_mem hfound hnone

theorem Archive.offers {archive : Archive} {blob : RawBlob} (hoffers : Offers ctx archive.fetch blob) :
    ∃ vh, archive.lookup vh = .ok blob := by
  obtain ⟨asked, candidates, hfetch, hmem⟩ := hoffers
  unfold Archive.fetch at hfetch
  split at hfetch
  · cases hfetch
  · cases hfetch
    obtain ⟨vh, _, hlookup⟩ := Archive.mem_found.mp hmem
    exact ⟨vh, hlookup⟩

/-- What has been acquired is verified. -/
theorem acquires_iff {sources : List BlobSource} :
    Acquires versionedHash ctx wanted sources ↔
      ∃ blobs, acquire versionedHash ctx wanted sources = .ok blobs := by
  constructor
  · rintro ⟨blobs, hok, _⟩
    exact ⟨blobs, hok⟩
  · rintro ⟨blobs, hok⟩
    refine ⟨blobs, hok, ?_⟩
    intro vh hmem
    obtain ⟨blob, hblob, hhash, _⟩ := acquire_eq_ok hok vh hmem
    exact ⟨blob, hblob, hhash⟩

/-- The first source of a chain is asked for everything. -/
theorem acquireLoop_first (hwanted : wanted ≠ []) (source : BlobSource) (rest : List BlobSource) :
    acquireLoop versionedHash ctx wanted (source :: rest) (fun _ => none) =
      match source ctx wanted with
      | .error _ => acquireLoop versionedHash ctx wanted rest fun _ => none
      | .ok candidates => acquireLoop versionedHash ctx wanted rest
          (candidates.foldl (admitBlob versionedHash wanted) fun _ => none) := by
  have hall : (wanted.filter fun vh => ((fun _ => none : BlobMap) vh).isNone) = wanted := by
    rw [List.filter_eq_self]
    intro vh _
    rfl
  simp only [acquireLoop]
  rw [hall]
  exact if_neg hwanted

theorem acquire_ok_iff {sources : List BlobSource} :
    (∃ blobs, acquire versionedHash ctx wanted sources = .ok blobs) ↔
      ∀ vh ∈ wanted, (acquireLoop versionedHash ctx wanted sources (fun _ => none) vh).isSome = true := by
  have hmissing : ((wanted.filter fun vh => (acquireLoop versionedHash ctx wanted sources
      (fun _ => none) vh).isNone).length > 0) ↔ ¬∀ vh ∈ wanted,
        (acquireLoop versionedHash ctx wanted sources (fun _ => none) vh).isSome = true := by
    rw [gt_iff_lt, List.length_pos_iff, Ne, List.filter_eq_nil_iff, not_iff_not]
    refine forall₂_congr fun vh _ => ?_
    rw [← Option.not_isSome, Bool.not_eq_true', Bool.not_eq_false]
  unfold acquire
  simp only
  by_cases hall : ∀ vh ∈ wanted,
      (acquireLoop versionedHash ctx wanted sources (fun _ => none) vh).isSome = true
  · rw [if_neg fun hsome => hmissing.mp hsome hall]
    exact ⟨fun _ => hall, fun _ => ⟨_, rfl⟩⟩
  · rw [if_pos (hmissing.mpr hall)]
    constructor
    · rintro ⟨_, herror⟩
      cases herror
    · exact fun hyes => absurd hyes hall

/-- Every hash that an archive has or a reached endpoint returns is acquired. -/
theorem acquires_of_heard (hwanted : wanted ≠ [])
    (hheard : ∀ vh ∈ wanted, (∃ archive ∈ archives, archive.Has versionedHash vh) ∨
      HeardOf versionedHash ctx beacon wanted vh) :
    Acquires versionedHash ctx wanted (blobChain beacon archives) := by
  rw [acquires_iff, acquire_ok_iff, blobChain, acquireLoop_first hwanted]
  cases hfetch : beacon.fetch ctx wanted with
  | error detail =>
      refine acquireLoop_isSome fun vh hmem => ?_
      rcases hheard vh hmem with ⟨archive, harchive, hhas⟩ | ⟨slot, blob, hslot, _, hreached⟩
      · exact Or.inr ⟨archive.fetch, List.mem_map_of_mem harchive, hhas.serves⟩
      · obtain ⟨out, hout, _⟩ :=
          (BeaconSource.mem_fetch_iff hwanted).mpr ⟨slot, hslot, hreached⟩
        rw [hfetch] at hout
        cases hout
  | ok candidates =>
      refine acquireLoop_isSome fun vh hmem => ?_
      rcases hheard vh hmem with ⟨archive, harchive, hhas⟩ | ⟨slot, blob, hslot, hhash, hreached⟩
      · exact Or.inr ⟨archive.fetch, List.mem_map_of_mem harchive, hhas.serves⟩
      · obtain ⟨out, hout, hblob⟩ :=
          (BeaconSource.mem_fetch_iff hwanted).mpr ⟨slot, hslot, hreached⟩
        rw [hfetch] at hout
        cases hout
        exact Or.inl (foldl_admit_found hmem hblob hhash)

/-- Nothing else is acquired, if the archives do not mix up their blobs. -/
theorem heard_of_acquires (hwanted : wanted ≠ [])
    (hfaithful : ∀ archive ∈ archives, archive.Faithful versionedHash)
    (hacquires : Acquires versionedHash ctx wanted (blobChain beacon archives)) {vh : Hash}
    (hmem : vh ∈ wanted) : (∃ archive ∈ archives, archive.Has versionedHash vh) ∨
      HeardOf versionedHash ctx beacon wanted vh := by
  have hlate : ∀ blobs : BlobMap, ∀ blob : RawBlob,
      acquireLoop versionedHash ctx wanted (archives.map Archive.fetch) blobs vh = some blob →
      blobs vh = some blob ∨ ∃ archive ∈ archives, archive.Has versionedHash vh := by
    intro blobs blob hstored
    rcases acquireLoop_some hstored with hold | ⟨hhash, source, hsource, hoffers⟩
    · exact Or.inl hold
    · obtain ⟨archive, harchive, rfl⟩ := List.mem_map.mp hsource
      obtain ⟨asked, hlookup⟩ := Archive.offers hoffers
      obtain rfl := hfaithful archive harchive asked blob vh hlookup hhash
      exact Or.inr ⟨archive, harchive, blob, hlookup, hhash⟩
  rw [acquires_iff, acquire_ok_iff, blobChain, acquireLoop_first hwanted] at hacquires
  obtain ⟨blob, hblob⟩ := Option.isSome_iff_exists.mp (hacquires vh hmem)
  cases hfetch : beacon.fetch ctx wanted with
  | error detail =>
      rw [hfetch] at hblob
      rcases hlate _ blob hblob with hnone | hhas
      · cases hnone
      · exact Or.inl hhas
  | ok candidates =>
      rw [hfetch] at hblob
      rcases hlate _ blob hblob with hold | hhas
      · rcases foldl_admit_some hold with hnone | ⟨hcandidate, hhash⟩
        · cases hnone
        · obtain ⟨slot, hslot, hreached⟩ :=
            (BeaconSource.mem_fetch_iff hwanted).mp ⟨candidates, hfetch, hcandidate⟩
          exact Or.inr ⟨slot, blob, hslot, hhash, hreached⟩
      · exact Or.inl hhas

/-- The chain acquires whatever an archive has or a reached endpoint returns; and where the
archives answer each lookup with the blob looked up, what is served somewhere is acquired
only then. -/
theorem acquisition_complete_iff (hwanted : wanted ≠ []) :
    ((∀ vh ∈ wanted, (∃ archive ∈ archives, archive.Has versionedHash vh) ∨
        HeardOf versionedHash ctx beacon wanted vh) →
      Acquires versionedHash ctx wanted (blobChain beacon archives)) ∧
    ((∀ archive ∈ archives, archive.Faithful versionedHash) →
      (((∀ vh ∈ wanted, ServedBySome versionedHash ctx beacon archives vh) →
          Acquires versionedHash ctx wanted (blobChain beacon archives)) ↔
        ((∀ vh ∈ wanted, ServedBySome versionedHash ctx beacon archives vh) →
          ∀ vh ∈ wanted, (∃ archive ∈ archives, archive.Has versionedHash vh) ∨
            HeardOf versionedHash ctx beacon wanted vh))) := by
  refine ⟨acquires_of_heard hwanted, ?_⟩
  intro hfaithful
  refine imp_congr_right fun _ => ?_
  exact ⟨fun hacquires vh hmem => heard_of_acquires hwanted hfaithful hacquires hmem,
    acquires_of_heard hwanted⟩

end

/-- An endpoint that serves these blobs and filters by the hashes it is asked for. -/
def stubEndpoint (url : String) (entries : List (Hash × RawBlob)) : Endpoint where
  url := url
  answer := fun _ wanted =>
    .ok ((entries.filter fun entry => wanted.contains entry.1).map Prod.snd)

theorem stubEndpoint_answer {url : String} {entries : List (Hash × RawBlob)} {wanted : List Hash}
    (hall : ∀ entry ∈ entries, entry.1 ∈ wanted) (slot : Nat) :
    (stubEndpoint url entries).answer slot wanted = .ok (entries.map Prod.snd) := by
  have hfilter : (entries.filter fun entry => wanted.contains entry.1) = entries := by
    rw [List.filter_eq_self]
    intro entry hmem
    exact List.contains_iff_mem.mpr (hall entry hmem)
  exact congrArg (fun found => Except.ok (found.map Prod.snd)) hfilter

/-- The blob of a constant polynomial. -/
def constantBlob (value : Nat) : RawBlob where
  val := packWords (List.replicate 4096 (beWord 32 value))
  property := by rw [packWords_length, List.length_replicate]; rfl

theorem constantBlob_ne : constantBlob 1 ≠ constantBlob 0 := by
  intro heq
  have hwords := packWords_inj_of_pos (by simp) (congrArg Subtype.val heq)
  have hword : beWord 32 1 = beWord 32 0 := List.replicate_right_injective (by simp) hwords
  exact absurd hword (by decide)

/-- Versioned hashes of the constants 0 and 1, whose commitments are the point at infinity
and the generator. -/
def zeroHash : Hash := beWord 32 0x010657f37554c781402a22917dee2f75def7ab966d7b770905398eba3c444014

def oneHash : Hash := beWord 32 0x01cf478a431837728dcec3461f4f53b8749cdc4e03496dcaed459dea82b82eb8

def constantVersionedHash (blob : RawBlob) : Except VerifyError Hash :=
  if blob = constantBlob 0 then .ok zeroHash
  else if blob = constantBlob 1 then .ok oneHash
  else .error (.invalidBlob "")

theorem constantVersionedHash_zero : constantVersionedHash (constantBlob 0) = .ok zeroHash := if_pos rfl

theorem constantVersionedHash_one : constantVersionedHash (constantBlob 1) = .ok oneHash := by
  rw [constantVersionedHash, if_neg constantBlob_ne, if_pos rfl]

/-- It has only the first of the two blobs. -/
def prunedEndpoint (url : String) : Endpoint := stubEndpoint url [(zeroHash, constantBlob 0)]

def healthyEndpoint (url : String) : Endpoint :=
  stubEndpoint url [(zeroHash, constantBlob 0), (oneHash, constantBlob 1)]

/-- The healthy endpoint serves both hashes. -/
theorem healthyEndpoint_serves (url : String) (slot : Nat) {vh : Hash}
    (hmem : vh ∈ [zeroHash, oneHash]) : (healthyEndpoint url).Serves constantVersionedHash slot vh := by
  intro wanted hwanted
  rcases List.mem_pair.mp hmem with rfl | rfl
  · refine ⟨_, constantBlob 0, rfl, ?_, constantVersionedHash_zero⟩
    refine List.mem_map.mpr ⟨(zeroHash, constantBlob 0), List.mem_filter.mpr ⟨?_, ?_⟩, rfl⟩
    · exact List.mem_cons_self
    · exact List.contains_iff_mem.mpr hwanted
  · refine ⟨_, constantBlob 1, rfl, ?_, constantVersionedHash_one⟩
    refine List.mem_map.mpr ⟨(oneHash, constantBlob 1), List.mem_filter.mpr ⟨?_, ?_⟩, rfl⟩
    · exact List.mem_cons_of_mem _ List.mem_cons_self
    · exact List.contains_iff_mem.mpr hwanted

def sampleContext : BlobContext := ⟨1, 12⟩

/-- The healthy endpoint is the last of three. -/
def prunedFirst : BeaconSource :=
  ⟨[prunedEndpoint "a", prunedEndpoint "b", healthyEndpoint "c"], 0, 12⟩

/-- The healthy endpoint is the first of three. -/
def healthyFirst : BeaconSource :=
  ⟨[healthyEndpoint "c", prunedEndpoint "a", prunedEndpoint "b"], 0, 12⟩

theorem acquisition_complete_iff_healthyFirst :
    Acquires constantVersionedHash sampleContext [zeroHash, oneHash] (blobChain healthyFirst []) := by
  refine (acquisition_complete_iff (List.cons_ne_nil _ _)).1 ?_
  intro vh hmem
  obtain ⟨blobs, blob, hanswer, hblob, hhash⟩ := healthyEndpoint_serves "c" 1 hmem _ hmem
  exact Or.inr ⟨1, blob, rfl, hhash, .here Nat.two_pos hanswer hblob⟩

/-- Two copies of the first blob make the count, and the endpoint with the second is never
asked. -/
theorem acquisition_incomplete_prunedFirst :
    [zeroHash, oneHash] ≠ [] ∧
      (∀ vh ∈ [zeroHash, oneHash], ServedBySome constantVersionedHash sampleContext prunedFirst [] vh) ∧
      ¬Acquires constantVersionedHash sampleContext [zeroHash, oneHash] (blobChain prunedFirst []) := by
  refine ⟨List.cons_ne_nil _ _, ?_, ?_⟩
  · intro vh hmem
    refine Or.inl ⟨1, rfl, healthyEndpoint "c", ?_, healthyEndpoint_serves "c" 1 hmem⟩
    exact List.mem_cons_of_mem _ (List.mem_cons_of_mem _ List.mem_cons_self)
  · intro hacquires
    have hpruned : ∀ url slot, (prunedEndpoint url).answer slot [zeroHash, oneHash] =
        .ok [constantBlob 0] := by
      intro url slot
      refine stubEndpoint_answer ?_ slot
      intro entry hmem
      rw [List.mem_singleton.mp hmem]
      exact List.mem_cons_self
    have hcount : ∀ url slot, (prunedEndpoint url).count slot [zeroHash, oneHash] = 1 := by
      intro url slot
      rw [Endpoint.count, hpruned]
      rfl
    have hother : ∀ blob : RawBlob, blob ∈ [constantBlob 0] →
        constantVersionedHash blob ≠ .ok oneHash := by
      intro blob hmem hhash
      rw [List.mem_singleton.mp hmem, constantVersionedHash_zero, Except.ok.injEq] at hhash
      exact absurd hhash (by decide)
    have hone := heard_of_acquires (List.cons_ne_nil _ _)
      (fun _ hmem => absurd hmem List.not_mem_nil) hacquires
      (List.mem_cons_of_mem _ List.mem_cons_self)
    rcases hone with ⟨_, hmem, _⟩ | ⟨slot, blob, _, hhash, hreached⟩
    · cases hmem
    · cases hreached with
      | here _ hanswer hmem =>
          rw [hpruned] at hanswer
          cases hanswer
          exact hother blob hmem hhash
      | later hreached =>
          rw [hcount] at hreached
          cases hreached with
          | here _ hanswer hmem =>
              rw [hpruned] at hanswer
              cases hanswer
              exact hother blob hmem hhash
          | later hreached =>
              rw [hcount] at hreached
              exact Nat.lt_irrefl 2 hreached.room

end Blobsitter.Daemon
