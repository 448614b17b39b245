import Blobsitter.Reference.Blob

/-!
# Blob acquisition

An ordered chain of untrusted sources.  A candidate is kept only under the versioned
hash recomputed from its own bytes; the chunks of an update are read from the blobs
that its declaration names.
-/

namespace Blobsitter.Daemon

open Library
open Reference (Chunk Hash blobBytes packed readBlobs readBlobs_eq_ok packed_length)

/-- A raw, unverified blob. -/
abbrev RawBlob := { bytes : ByteString // bytes.length = blobBytes }

inductive VerifyError where
  | invalidBlob (detail : String)
  | nonCanonicalElement (index : Nat)
  | nonZeroPadding (index : Nat)
  | blobCountMismatch (expected got : Nat)
  deriving DecidableEq, Repr

def VerifyError.message : VerifyError → String
  | .invalidBlob detail => "blob is not a valid field-element array: " ++ detail
  | .nonCanonicalElement index =>
      "field element " ++ toString index ++ " has a nonzero high byte — not canonical chunk encoding"
  | .nonZeroPadding index =>
      "trailing element " ++ toString index ++ " past the declared chunk count is nonzero"
  | .blobCountMismatch expected got =>
      "declaration needs " ++ toString expected ++ " blobs for its chunk count but carries " ++
        toString got

/-- Unpacks an update's `m` chunks.  The type of a raw blob fixes its size. -/
def chunksFromBlobs (blobs : List RawBlob) (m : Nat) : Except VerifyError (List Chunk) :=
  let expected := (m + 4095) / 4096
  if blobs.length ≠ expected then .error (.blobCountMismatch expected blobs.length)
  else readBlobs .nonCanonicalElement .nonZeroPadding m (fun _ => .ok ()) (blobs.map Subtype.val) 0

/-- Blobs unpack to chunks exactly when they are the packing of so many chunks. -/
theorem chunksFromBlobs_eq_ok {blobs : List RawBlob} {m : Nat} {chunks : List Chunk} :
    chunksFromBlobs blobs m = .ok chunks ↔
      chunks.length = m ∧ blobs.map Subtype.val = packed chunks := by
  by_cases hcount : blobs.length = (m + 4095) / 4096
  · have hsize : ∀ blob ∈ blobs.map Subtype.val, (Except.ok () : Except VerifyError Unit) = .ok () ↔
        blob.length = blobBytes := by
      intro blob hmem
      obtain ⟨raw, _, rfl⟩ := List.mem_map.mp hmem
      exact ⟨fun _ => raw.2, fun _ => rfl⟩
    have hread := @readBlobs_eq_ok _ VerifyError.nonCanonicalElement .nonZeroPadding m 0
      (fun _ => .ok ()) _ hsize (by rw [List.length_map, Nat.zero_mul, Nat.sub_zero]; exact hcount)
      chunks
    rw [Nat.zero_mul, Nat.sub_zero] at hread
    rw [chunksFromBlobs, if_neg (not_not_intro hcount), hread]
  · rw [chunksFromBlobs, if_pos hcount]
    constructor
    · intro herror
      cases herror
    · rintro ⟨hlen, hpacked⟩
      have hsame := congrArg List.length hpacked
      rw [List.length_map, packed_length, hlen] at hsame
      exact absurd hsame hcount

/-! ## The source chain -/

structure BlobContext where
  blockNumber : Nat
  blockTimestamp : Nat

/-- What a source answers when it is asked for blobs: any candidates, or an error. -/
abbrev BlobSource := BlobContext → List Hash → Except String (List RawBlob)

structure SourcesExhausted where
  wanted : Nat
  missing : Nat
  deriving DecidableEq, Repr

/-- Verified blobs by versioned hash. -/
abbrev BlobMap := Hash → Option RawBlob

section

variable (versionedHash : RawBlob → Except VerifyError Hash) (ctx : BlobContext) (wanted : List Hash)

/-- A candidate is stored under its own hash, if that hash is missing. -/
def admitBlob (missing : List Hash) (blobs : BlobMap) (candidate : RawBlob) : BlobMap :=
  match versionedHash candidate with
  | .ok vh => if vh ∈ missing then Function.update blobs vh (some candidate) else blobs
  | .error _ => blobs

/-- Asks each source for what is still missing, until nothing is. -/
def acquireLoop : List BlobSource → BlobMap → BlobMap
  | [], blobs => blobs
  | source :: rest, blobs =>
      let missing := wanted.filter fun vh => (blobs vh).isNone
      if missing = [] then blobs
      else
        match source ctx missing with
        | .error _ => acquireLoop rest blobs
        | .ok candidates =>
            acquireLoop rest (candidates.foldl (admitBlob versionedHash missing) blobs)

def acquire (sources : List BlobSource) : Except SourcesExhausted BlobMap :=
  let blobs := acquireLoop versionedHash ctx wanted sources fun _ => none
  let missing := (wanted.filter fun vh => (blobs vh).isNone).length
  if missing > 0 then .error ⟨wanted.length, missing⟩ else .ok blobs

/-- Some answer of the source holds the candidate. -/
def Offers (source : BlobSource) (candidate : RawBlob) : Prop :=
  ∃ asked candidates, source ctx asked = .ok candidates ∧ candidate ∈ candidates

/-- Whenever the source is asked for this hash, its answer holds a blob of that hash. -/
def Serves (source : BlobSource) (vh : Hash) : Prop :=
  ∀ asked, vh ∈ asked → ∃ candidates blob, source ctx asked = .ok candidates ∧
    blob ∈ candidates ∧ versionedHash blob = .ok vh

end

section

variable {versionedHash : RawBlob → Except VerifyError Hash} {ctx : BlobContext} {wanted : List Hash}

/-- A stored blob was there before or is the admitted candidate. -/
theorem admitBlob_some {missing : List Hash} {blobs : BlobMap} {candidate blob : RawBlob} {vh : Hash}
    (hstored : admitBlob versionedHash missing blobs candidate vh = some blob) :
    blobs vh = some blob ∨ blob = candidate ∧ versionedHash candidate = .ok vh := by
  cases hhash : versionedHash candidate with
  | error e =>
      simp only [admitBlob, hhash] at hstored
      exact Or.inl hstored
  | ok found =>
      simp only [admitBlob, hhash] at hstored
      by_cases hmissing : found ∈ missing
      · rw [if_pos hmissing, Function.update_apply] at hstored
        split at hstored
        · rename_i hsame
          rw [hsame]
          exact Or.inr ⟨(Option.some.inj hstored).symm, rfl⟩
        · exact Or.inl hstored
      · rw [if_neg hmissing] at hstored
        exact Or.inl hstored

theorem admitBlob_isSome {missing : List Hash} {blobs : BlobMap} (candidate : RawBlob) {vh : Hash}
    (hfound : (blobs vh).isSome = true) :
    (admitBlob versionedHash missing blobs candidate vh).isSome = true := by
  cases hhash : versionedHash candidate with
  | error e =>
      simp only [admitBlob, hhash]
      exact hfound
  | ok found =>
      simp only [admitBlob, hhash]
      by_cases hmissing : found ∈ missing
      · rw [if_pos hmissing, Function.update_apply]
        split
        · rfl
        · exact hfound
      · rw [if_neg hmissing]
        exact hfound

theorem foldl_admit_isSome {missing : List Hash} {blobs : BlobMap} (candidates : List RawBlob)
    {vh : Hash} (hfound : (blobs vh).isSome = true) :
    (candidates.foldl (admitBlob versionedHash missing) blobs vh).isSome = true := by
  induction candidates generalizing blobs with
  | nil => exact hfound
  | cons candidate rest ih => exact ih (admitBlob_isSome candidate hfound)

/-- A missing hash is found once a candidate has it. -/
theorem foldl_admit_found {missing : List Hash} {blobs : BlobMap} {candidates : List RawBlob}
    {vh : Hash} {blob : RawBlob} (hmissing : vh ∈ missing) (hmem : blob ∈ candidates)
    (hhash : versionedHash blob = .ok vh) :
    (candidates.foldl (admitBlob versionedHash missing) blobs vh).isSome = true := by
  induction candidates generalizing blobs with
  | nil => cases hmem
  | cons candidate rest ih =>
      rcases List.mem_cons.mp hmem with rfl | hrest
      · apply foldl_admit_isSome rest
        simp only [admitBlob, hhash, if_pos hmissing, Function.update_self, Option.isSome_some]
      · exact ih hrest

theorem foldl_admit_some {missing : List Hash} {blobs : BlobMap} {candidates : List RawBlob}
    {vh : Hash} {blob : RawBlob}
    (hstored : candidates.foldl (admitBlob versionedHash missing) blobs vh = some blob) :
    blobs vh = some blob ∨ blob ∈ candidates ∧ versionedHash blob = .ok vh := by
  induction candidates generalizing blobs with
  | nil => exact Or.inl hstored
  | cons candidate rest ih =>
      rcases ih hstored with hbefore | ⟨hmem, hhash⟩
      · rcases admitBlob_some hbefore with hold | ⟨rfl, hhash⟩
        · exact Or.inl hold
        · exact Or.inr ⟨List.mem_cons_self, hhash⟩
      · exact Or.inr ⟨List.mem_cons_of_mem _ hmem, hhash⟩

/-- The loop stores a blob under the hash of its own bytes, from an answer of a source. -/
theorem acquireLoop_some {sources : List BlobSource} {blobs : BlobMap} {vh : Hash} {blob : RawBlob}
    (hstored : acquireLoop versionedHash ctx wanted sources blobs vh = some blob) :
    blobs vh = some blob ∨
      versionedHash blob = .ok vh ∧ ∃ source ∈ sources, Offers ctx source blob := by
  induction sources generalizing blobs with
  | nil => exact Or.inl hstored
  | cons source rest ih =>
      simp only [acquireLoop] at hstored
      by_cases hnone : wanted.filter (fun vh => (blobs vh).isNone) = []
      · rw [if_pos hnone] at hstored
        exact Or.inl hstored
      · rw [if_neg hnone] at hstored
        cases hanswer : source ctx (wanted.filter fun vh => (blobs vh).isNone) with
        | error detail =>
            rw [hanswer] at hstored
            rcases ih hstored with hold | ⟨hhash, later, hmem, hoffers⟩
            · exact Or.inl hold
            · exact Or.inr ⟨hhash, later, List.mem_cons_of_mem _ hmem, hoffers⟩
        | ok candidates =>
            rw [hanswer] at hstored
            rcases ih hstored with hbefore | ⟨hhash, later, hmem, hoffers⟩
            · rcases foldl_admit_some hbefore with hold | ⟨hmem, hhash⟩
              · exact Or.inl hold
              · exact Or.inr ⟨hhash, source, List.mem_cons_self, _, candidates, hanswer, hmem⟩
            · exact Or.inr ⟨hhash, later, List.mem_cons_of_mem _ hmem, hoffers⟩

/-- Every hash that is found already or served by some source is found in the end. -/
theorem acquireLoop_isSome {sources : List BlobSource} {blobs : BlobMap}
    (hserved : ∀ vh ∈ wanted, (blobs vh).isSome = true ∨
      ∃ source ∈ sources, Serves versionedHash ctx source vh) :
    ∀ vh ∈ wanted, (acquireLoop versionedHash ctx wanted sources blobs vh).isSome = true := by
  induction sources generalizing blobs with
  | nil =>
      intro vh hwanted
      rcases hserved vh hwanted with hfound | ⟨_, hmem, _⟩
      · exact hfound
      · cases hmem
  | cons source rest ih =>
      have hmissing : ∀ vh ∈ wanted, (blobs vh).isSome = true ∨
          vh ∈ wanted.filter fun vh => (blobs vh).isNone := by
        intro vh hwanted
        cases hblob : blobs vh with
        | some blob => exact Or.inl rfl
        | none => exact Or.inr (List.mem_filter.mpr ⟨hwanted, by rw [hblob]; rfl⟩)
      simp only [acquireLoop]
      by_cases hnone : wanted.filter (fun vh => (blobs vh).isNone) = []
      · rw [if_pos hnone]
        intro vh hwanted
        rcases hmissing vh hwanted with hfound | hmem
        · exact hfound
        · rw [hnone] at hmem
          cases hmem
      · rw [if_neg hnone]
        -- a source that serves a missing hash has answered, and its answer is admitted
        cases hanswer : source ctx (wanted.filter fun vh => (blobs vh).isNone) with
        | error detail =>
            refine ih fun vh hwanted => ?_
            rcases hmissing vh hwanted with hfound | hmem
            · exact Or.inl hfound
            · rcases hserved vh hwanted with hfound | ⟨server, hserver, hserves⟩
              · exact Or.inl hfound
              · rcases List.mem_cons.mp hserver with rfl | hrest
                · obtain ⟨candidates, _, hok, _⟩ := hserves _ hmem
                  rw [hanswer] at hok
                  cases hok
                · exact Or.inr ⟨server, hrest, hserves⟩
        | ok candidates =>
            refine ih fun vh hwanted => ?_
            rcases hmissing vh hwanted with hfound | hmem
            · exact Or.inl (foldl_admit_isSome candidates hfound)
            · rcases hserved vh hwanted with hfound | ⟨server, hserver, hserves⟩
              · exact Or.inl (foldl_admit_isSome candidates hfound)
              · rcases List.mem_cons.mp hserver with rfl | hrest
                · obtain ⟨others, blob, hok, hblob, hhash⟩ := hserves _ hmem
                  rw [hanswer] at hok
                  obtain rfl := Except.ok.inj hok
                  exact Or.inl (foldl_admit_found hmem hblob hhash)
                · exact Or.inr ⟨server, hrest, hserves⟩

/-- A chain that serves every wanted hash acquires them all. -/
theorem acquire_ok {sources : List BlobSource}
    (hserved : ∀ vh ∈ wanted, ∃ source ∈ sources, Serves versionedHash ctx source vh) :
    ∃ blobs, acquire versionedHash ctx wanted sources = .ok blobs := by
  have hserved' : ∀ vh ∈ wanted, ((fun _ => none : BlobMap) vh).isSome = true ∨
      ∃ source ∈ sources, Serves versionedHash ctx source vh :=
    fun vh hwanted => Or.inr (hserved vh hwanted)
  have hfound := acquireLoop_isSome hserved'
  refine ⟨_, if_neg ?_⟩
  rw [Nat.not_lt, Nat.le_zero, List.length_eq_zero_iff, List.filter_eq_nil_iff]
  intro vh hwanted hnone
  have hsome := hfound vh hwanted
  rw [Option.isNone_iff_eq_none.mp hnone] at hsome
  cases hsome

/-- What was acquired: for every wanted hash an offered blob of that hash. -/
theorem acquire_eq_ok {sources : List BlobSource} {blobs : BlobMap}
    (hok : acquire versionedHash ctx wanted sources = .ok blobs) :
    ∀ vh ∈ wanted, ∃ blob, blobs vh = some blob ∧ versionedHash blob = .ok vh ∧
      ∃ source ∈ sources, Offers ctx source blob := by
  unfold acquire at hok
  simp only at hok
  split at hok
  · cases hok
  · rename_i hnone
    obtain rfl := Except.ok.inj hok
    intro vh hwanted
    rw [Nat.not_lt, Nat.le_zero, List.length_eq_zero_iff, List.filter_eq_nil_iff] at hnone
    cases hblob : acquireLoop versionedHash ctx wanted sources (fun _ => none) vh with
    | none => exact absurd (by rw [hblob]; rfl) (hnone vh hwanted)
    | some blob =>
        rcases acquireLoop_some hblob with hold | ⟨hhash, hoffers⟩
        · cases hold
        · exact ⟨blob, rfl, hhash, hoffers⟩

end

end Blobsitter.Daemon
