import Blobsitter.Reference.Hashing

/-!
# Blobs

A chunk fills one field element of a blob, behind a zero high byte; chunks fill the
blobs of an update without gaps, and the rest is zero.  Packing and reading back are
inverse to each other.
-/

namespace Blobsitter.Reference

open Library

def fieldElementsPerBlob : Nat := 4096

def blobBytes : Nat := fieldElementsPerBlob * 32

def zeroElement : Hash := Vector.replicate 32 0

/-- Field element of a chunk: byte 0 zero, bytes 1..31 the chunk. -/
def chunkElement (chunk : Chunk) : Hash := wordOf 32 (0 :: chunk.toList)

def elementsFromChunks (chunks : List Chunk) : Except Fault (List Hash) :=
  if chunks.length ≤ fieldElementsPerBlob then
    .ok (chunks.map chunkElement ++
      List.replicate (fieldElementsPerBlob - chunks.length) zeroElement)
  else .error (.panic "assertion failed: chunks.len() <= FIELD_ELEMENTS_PER_BLOB")

/-- `slice::chunks`; a slice of `length` elements has at most that many. -/
def sliceChunks {α : Type} (size : Nat) : Nat → List α → List (List α)
  | 0, _ => []
  | fuel + 1, xs =>
      if xs.length = 0 then [] else xs.take size :: sliceChunks size fuel (xs.drop size)

/-- Packs an update's chunks into canonical raw blobs. -/
def pack (chunks : List Chunk) : Except Fault (List ByteString) :=
  (sliceChunks fieldElementsPerBlob chunks.length chunks).mapM fun slice => do
    let elements ← elementsFromChunks slice
    return packWords elements

/-- The field elements of a raw blob. -/
def blobElements (blob : ByteString) : List Hash := splitWords 32 blob

section

variable {ε : Type} (highByte trailing : Nat → ε)

/-- The chunks of one blob, whose first element is element `u` of the update: byte 0 of
every data element is zero, elements past the data are zero. -/
def readElements (m : Nat) : List Hash → Nat → Except ε (List Chunk)
  | [], _ => .ok []
  | element :: rest, u =>
      if u < m then
        if element[0] ≠ 0 then .error (highByte u)
        else do
          let chunks ← readElements m rest (u + 1)
          return wordOf 31 (element.toList.drop 1) :: chunks
      else if element.toList.any (· ≠ 0) then .error (trailing u)
      else readElements m rest (u + 1)

/-- The chunks of all blobs, from blob `j` on. -/
def readBlobs (m : Nat) (checkSize : ByteString → Except ε Unit) :
    List ByteString → Nat → Except ε (List Chunk)
  | [], _ => .ok []
  | blob :: rest, j => do
      checkSize blob
      let chunks ← readElements highByte trailing m (blobElements blob) (j * fieldElementsPerBlob)
      let others ← readBlobs m checkSize rest (j + 1)
      return chunks ++ others

end

/-! ## Packing and reading are inverse -/

theorem chunkElement_toList (chunk : Chunk) : (chunkElement chunk).toList = 0 :: chunk.toList :=
  wordOf_toList (by rw [List.length_cons, Vector.length_toList])

theorem chunkElement_high (chunk : Chunk) : (chunkElement chunk)[0] = 0 := by
  simp [chunkElement, wordOf]

theorem wordOf_chunkElement (chunk : Chunk) :
    wordOf 31 ((chunkElement chunk).toList.drop 1) = chunk := by
  rw [chunkElement_toList, List.drop_one, List.tail_cons, toList_wordOf]

theorem chunkElement_wordOf {element : Hash} (hhigh : element[0] = 0) :
    chunkElement (wordOf 31 (element.toList.drop 1)) = element := by
  apply word_ext
  have hlen : (element.toList.drop 1).length = 31 := by simp
  have hpos : 0 < element.toList.length := by simp
  rw [chunkElement_toList, wordOf_toList hlen, ← hhigh, ← Vector.getElem_toList hpos,
    List.getElem_cons_drop, List.drop_zero]

theorem wordNat_zeroElement : wordNat zeroElement = 0 := rfl

theorem eq_zeroElement {element : Hash} :
    element = zeroElement ↔ element.toList.any (· ≠ 0) = false := by
  rw [List.any_eq_false]
  constructor
  · rintro rfl byte hmem
    have hzero : byte = 0 := by
      rw [zeroElement, Vector.toList_replicate] at hmem
      exact List.eq_of_mem_replicate hmem
    simp [hzero]
  · intro hall
    apply word_ext
    rw [zeroElement, Vector.toList_replicate]
    refine List.eq_replicate_iff.mpr ⟨Vector.length_toList, ?_⟩
    intro byte hmem
    simpa using hall byte hmem

section

variable {ε : Type} {highByte trailing : Nat → ε}

theorem readElements_eq_ok {m u : Nat} {elements : List Hash} {chunks : List Chunk} :
    readElements highByte trailing m elements u = .ok chunks ↔
      chunks.length = min elements.length (m - u) ∧
        elements = chunks.map chunkElement ++
          List.replicate (elements.length - chunks.length) zeroElement := by
  induction elements generalizing u chunks with
  | nil =>
      rw [readElements, List.length_nil, Nat.zero_min]
      constructor
      · intro heq
        cases heq
        exact ⟨rfl, rfl⟩
      · rintro ⟨hlen, _⟩
        rw [List.eq_nil_of_length_eq_zero hlen]
  | cons element rest ih =>
      rw [readElements]
      by_cases hdata : u < m
      · rw [if_pos hdata]
        constructor
        · intro hok
          split at hok
          · cases hok
          · rename_i hhigh
            obtain ⟨others, hrest, hok⟩ := bind_eq_ok.mp hok
            obtain rfl := pure_eq_ok.mp hok
            obtain ⟨hlen, helements⟩ := ih.mp hrest
            refine ⟨?_, ?_⟩
            · rw [List.length_cons, List.length_cons, hlen]
              omega
            · rw [List.map_cons, chunkElement_wordOf (not_not.mp hhigh), List.length_cons,
                List.length_cons, Nat.add_sub_add_right, List.cons_append, ← helements]
        · rintro ⟨hlen, helements⟩
          cases chunks with
          | nil =>
              rw [List.length_nil, List.length_cons] at hlen
              omega
          | cons chunk others =>
              rw [List.length_cons, List.length_cons] at hlen
              rw [List.length_cons, List.length_cons, Nat.add_sub_add_right, List.map_cons,
                List.cons_append] at helements
              obtain ⟨rfl, hrest⟩ := List.cons.inj helements
              have hothers := (@ih (u + 1) others).mpr ⟨by omega, hrest⟩
              rw [if_neg (not_not_intro (chunkElement_high chunk)), hothers]
              simp only [bind, Except.bind, wordOf_chunkElement]
              rfl
      · rw [if_neg hdata]
        constructor
        · intro hok
          split at hok
          · cases hok
          · rename_i hzero
            rw [Bool.not_eq_true] at hzero
            obtain ⟨hlen, helements⟩ := ih.mp hok
            have hnone : chunks.length = 0 := by omega
            obtain rfl := List.eq_nil_of_length_eq_zero hnone
            refine ⟨by omega, ?_⟩
            rw [List.length_nil, List.map_nil, Nat.sub_zero, List.nil_append] at helements ⊢
            rw [List.length_cons, List.replicate_succ, ← helements, ← eq_zeroElement.mpr hzero]
        · rintro ⟨hlen, helements⟩
          have hnone : chunks.length = 0 := by omega
          obtain rfl := List.eq_nil_of_length_eq_zero hnone
          rw [List.length_nil, List.map_nil, Nat.sub_zero, List.nil_append, List.length_cons,
            List.replicate_succ] at helements
          obtain ⟨hzero, hrest⟩ := List.cons.inj helements
          rw [if_neg (by rw [eq_zeroElement.mp hzero]; exact Bool.false_ne_true)]
          refine ih.mpr ⟨?_, ?_⟩
          · rw [List.length_nil]
            omega
          · rw [List.length_nil, List.map_nil, Nat.sub_zero, List.nil_append]
            exact hrest

end

/-- One blob of packed chunks. -/
def packSlice (slice : List Chunk) : ByteString :=
  packWords (slice.map chunkElement ++
    List.replicate (fieldElementsPerBlob - slice.length) zeroElement)

/-- The blobs of an update. -/
def packed (chunks : List Chunk) : List ByteString :=
  (sliceChunks fieldElementsPerBlob chunks.length chunks).map packSlice

theorem sliceChunks_fuel {α : Type} {size fuel fuel' : Nat} (hsize : 0 < size) {xs : List α}
    (hfuel : xs.length ≤ fuel) (hfuel' : xs.length ≤ fuel') :
    sliceChunks size fuel xs = sliceChunks size fuel' xs := by
  induction fuel generalizing fuel' xs with
  | zero =>
      obtain rfl := List.eq_nil_of_length_eq_zero (Nat.le_zero.mp hfuel)
      cases fuel' with
      | zero => rfl
      | succ fuel' => rfl
  | succ fuel ih =>
      cases xs with
      | nil =>
          cases fuel' with
          | zero => rfl
          | succ fuel' => rfl
      | cons x rest =>
          obtain ⟨fuel', rfl⟩ := Nat.exists_eq_add_one_of_ne_zero (n := fuel')
            (by rw [List.length_cons] at hfuel'; omega)
          rw [List.length_cons] at hfuel hfuel'
          have hdrop : ((x :: rest).drop size).length ≤ rest.length := by
            rw [List.length_drop, List.length_cons]
            omega
          have hsome : (x :: rest).length ≠ 0 := Nat.succ_ne_zero _
          rw [sliceChunks, sliceChunks, if_neg hsome, if_neg hsome,
            ih (hdrop.trans (Nat.le_of_succ_le_succ hfuel)) (hdrop.trans (Nat.le_of_succ_le_succ hfuel'))]

theorem packed_cons {chunks : List Chunk} (hsome : chunks ≠ []) :
    packed chunks = packSlice (chunks.take fieldElementsPerBlob) ::
      packed (chunks.drop fieldElementsPerBlob) := by
  have hsize : 0 < fieldElementsPerBlob := by decide
  obtain ⟨count, hcount⟩ := Nat.exists_eq_succ_of_ne_zero fun hzero =>
    hsome (List.eq_nil_of_length_eq_zero hzero)
  have hdrop : (chunks.drop fieldElementsPerBlob).length ≤ count := by
    rw [List.length_drop, hcount]
    omega
  rw [packed, hcount, sliceChunks, if_neg (by rw [hcount]; exact Nat.succ_ne_zero _), List.map_cons,
    sliceChunks_fuel hsize hdrop le_rfl]
  rfl

theorem packed_length (chunks : List Chunk) : (packed chunks).length = (chunks.length + 4095) / 4096 := by
  induction hlen : chunks.length using Nat.strong_induction_on generalizing chunks with
  | _ length ih =>
      cases chunks with
      | nil =>
          rw [← hlen]
          rfl
      | cons chunk rest =>
          have hwidth : fieldElementsPerBlob = 4096 := rfl
          rw [List.length_cons] at hlen
          have hrest := ih _ (by rw [List.length_drop, List.length_cons]; omega)
            ((chunk :: rest).drop fieldElementsPerBlob) rfl
          rw [packed_cons (List.cons_ne_nil chunk rest), List.length_cons, hrest, List.length_drop,
            List.length_cons]
          omega

/-- A full first blob, or a last one, splits off. -/
theorem packed_append {first others : List Chunk} (hsome : first ≠ [])
    (hfits : first.length ≤ fieldElementsPerBlob)
    (hfull : first.length = fieldElementsPerBlob ∨ others = []) :
    packed (first ++ others) = packSlice first :: packed others := by
  rw [packed_cons (List.append_ne_nil_of_left_ne_nil hsome others)]
  rcases hfull with hfull | rfl
  · rw [List.take_left' hfull, List.drop_left' hfull]
  · rw [List.append_nil, List.take_of_length_le hfits, List.drop_of_length_le hfits]

theorem sliceChunks_length_le {α : Type} {size fuel : Nat} {xs slice : List α}
    (hmem : slice ∈ sliceChunks size fuel xs) : slice.length ≤ size := by
  induction fuel generalizing xs with
  | zero => cases hmem
  | succ fuel ih =>
      rw [sliceChunks] at hmem
      split at hmem
      · cases hmem
      · rcases List.mem_cons.mp hmem with rfl | hrest
        · exact List.length_take_le _ _
        · exact ih hrest

/-- Packing never fails. -/
theorem pack_eq (chunks : List Chunk) : pack chunks = .ok (packed chunks) := by
  apply mapM_eq_ok_map
  intro slice hmem
  rw [elementsFromChunks, if_pos (sliceChunks_length_le hmem), ok_bind]
  rfl

theorem packSlice_elements {slice : List Chunk} :
    blobElements (packSlice slice) = slice.map chunkElement ++
      List.replicate (fieldElementsPerBlob - slice.length) zeroElement :=
  splitWords_packWords (by decide) _

theorem packSlice_length {slice : List Chunk} (hfits : slice.length ≤ fieldElementsPerBlob) :
    (packSlice slice).length = blobBytes := by
  rw [packSlice, packWords_length, List.length_append, List.length_map, List.length_replicate,
    Nat.add_sub_cancel' hfits, blobBytes, Nat.mul_comm]

/-- Element `i` of a packed blob is a chunk's, or zero past the chunks. -/
theorem packSlice_element {slice : List Chunk} {i : Nat} (hi : i < fieldElementsPerBlob) :
    ∃ element : Hash, ((packSlice slice).drop (i * 32)).take 32 = element.toList ∧
      element[0] = 0 ∧ (slice.length ≤ i → element = zeroElement) := by
  by_cases hdata : i < slice.length
  · refine ⟨chunkElement slice[i], packWords_slice ?_, chunkElement_high _, fun hpast => ?_⟩
    · rw [List.getElem?_append_left (by rw [List.length_map]; exact hdata), List.getElem?_map,
        List.getElem?_eq_getElem hdata, Option.map_some]
    · omega
  · refine ⟨zeroElement, packWords_slice ?_, rfl, fun _ => rfl⟩
    rw [List.getElem?_append_right (by rw [List.length_map]; omega), List.length_map,
      List.getElem?_replicate, if_pos (by omega)]

section

variable {ε : Type} {highByte trailing : Nat → ε}

/-- One blob reads back as chunks exactly when it is their packing. -/
theorem readElements_blob {m u : Nat} {blob : ByteString} {chunks : List Chunk}
    (hsize : blob.length = blobBytes) :
    readElements highByte trailing m (blobElements blob) u = .ok chunks ↔
      chunks.length = min fieldElementsPerBlob (m - u) ∧ blob = packSlice chunks := by
  have hlen : (blobElements blob).length = fieldElementsPerBlob :=
    splitWords_length (by decide) (by rw [hsize, blobBytes, Nat.mul_comm])
  rw [readElements_eq_ok, hlen]
  refine and_congr_right fun _ => ?_
  constructor
  · intro helements
    rw [packSlice, ← helements]
    exact (packWords_splitWords (by decide) (by rw [hsize, blobBytes, Nat.mul_comm])).symm
  · rintro rfl
    exact packSlice_elements

/-- The blobs of an update read back as chunks exactly when they are their packing. -/
theorem readBlobs_eq_ok {m j : Nat} {checkSize : ByteString → Except ε Unit}
    {blobs : List ByteString}
    (hsize : ∀ blob ∈ blobs, checkSize blob = .ok () ↔ blob.length = blobBytes)
    (hcount : blobs.length = (m - j * fieldElementsPerBlob + 4095) / 4096) {chunks : List Chunk} :
    readBlobs highByte trailing m checkSize blobs j = .ok chunks ↔
      chunks.length = m - j * fieldElementsPerBlob ∧ blobs = packed chunks := by
  have hwidth : fieldElementsPerBlob = 4096 := rfl
  induction blobs generalizing j chunks with
  | nil =>
      rw [List.length_nil] at hcount
      have hnone : m - j * fieldElementsPerBlob = 0 := by omega
      rw [readBlobs, hnone]
      constructor
      · intro heq
        cases heq
        exact ⟨rfl, rfl⟩
      · rintro ⟨hlen, _⟩
        rw [List.eq_nil_of_length_eq_zero hlen]
  | cons blob rest ih =>
      rw [List.length_cons] at hcount
      have hsizeRest := fun later hmem => hsize later (List.mem_cons_of_mem blob hmem)
      have hnext : (j + 1) * fieldElementsPerBlob = j * fieldElementsPerBlob + 4096 := by
        rw [Nat.succ_mul, hwidth]
      have hrestCount : rest.length = (m - (j + 1) * fieldElementsPerBlob + 4095) / 4096 := by
        rw [hnext]
        omega
      have hsome : 0 < m - j * fieldElementsPerBlob := by omega
      rw [readBlobs]
      constructor
      · intro hok
        obtain ⟨_, hcheck, hok⟩ := bind_eq_ok.mp hok
        obtain ⟨first, hfirst, hok⟩ := bind_eq_ok.mp hok
        obtain ⟨others, hothers, hok⟩ := bind_eq_ok.mp hok
        obtain rfl := pure_eq_ok.mp hok
        have hblob := (hsize blob List.mem_cons_self).mp hcheck
        obtain ⟨hfirstLen, rfl⟩ := (readElements_blob hblob).mp hfirst
        obtain ⟨hothersLen, rfl⟩ := (ih hsizeRest hrestCount).mp hothers
        rw [hnext] at hothersLen
        refine ⟨by rw [List.length_append]; omega, ?_⟩
        rw [packed_append]
        · rintro rfl
          rw [List.length_nil] at hfirstLen
          omega
        · omega
        · rcases Nat.lt_or_ge first.length fieldElementsPerBlob with hshort | hfull
          · exact Or.inr (List.eq_nil_of_length_eq_zero (by omega))
          · exact Or.inl (by omega)
      · rintro ⟨hlen, hpacked⟩
        have hne : chunks ≠ [] := by
          rintro rfl
          rw [List.length_nil] at hlen
          omega
        rw [packed_cons hne] at hpacked
        obtain ⟨rfl, rfl⟩ := List.cons.inj hpacked
        have htake : (chunks.take fieldElementsPerBlob).length ≤ fieldElementsPerBlob :=
          List.length_take_le _ _
        have hblob := packSlice_length htake
        have hfirst := (@readElements_blob _ highByte trailing m (j * fieldElementsPerBlob) _
          (chunks.take fieldElementsPerBlob) hblob).mpr ⟨by rw [List.length_take, hlen], rfl⟩
        have hothers := (@ih (j + 1) hsizeRest hrestCount (chunks.drop fieldElementsPerBlob)).mpr
          ⟨by rw [List.length_drop, hlen]; omega, rfl⟩
        simp only [(hsize _ List.mem_cons_self).mpr hblob, hfirst, hothers, bind, Except.bind]
        change Except.ok _ = _
        rw [List.take_append_drop]

end

end Blobsitter.Reference
