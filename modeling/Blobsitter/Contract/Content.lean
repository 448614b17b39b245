import Blobsitter.Circuit.Equivalence
import Blobsitter.Contract.Answers

/-!
# Content of an accepted declaration

The contract and the guest build the same preimage from their own data.  When the
verifier accepts only what the guest commits to, and the two preimages do not collide,
the guest has read the very declaration: its blobs are canonical, and the declared
subtree peaks are those of their chunks.
-/

namespace Blobsitter.Contract

open Library
open Reference (Chunk Hash Address NoCollision WellCounted Scalar packed blobElements
  barycentricEval blobPolynomial toBe)
open Circuit (EquivalenceInput equivalence Proves blobScalars)

section

variable {keccak256 : ByteString → Hash} {dep : Deployment} {block : Block} {msg : Msg}

theorem equivalencePublicValues_eq (preimageHash : Hash) (openings : List BlobOpening) :
    equivalencePublicValues preimageHash openings =
      Reference.equivalencePublicValues preimageHash (openings.map BlobOpening.y) := rfl

/-- The verifier accepts only public values that some run of the guest commits. -/
def VerifierSound (keccak256 : ByteString → Hash) (msg : Msg) : Prop :=
  ∀ publicValues proof, msg.verifyProof equivalenceVkey publicValues proof = true →
    ∃ input, equivalence keccak256 input = .ok publicValues

/-- The lengths in an accepted declaration are those its leaf counts determine. -/
theorem DeclareAccepted.wellCounted {s : Storage} {d : Declaration} {publisherSig : ByteString}
    {openings : List BlobOpening} {equivalenceProof : ByteString} {out : Outcome}
    (haccepted : DeclareAccepted keccak256 dep block msg s d publisherSig openings equivalenceProof
      out) (hfits : d.newLeafCount < 2 ^ 64) :
    WellCounted d.blobVersionedHashes d.newSubtreePeaks s.leafCount d.newLeafCount := by
  have hgrows := haccepted.grows
  obtain ⟨heights, hheights, hlen, _⟩ := haccepted.subtreeCount
  rw [MMR.decompose_eq_heights (by omega)] at hheights
  obtain rfl := Except.ok.inj hheights
  exact ⟨hgrows, hfits, haccepted.blobCount, hlen⟩

/-- The guest read this declaration, against this storage. -/
structure ReadBy (keccak256 : ByteString → Hash) (dep : Deployment) (msg : Msg) (s : Storage)
    (d : Declaration) (openings : List BlobOpening) (input : EquivalenceInput)
    (chunks : List Chunk) : Prop where
  instanceAddress : input.instanceAddress = dep.self
  blobVersionedHashes : input.blobVersionedHashes = d.blobVersionedHashes
  priorPeaks : input.priorPeaks = s.peaks
  priorLeafCount : input.priorLeafCount = s.leafCount
  newLeafCount : input.newLeafCount = d.newLeafCount
  count : chunks.length = d.newLeafCount - s.leafCount
  canonical : Reference.pack chunks = .ok input.blobs
  subtreePeaks : Reference.updateSubtreeRoots keccak256 s.leafCount chunks = .ok d.newSubtreePeaks
  opened : ∀ j < openings.length, ∃ vh o blob, d.blobVersionedHashes[j]? = some vh ∧
    openings[j]? = some o ∧ input.blobs[j]? = some blob ∧
    msg.pointEvaluation (openingInput vh (reduceModulus (fsPreimageHash keccak256 dep
      d.blobVersionedHashes s.peaks d.newSubtreePeaks s.leafCount d.newLeafCount)) o) = true ∧
    barycentricEval (blobElements blob) (reduceModulus (fsPreimageHash keccak256 dep
      d.blobVersionedHashes s.peaks d.newSubtreePeaks s.leafCount d.newLeafCount)) = .ok o.y ∧
    o.y = toBe ((blobPolynomial (blobScalars blob)).eval (wordNat (reduceModulus
      (fsPreimageHash keccak256 dep d.blobVersionedHashes s.peaks d.newSubtreePeaks s.leafCount
        d.newLeafCount)) : Scalar))

/-- Equal preimages make the guest's input the declaration. -/
theorem readBy_of_preimage {s : Storage} {d : Declaration} {publisherSig : ByteString}
    {openings : List BlobOpening} {equivalenceProof : ByteString} {out : Outcome}
    {input : EquivalenceInput} {publicValues : ByteString} {chunks : List Chunk}
    {subtrees : List Hash}
    (haccepted : DeclareAccepted keccak256 dep block msg s d publisherSig openings equivalenceProof
      out) (hfits : d.newLeafCount < 2 ^ 64)
    (hproves : Proves keccak256 input publicValues chunks subtrees (openings.map BlobOpening.y))
    (hpreimage : input.preimage subtrees = fsPreimage dep d.blobVersionedHashes s.peaks
      d.newSubtreePeaks s.leafCount d.newLeafCount) :
    ReadBy keccak256 dep msg s d openings input chunks := by
  obtain ⟨haddress, hhashes, hpeaks, hroots, hprior, hnew⟩ :=
    Reference.fsZPreimage_inj hproves.counted (haccepted.wellCounted hfits) hpreimage
  have hcount := hproves.count
  have hsubtrees := hproves.roots
  rw [hprior, hnew] at hcount
  rw [hprior, hroots] at hsubtrees
  have hlength : openings.length = input.blobs.length := by
    have hys := (mapM_eq_ok hproves.evaluated).1
    rw [List.length_map] at hys
    exact hys
  refine ⟨haddress, hhashes, hpeaks, hprior, hnew, hcount, ?_, hsubtrees, ?_⟩
  · rw [Reference.pack_eq, hproves.canonical]
  · intro j hj
    obtain ⟨vh, o, hvh, ho, haccept⟩ := haccepted.opened j hj
    obtain ⟨blob, hblob⟩ : ∃ blob, input.blobs[j]? = some blob :=
      ⟨_, List.getElem?_eq_getElem (hlength ▸ hj)⟩
    have hy := hproves.evaluation hblob
    obtain ⟨y, hy', heval⟩ := (mapM_eq_ok hproves.evaluated).2 j _ hblob
    rw [List.getElem?_map, ho, Option.map_some] at hy hy'
    rw [hpreimage] at hy heval
    obtain rfl := Option.some.inj hy'
    exact ⟨vh, o, blob, hvh, ho, hblob, haccept, heval, Option.some.inj hy⟩

/-- Behind every accepted declaration there is a run of the guest; and every run that
commits its public values, without a collision of the two preimages, has read this
declaration.  No other declaration has its preimage. -/
theorem content_sound {chain : Chain} {d : Declaration} {publisherSig : ByteString}
    {openings : List BlobOpening} {equivalenceProof : ByteString} {out : Outcome}
    (haccepted : Accepted keccak256 dep block chain msg
      (.declareFor d publisherSig openings equivalenceProof) out)
    (hverifier : VerifierSound keccak256 msg) :
    (∃ input, equivalence keccak256 input = .ok (equivalencePublicValues
      (fsPreimageHash keccak256 dep d.blobVersionedHashes chain.store.peaks d.newSubtreePeaks
        chain.store.leafCount d.newLeafCount) openings)) ∧
    (∀ input, equivalence keccak256 input = .ok (equivalencePublicValues
        (fsPreimageHash keccak256 dep d.blobVersionedHashes chain.store.peaks d.newSubtreePeaks
          chain.store.leafCount d.newLeafCount) openings) →
      ∃ chunks subtrees, chunks.length = input.newLeafCount - input.priorLeafCount ∧
        input.blobs = packed chunks ∧
        Reference.updateSubtreeRoots keccak256 input.priorLeafCount chunks = .ok subtrees ∧
        (NoCollision keccak256 {fsPreimage dep d.blobVersionedHashes chain.store.peaks
            d.newSubtreePeaks chain.store.leafCount d.newLeafCount} {input.preimage subtrees} →
          ReadBy keccak256 dep msg chain.store d openings input chunks)) ∧
    ∀ account hashes peaks roots n0 n1, WellCounted hashes roots n0 n1 →
      Reference.fsZPreimage account hashes peaks roots n0 n1 =
        fsPreimage dep d.blobVersionedHashes chain.store.peaks d.newSubtreePeaks
          chain.store.leafCount d.newLeafCount →
      account = dep.self ∧ hashes = d.blobVersionedHashes ∧ peaks = chain.store.peaks ∧
        roots = d.newSubtreePeaks ∧ n0 = chain.store.leafCount ∧ n1 = d.newLeafCount := by
  obtain ⟨hrange, _⟩ := dispatch_change haccepted.dispatched
  have hdispatched := haccepted.dispatched
  simp only [dispatch, bind_eq_ok, revertIf_eq_ok] at hdispatched
  obtain ⟨_, _, hbody⟩ := hdispatched
  obtain ⟨hdeclared, _⟩ := declareFor_accepted hbody
  have hfits : d.newLeafCount < 2 ^ 64 := by
    simp only [Call.inRange, Bool.and_eq_true, decide_eq_true_eq] at hrange
    exact hrange.2
  refine ⟨hverifier _ _ hdeclared.proven, ?_, ?_⟩
  · intro input hok
    obtain ⟨chunks, subtrees, ys, hproves⟩ := Circuit.equivalence_eq_ok hok
    refine ⟨chunks, subtrees, hproves.count, hproves.canonical, hproves.roots, ?_⟩
    intro hfree
    have hcommitted := hproves.committed
    rw [equivalencePublicValues_eq] at hcommitted
    obtain ⟨hhash, rfl⟩ := Reference.equivalencePublicValues_inj hcommitted
    exact readBy_of_preimage hdeclared hfits hproves (hfree _ rfl _ rfl hhash).symm
  · intro account hashes peaks roots n0 n1 hcounted heq
    exact Reference.fsZPreimage_inj hcounted (hdeclared.wellCounted hfits) heq

end

/-! ## The zero declaration, proved -/

/-- The public values of the zero declaration. -/
def zeroPublicValues : ByteString :=
  equivalencePublicValues (fsPreimageHash Keccak.keccak256 sampleDeployment
    zeroDeclaration.blobVersionedHashes [] zeroDeclaration.newSubtreePeaks 0 1) [⟨zeroHash, [], []⟩]

/-- A carrier's transaction whose verifier accepts these public values only. -/
def provenMsg : Msg :=
  { carrierMsg with verifyProof := fun _ publicValues _ => decide (publicValues = zeroPublicValues) }

def zeroInput : EquivalenceInput where
  instanceAddress := sampleDeployment.self
  blobVersionedHashes := zeroDeclaration.blobVersionedHashes
  priorPeaks := []
  priorLeafCount := 0
  newLeafCount := 1
  blobs := packed [zeroStream 0]
  priorFits := zero_fits
  newFits := one_fits

theorem zeroChunk_element : Reference.chunkElement (zeroStream 0) = Reference.zeroElement := rfl

/-- The blob of the zero chunk is zero everywhere. -/
theorem zeroBlob_eval {blob : ByteString} (hblob : blob ∈ packed [zeroStream 0]) (z : Scalar) :
    toBe ((blobPolynomial (blobScalars blob)).eval z) = zeroHash := by
  have hpacked : packed [zeroStream 0] = [Reference.packSlice [zeroStream 0]] :=
    Reference.packed_cons (List.cons_ne_nil _ _)
  rw [hpacked, List.mem_singleton] at hblob
  subst hblob
  have hvalues : ∀ i, (blobScalars (Reference.packSlice [zeroStream 0])).getD i 0 = 0 := by
    intro i
    rw [blobScalars, Reference.packSlice_elements, List.map_singleton, zeroChunk_element,
      List.getD_eq_getElem?_getD, List.getElem?_map]
    cases helement : ([Reference.zeroElement] ++ List.replicate
        (Reference.fieldElementsPerBlob - [zeroStream 0].length) Reference.zeroElement)[i]? with
    | none => rfl
    | some element =>
        have hzero : element = Reference.zeroElement := by
          rcases List.mem_append.mp (List.mem_of_getElem? helement) with hfirst | hrest
          · exact List.mem_singleton.mp hfirst
          · exact List.eq_of_mem_replicate hrest
        rw [Option.map_some, Option.getD_some, hzero, Reference.wordNat_zeroElement, Nat.cast_zero]
  have hzero : blobPolynomial (blobScalars (Reference.packSlice [zeroStream 0])) = 0 := by
    rw [blobPolynomial]
    simp only [hvalues]
    exact map_zero _
  rw [hzero, Polynomial.eval_zero, toBe, ZMod.val_zero]
  rfl

theorem zeroInput_proved : equivalence Keccak.keccak256 zeroInput = .ok zeroPublicValues := by
  obtain ⟨subtrees, hroots, hok⟩ := @Circuit.equivalence_honest Keccak.keccak256 zeroInput
    [zeroStream 0] (by decide) rfl rfl rfl
  obtain rfl : zeroDeclaration.newSubtreePeaks = subtrees := Except.ok.inj hroots
  rw [hok]
  have hys : ∀ z : Scalar, zeroInput.blobs.map (fun blob =>
      toBe ((blobPolynomial (blobScalars blob)).eval z)) = [zeroHash] := by
    intro z
    have hone : (packed [zeroStream 0]).length = 1 := Reference.packed_length _
    change (packed [zeroStream 0]).map _ = _
    rw [List.map_congr_left fun blob hmem => zeroBlob_eval hmem z, List.map_const', hone]
    rfl
  rw [hys]
  rfl

theorem provenMsg_verifyProof (vkey : Hash) (publicValues proof : ByteString) :
    provenMsg.verifyProof vkey publicValues proof = decide (publicValues = zeroPublicValues) := rfl

set_option maxRecDepth 10000 in
theorem provenMsg_accepted : ∃ out, Accepted Keccak.keccak256 sampleDeployment stakeBlock
    stakedWorld.state provenMsg (.declareFor zeroDeclaration [] [⟨zeroHash, [], []⟩] []) out := by
  have hpeaks : stakedWorld.state.store.peaks = [] := rfl
  have hcount : stakedWorld.state.store.leafCount = 0 := rfl
  have hheights : MMR.decompose stakedWorld.state.store.leafCount 1 = .ok [0] := rfl
  have hhashes : checkBlobHashes provenMsg zeroDeclaration.blobVersionedHashes 1 0 = .ok () := rfl
  have hextra : provenMsg.blobhash 1 = zeroHash := rfl
  have hopened : ∀ z, checkOpenings provenMsg zeroDeclaration.blobVersionedHashes z
      [⟨zeroHash, [], []⟩] 1 0 = .ok () := fun _ => rfl
  have hproven : provenMsg.verifyProof equivalenceVkey (equivalencePublicValues
      (fsPreimageHash Keccak.keccak256 sampleDeployment zeroDeclaration.blobVersionedHashes
        stakedWorld.state.store.peaks zeroDeclaration.newSubtreePeaks
        stakedWorld.state.store.leafCount zeroDeclaration.newLeafCount) [⟨zeroHash, [], []⟩]) [] =
      true := by
    rw [hpeaks, hcount, provenMsg_verifyProof, decide_eq_true_eq]
    rfl
  have happly : MMR.applyUpdate Keccak.keccak256 stakedWorld.state.store.peaks
      stakedWorld.state.store.leafCount zeroDeclaration.newSubtreePeaks [0] =
        .ok (zeroDeclaration.newSubtreePeaks, 1) := rfl
  have hmagic : ¬(erc1271Magic.length < 32 ∨ erc1271Magic.take 32 ≠ erc1271Magic) := by
    decide +kernel
  have hsignature : ∀ digest, requireValidSignature provenMsg digest [] = .ok () :=
    fun _ => revertIf_ok hmagic
  have hamount : reimbursement sampleDeployment stakeBlock provenMsg 1 true = .ok 177072 := by
    decide +kernel
  have hbody := declareFor_ok rfl (by decide) rfl (Or.inl rfl) (hsignature _) rfl Nat.one_pos rfl rfl
    hhashes hextra hheights rfl (hopened _) hproven happly (by decide) (by decide) hamount
  have hguard : ¬((Call.declareFor zeroDeclaration [] [⟨zeroHash, [], []⟩] []).inRange = false ∨
      (Call.declareFor zeroDeclaration [] [⟨zeroHash, [], []⟩] []).payable = false ∧
        provenMsg.value ≠ 0) := by
    decide
  refine ⟨_, by decide, by decide, Eq.trans ?_ hbody⟩
  rw [dispatch, revertIf_ok hguard, ok_bind]

/-- The guest has read the zero chunk. -/
theorem content_sound_zero : ReadBy Keccak.keccak256 sampleDeployment provenMsg
    stakedWorld.state.store zeroDeclaration [⟨zeroHash, [], []⟩] zeroInput [zeroStream 0] := by
  obtain ⟨out, haccepted⟩ := provenMsg_accepted
  have hverifier : VerifierSound Keccak.keccak256 provenMsg := by
    intro publicValues proof hok
    rw [provenMsg_verifyProof, decide_eq_true_eq] at hok
    rw [hok]
    exact ⟨zeroInput, zeroInput_proved⟩
  obtain ⟨chunks, subtrees, hcount, hpacked, hroots, hread⟩ :=
    (content_sound haccepted hverifier).2.1 zeroInput zeroInput_proved
  have hblobs : zeroInput.blobs.length = (1 + 4095) / 4096 := Reference.packed_length _
  have hzero : Circuit.readChunks 1 zeroInput.blobs = .ok [zeroStream 0] :=
    (Circuit.readChunks_eq_ok hblobs).mpr ⟨rfl, rfl⟩
  obtain rfl : [zeroStream 0] = chunks := by
    rw [(Circuit.readChunks_eq_ok hblobs).mpr ⟨hcount, hpacked⟩] at hzero
    exact (Except.ok.inj hzero).symm
  obtain rfl : zeroDeclaration.newSubtreePeaks = subtrees := Except.ok.inj hroots
  refine hread ?_
  rintro x rfl y rfl _
  rfl

end Blobsitter.Contract
