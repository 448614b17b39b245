import Blobsitter.Contract.Declarations

/-!
# What the event log rebuilds

The invariants of publication at one reachable state: the log has the whole dataset,
every accepted intent takes the next nonce of its space, and no declaration is ever
stopped by a panic of the contract's own arithmetic on the dataset.
-/

namespace Blobsitter.Contract

open Library
open Reference (Chunk Hash Address updateHeights peakHeights)

/-- The next nonces of the three intent spaces. -/
def Storage.nonces (s : Storage) : Nat × Nat × Nat :=
  (s.declarationNonce, s.appPointerNonce, s.successorNonce)

section

variable {keccak256 : ByteString → Hash} {dep : Deployment} {block : Block} {msg : Msg}
variable {s : Storage}

theorem Storage.SamePublication.nonces {next : Storage} (hsame : s.SamePublication next) :
    next.nonces = s.nonces := by
  rw [Storage.nonces, hsame.declarationNonce, hsame.appPointerNonce, hsame.successorNonce]
  rfl

theorem setAppPointer_nonces {nonce deadline : Nat} {pointer : Hash} {sig : ByteString}
    {out : Outcome}
    (hok : setAppPointer keccak256 dep block msg s nonce deadline pointer sig = .ok out) :
    out.storage.nonces = s.nonces + (0, 1, 0) := by
  simp only [setAppPointer, bind_eq_ok, revertIf_eq_ok, orPanic_eq_ok, checkedAdd_eq_ok,
    pure_eq_ok] at hok
  obtain ⟨_, _, _, _, _, hnonce, _, _, _, ⟨_, rfl⟩, amount, _, rfl⟩ := hok
  obtain rfl := not_not.mp hnonce
  rfl

theorem setSuccessor_nonces {nonce deadline : Nat} {target : Address} {sig : ByteString}
    {out : Outcome}
    (hok : setSuccessor keccak256 dep block msg s nonce deadline target sig = .ok out) :
    out.storage.nonces = s.nonces + (0, 0, 1) := by
  simp only [setSuccessor, bind_eq_ok, revertIf_eq_ok, orPanic_eq_ok, checkedAdd_eq_ok,
    pure_eq_ok] at hok
  obtain ⟨_, _, _, _, _, hnonce, _, _, _, _, _, _, _, ⟨_, rfl⟩, amount, _, rfl⟩ := hok
  obtain rfl := not_not.mp hnonce
  rfl

/-- An accepted call moves the nonce of its own space by one, and no other. -/
theorem dispatch_nonces {call : Call} {out : Outcome}
    (hok : dispatch keccak256 dep block msg s call = .ok out) :
    out.storage.nonces = s.nonces + call.intents := by
  have hchange := (dispatch_change hok).2
  rcases hchange.publication with ⟨d, publisherSig, openings, equivalenceProof, rfl, haccepted⟩ |
    ⟨hcall, _⟩ | ⟨hsame, hintents, _⟩
  · obtain ⟨hpointer, hsuccessor, _⟩ := haccepted.otherNonces
    rw [Storage.nonces, haccepted.nextNonce, hpointer, hsuccessor]
    rfl
  · simp only [dispatch, bind_eq_ok] at hok
    obtain ⟨_, _, hbody⟩ := hok
    rcases hcall with ⟨_, _, _, _, rfl⟩ | ⟨_, _, _, _, rfl⟩
    · exact setAppPointer_nonces hbody
    · exact setSuccessor_nonces hbody
  · rw [hsame.nonces, hintents]
    rfl

theorem requireValidSignature_ne_panic {digest : Hash} {sig : ByteString} {code : Panic} :
    requireValidSignature msg digest sig ≠ .error (.panic code) := by
  unfold requireValidSignature
  split
  · intro hpanic
    cases hpanic
  · rw [Ne, revertIf_eq_error]
    rintro ⟨_, hpanic⟩
    cases hpanic

theorem load_ne_error {α : Type} {xs : List α} {j : Nat} {code : Panic} (hlt : j < xs.length) :
    load xs j ≠ .error code := by
  rw [load_ok (List.getElem?_eq_getElem hlt)]
  intro hpanic
  cases hpanic

theorem checkBlobHashes_ne_panic {hashes : List Hash} {left j : Nat} {code : Panic}
    (hlen : j + left ≤ hashes.length) :
    checkBlobHashes msg hashes left j ≠ .error (.panic code) := by
  induction left generalizing j with
  | zero =>
      intro hpanic
      cases hpanic
  | succ left ih =>
      intro hpanic
      simp only [checkBlobHashes, bind_eq_error, orPanic_eq_error, revertIf_eq_error] at hpanic
      rcases hpanic with ⟨_, hload, _⟩ | ⟨_, _, ⟨_, herror⟩ | ⟨_, _, hrest⟩⟩
      · exact load_ne_error (by omega) hload
      · cases herror
      · exact ih (by omega) hrest

theorem checkOpenings_ne_panic {hashes : List Hash} {z : Hash} {openings : List BlobOpening}
    {left j : Nat} {code : Panic} (hhashes : j + left ≤ hashes.length)
    (hopenings : j + left ≤ openings.length) :
    checkOpenings msg hashes z openings left j ≠ .error (.panic code) := by
  induction left generalizing j with
  | zero =>
      intro hpanic
      cases hpanic
  | succ left ih =>
      intro hpanic
      simp only [checkOpenings, bind_eq_error, orPanic_eq_error, revertIf_eq_error] at hpanic
      rcases hpanic with ⟨_, hload, _⟩ | ⟨_, _, ⟨_, hload, _⟩ | ⟨_, _, ⟨_, herror⟩ | ⟨_, _, hrest⟩⟩⟩
      · exact load_ne_error (by omega) hload
      · exact load_ne_error (by omega) hload
      · cases herror
      · exact ih (by omega) (by omega) hrest

/-- Only the carrier's reimbursement can overflow in a declaration. -/
theorem Declared.declareFor_panic {ds : List (Nat × DeclaredRecord)}
    (hdeclared : Declared keccak256 s ds) {d : Declaration} {publisherSig : ByteString}
    {openings : List BlobOpening} {equivalenceProof : ByteString} {code : Panic}
    (hfits : d.newLeafCount < 2 ^ 64)
    (hpanic : declareFor keccak256 dep block msg s d publisherSig openings equivalenceProof =
      .error (.panic code)) :
    reimbursement dep block msg ((d.newLeafCount - s.leafCount + 4095) / 4096) true =
      .error code := by
  have hle := hdeclared.nonce_le
  have hcheckpoint := hdeclared.checkpoint
  unfold declareFor at hpanic
  obtain ⟨_, hpanic⟩ := revertIf_passed hpanic (by simp)
  obtain ⟨_, hpanic⟩ := revertIf_passed hpanic (by simp)
  obtain ⟨hnonce, hpanic⟩ := revertIf_passed hpanic (by simp)
  obtain ⟨_, hpanic⟩ := revertIf_passed hpanic (by simp)
  rcases bind_eq_error.mp hpanic with herror | ⟨_, _, hpanic⟩
  · exact absurd herror requireValidSignature_ne_panic
  obtain ⟨hgrows, hpanic⟩ := revertIf_passed hpanic (by simp)
  have hlt := not_le.mp hgrows
  have hpanic := orPanic_passed hpanic (checkedSub_ok hlt.le)
  obtain ⟨hcounts, hpanic⟩ := revertIf_passed hpanic (by simp)
  obtain ⟨hblobs, hopenings⟩ := not_or.mp hcounts
  rcases bind_eq_error.mp hpanic with herror | ⟨_, _, hpanic⟩
  · exact absurd herror (checkBlobHashes_ne_panic (by omega))
  obtain ⟨_, hpanic⟩ := revertIf_passed hpanic (by simp)
  have hbound : s.leafCount + (d.newLeafCount - s.leafCount) < 2 ^ 64 := by omega
  have hpanic := orPanic_passed hpanic (MMR.decompose_eq_heights hbound)
  obtain ⟨hsubtrees, hpanic⟩ := revertIf_passed hpanic (by simp)
  rcases bind_eq_error.mp hpanic with herror | ⟨_, _, hpanic⟩
  · exact absurd herror (checkOpenings_ne_panic (by omega) (by omega))
  obtain ⟨_, hpanic⟩ := revertIf_passed hpanic (by simp)
  obtain ⟨newPeaks, happly, _⟩ := applyUpdate_count keccak256 hdeclared.peakCount hbound
    (not_not.mp hsubtrees)
  have hnonceEq := not_not.mp hnonce
  have hnext : d.nonce + 1 < 2 ^ 64 := by omega
  rw [Nat.add_sub_cancel' hlt.le] at happly
  have hpanic := orPanic_passed hpanic happly
  have hpanic := orPanic_passed hpanic (checkedAdd_ok hnext)
  have hpanic := orPanic_passed hpanic (checkedSub_ok (hcheckpoint.trans hlt.le))
  rcases bind_eq_error.mp hpanic with herror | ⟨_, _, hreturn⟩
  · obtain ⟨found, hamount, hfound⟩ := orPanic_eq_error.mp herror
    obtain rfl := Revert.panic.inj hfound
    exact hamount
  · cases hreturn

/-! ## The main theorem -/

/-- The scatter of the next update reads the stored peaks only where they are. -/
theorem Declared.scatter_ok {ds : List (Nat × DeclaredRecord)} (hdeclared : Declared keccak256 s ds) :
    ∃ byHeight, MMR.scatterLoop s.leafCount s.peaks 64 0 (List.replicate 64 default) =
      .ok byHeight := by
  have hlen := hdeclared.peakCount
  rw [Reference.peakHeights_eq] at hlen
  obtain ⟨peak, hpeak⟩ := exists_peak (List.nodup_reverse.mpr (setBits_nodup 64 s.leafCount)) hlen
  obtain ⟨table, hscatter, _⟩ := @MMR.scatterLoop_eq s.leafCount s.peaks peak 64 0
    (List.replicate 64 default) (by simp) (Nat.le_refl _) (by simp) hpeak
  exact ⟨table, hscatter⟩

theorem Declared.popcount {ds : List (Nat × DeclaredRecord)} (hdeclared : Declared keccak256 s ds) :
    s.peaks.length = s.leafCount.bitIndices.length := by
  rw [hdeclared.peakCount, Reference.peakHeights_eq, List.length_reverse,
    setBits_eq_bitIndices hdeclared.fits]

/-- In every reachable state the log rebuilds what is published: declarations carry the
nonces `0, 1, 2, …` and growing leaf counts, their replay gives the stored dataset, and
each nonce counts the intents of its space.  The arithmetic of the next declaration has
what it reads: the scatter its peaks, the checkpoint subtraction a smaller operand. -/
theorem event_log_rebuilds {world : World} (hreach : Reachable keccak256 dep world) :
    let s := world.state.store
    let ds := declarations world.state.log
    (s.declarationNonce = ds.length ∧ (∀ (k : Nat) d, ds[k]? = some d → d.2.nonce = k ∧
      leafCountAfter (ds.take k) < d.2.newLeafCount)) ∧
    replayDeclarations keccak256 ds = .ok (s.peaks, s.leafCount) ∧
    (s.peaks.length = s.leafCount.bitIndices.length ∧ ∃ byHeight,
      MMR.scatterLoop s.leafCount s.peaks 64 0 (List.replicate 64 default) = .ok byHeight) ∧
    s.activityCheckpointLeafCount ≤ s.leafCount ∧
    (s.appPointerNonce = (recorded Event.appPointerIntent world.state.log).length ∧
      s.successorNonce = (recorded Event.successorIntent world.state.log).length ∧
      ∀ msg call out, dispatch keccak256 dep world.env msg s call = .ok out →
        out.storage.nonces = s.nonces + call.intents) ∧
    (recorded Event.successorIntent world.state.log = [] ∧ s.successor = zeroAddress ∨
      ∃ time target, recorded Event.successorIntent world.state.log = [(time, target)] ∧
        target ≠ zeroAddress ∧ s.successor = target) ∧
    ∀ msg d publisherSig openings equivalenceProof code, d.newLeafCount < 2 ^ 64 →
      declareFor keccak256 dep world.env msg s d publisherSig openings equivalenceProof =
        .error (.panic code) →
      reimbursement dep world.env msg ((d.newLeafCount - s.leafCount + 4095) / 4096) true =
        .error code := by
  have hpublished := hreach.published
  have hdeclared := hpublished.declared
  refine ⟨⟨hdeclared.nonce, ?_⟩, hdeclared.replayed, ⟨hdeclared.popcount, hdeclared.scatter_ok⟩,
    hdeclared.checkpoint, ⟨hpublished.appPointerNonce, hpublished.successorNonce, ?_⟩,
    hpublished.successor, ?_⟩
  · intro k d hd
    exact ⟨hdeclared.nonces k d hd, hdeclared.growing k d hd⟩
  · intro msg call out hok
    exact dispatch_nonces hok
  · intro msg d publisherSig openings equivalenceProof code hfits hpanic
    exact hdeclared.declareFor_panic hfits hpanic

end

set_option maxRecDepth 10000 in
theorem event_log_rebuilds_declared :
    declaredWorld.state.store.declarationNonce = (declarations declaredWorld.state.log).length ∧
      (∀ d, (declarations declaredWorld.state.log)[0]? = some d → d.2.nonce = 0 ∧
        0 < d.2.newLeafCount) ∧
      replayDeclarations Keccak.keccak256 (declarations declaredWorld.state.log) =
        .ok (zeroDeclaration.newSubtreePeaks, 1) := by
  have hpeaks : declaredWorld.state.store.peaks = zeroDeclaration.newSubtreePeaks := rfl
  have hleafCount : declaredWorld.state.store.leafCount = 1 := rfl
  obtain ⟨⟨hnonce, hentries⟩, hreplay, _⟩ := event_log_rebuilds declaredWorld_reachable
  rw [hpeaks, hleafCount] at hreplay
  refine ⟨hnonce, ?_, hreplay⟩
  intro d hd
  obtain ⟨hzero, hgrows⟩ := hentries 0 d hd
  exact ⟨hzero, Nat.zero_lt_of_lt hgrows⟩

end Blobsitter.Contract
