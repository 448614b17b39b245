import Blobsitter.Contract.EventLog
import Blobsitter.Contract.Isolation
import Blobsitter.Intents.SigningDigest

/-!
# What the publisher signed

The publisher never sends a transaction: anyone may bring a signed intent, and the wallet
says whether the publisher stands behind it.  In a run in which the wallet accepts only what
was signed, every publication of the log is the effect of its own signed intent, carried in
time and by a carrier that the intent allows.
-/

namespace Blobsitter.Intents

open Library
open Reference (Hash Address)
open Contract (Block Msg Call Action Event Chain World Storage Outcome Deployment zeroAddress
  revertIf_eq_ok orPanic_eq_ok checkedAdd_eq_ok intentEntries intentEntries_append
  intentEntries_append_none)

/-- The three nonce spaces. -/
inductive IntentKind where
  | declaration
  | appPointer
  | successor
  deriving DecidableEq, Repr

namespace SignedIntent

def kind : SignedIntent → IntentKind
  | .declaration _ => .declaration
  | .setAppPointer _ => .appPointer
  | .setSuccessor _ => .successor

def nonce : SignedIntent → Nat
  | .declaration d => d.nonce
  | .setAppPointer p => p.nonce
  | .setSuccessor t => t.nonce

def deadline : SignedIntent → Nat
  | .declaration d => d.deadline
  | .setAppPointer p => p.deadline
  | .setSuccessor t => t.deadline

/-- Only a declaration can name its carrier. -/
def designatedCarrier : SignedIntent → Address
  | .declaration d => d.designatedCarrier
  | _ => zeroAddress

/-- The event that the intent leaves when `sender` carries it. -/
def event (sender : Address) : SignedIntent → Event
  | .declaration d => .declared d.nonce d.newLeafCount d.blobVersionedHashes d.newSubtreePeaks
      d.appPointer sender
  | .setAppPointer p => .appPointerSet p.nonce p.pointer
  | .setSuccessor t => .successorSet t.target

/-- The body of a package that carries the intent and nothing else. -/
def body : SignedIntent → IntentBody
  | .declaration d => .declaration d [] [] []
  | .setAppPointer p => .setAppPointer p
  | .setSuccessor t => .setSuccessor t

@[simp] theorem signed_body (intent : SignedIntent) : intent.body.signed = intent := by
  cases intent <;> rfl

@[simp] theorem event_isIntent (sender : Address) (intent : SignedIntent) :
    (intent.event sender).isIntent = true := by
  cases intent <;> rfl

end SignedIntent

/-- The nonce that the next intent of a kind has to carry. -/
def nextNonce (s : Storage) : IntentKind → Nat
  | .declaration => s.declarationNonce
  | .appPointer => s.appPointerNonce
  | .successor => s.successorNonce

/-- The call brings the intent to the contract, under a signature. -/
inductive Carries : Call → SignedIntent → ByteString → Prop where
  | declaration {d : DeclarationIntent} {publisherSig : ByteString}
      {openings : List Contract.BlobOpening} {equivalenceProof : ByteString} :
      Carries (.declareFor d.toContract publisherSig openings equivalenceProof) (.declaration d)
        publisherSig
  | setAppPointer {p : AppPointerIntent} {sig : ByteString} :
      Carries (.setAppPointer p.nonce p.deadline p.pointer sig) (.setAppPointer p) sig
  | setSuccessor {t : SuccessorIntent} {sig : ByteString} :
      Carries (.setSuccessor t.nonce t.deadline t.target sig) (.setSuccessor t) sig

section

variable (keccak256 : ByteString → Hash) (dep : Deployment)

/-- What the wallet is asked about by a publication call: a digest and a signature. -/
def approval (block : Block) : Call → Option (Hash × ByteString)
  | .declareFor d publisherSig _ _ =>
      some (Contract.declarationDigest keccak256 dep block d, publisherSig)
  | .setAppPointer nonce deadline pointer sig =>
      some (Contract.setAppPointerDigest keccak256 dep block nonce deadline pointer, sig)
  | .setSuccessor nonce deadline target sig =>
      some (Contract.setSuccessorDigest keccak256 dep block nonce deadline target, sig)
  | _ => none

/-- The wallet does not accept a digest in this action that the publisher never signed. -/
def signedOnly (signed : Hash → Bool) (block : Block) : Action → Bool
  | .call msg call =>
      match approval keccak256 dep block call with
      | some (digest, sig) =>
          signed digest || !(Contract.requireValidSignature msg digest sig).isOk
      | none => true
  | _ => true

/-- The two contracts with a wallet that accepts signed digests only. -/
def signedSystem (signed : Hash → Bool) : CallSystem Block Chain Action Contract.Rest :=
  (Contract.system keccak256 dep).restrict fun block _ action =>
    signedOnly keccak256 dep signed block action

/-- An intent that took effect: in which block, and who carried it. -/
structure Publication where
  block : Block
  carrier : Address
  intent : SignedIntent

/-- Its entry in the log. -/
def Publication.entry (p : Publication) : Nat × Event := (p.block.timestamp, p.intent.event p.carrier)

/-- The digest that the wallet accepted. -/
def Publication.digest (p : Publication) : Hash := contractDigest keccak256 dep p.block p.intent

/-- Every string hashed for that digest. -/
def Publication.strings (p : Publication) : List ByteString :=
  contractStrings keccak256 dep p.block p.intent

/-- The publisher signed the intent, and it was carried as the publisher allowed. -/
structure Publication.Authorised (signed : Hash → Bool) (p : Publication) : Prop where
  signed : signed (p.digest keccak256 dep) = true
  inTime : p.block.timestamp ≤ p.intent.deadline
  carrier : p.intent.designatedCarrier = zeroAddress ∨ p.intent.designatedCarrier = p.carrier

end

/-- The nonces of one kind, oldest first. -/
def noncesOf (kind : IntentKind) (made : List Publication) : List Nat :=
  (made.filter fun p => p.intent.kind = kind).map fun p => p.intent.nonce

section

variable {keccak256 : ByteString → Hash} {dep : Deployment} {signed : Hash → Bool}
variable {block : Block} {msg : Msg} {s : Storage}

theorem Carries.approval {call : Call} {intent : SignedIntent} {sig : ByteString}
    (hcarries : Carries call intent sig) :
    approval keccak256 dep block call = some (contractDigest keccak256 dep block intent, sig) := by
  cases hcarries with
  | declaration => rfl
  | setAppPointer => rfl
  | setSuccessor => rfl

/-- A call in range carries an intent, or is none of the three publication calls. -/
theorem carries_or {call : Call} (hrange : call.inRange = true) :
    (∃ intent sig, Carries call intent sig) ∨ call.intents = (0, 0, 0) := by
  cases call with
  | declareFor d publisherSig openings equivalenceProof =>
      simp only [Call.inRange, Bool.and_eq_true, decide_eq_true_eq] at hrange
      obtain ⟨⟨hnonce, hdeadline⟩, hleafCount⟩ := hrange
      exact Or.inl ⟨_, _, @Carries.declaration ⟨d.nonce, d.deadline, d.blobVersionedHashes,
        d.newSubtreePeaks, d.newLeafCount, d.designatedCarrier, d.appPointer, hnonce, hdeadline,
        hleafCount⟩ publisherSig openings equivalenceProof⟩
  | setAppPointer nonce deadline pointer sig =>
      simp only [Call.inRange, Bool.and_eq_true, decide_eq_true_eq] at hrange
      exact Or.inl ⟨_, _, @Carries.setAppPointer ⟨nonce, deadline, pointer, hrange.1, hrange.2⟩ sig⟩
  | setSuccessor nonce deadline target sig =>
      simp only [Call.inRange, Bool.and_eq_true, decide_eq_true_eq] at hrange
      exact Or.inl ⟨_, _, @Carries.setSuccessor ⟨nonce, deadline, target, hrange.1, hrange.2⟩ sig⟩
  | _ => exact Or.inr rfl

/-- What an accepted call that carries an intent has passed and done. -/
structure IntentAccepted (keccak256 : ByteString → Hash) (dep : Deployment) (block : Block)
    (msg : Msg) (s : Storage) (intent : SignedIntent) (sig : ByteString) (out : Outcome) : Prop where
  inTime : block.timestamp ≤ intent.deadline
  nonce : intent.nonce = nextNonce s intent.kind
  carrier : intent.designatedCarrier = zeroAddress ∨ intent.designatedCarrier = msg.sender
  signature : Contract.requireValidSignature msg (contractDigest keccak256 dep block intent) sig =
    .ok ()
  events : out.events = [intent.event msg.sender]

theorem setAppPointer_passed {p : AppPointerIntent} {sig : ByteString} {out : Outcome}
    (hok : Contract.setAppPointer keccak256 dep block msg s p.nonce p.deadline p.pointer sig =
      .ok out) :
    IntentAccepted keccak256 dep block msg s (.setAppPointer p) sig out := by
  simp only [Contract.setAppPointer, bind_eq_ok, revertIf_eq_ok, orPanic_eq_ok, checkedAdd_eq_ok,
    pure_eq_ok, not_lt] at hok
  obtain ⟨_, _, _, htime, _, hnonce, _, hsig, _, ⟨_, rfl⟩, amount, _, rfl⟩ := hok
  exact ⟨htime, not_not.mp hnonce, Or.inl rfl, hsig, rfl⟩

theorem setSuccessor_passed {t : SuccessorIntent} {sig : ByteString} {out : Outcome}
    (hok : Contract.setSuccessor keccak256 dep block msg s t.nonce t.deadline t.target sig =
      .ok out) :
    IntentAccepted keccak256 dep block msg s (.setSuccessor t) sig out := by
  simp only [Contract.setSuccessor, bind_eq_ok, revertIf_eq_ok, orPanic_eq_ok, checkedAdd_eq_ok,
    pure_eq_ok, not_lt] at hok
  obtain ⟨_, _, _, htime, _, hnonce, _, hsig, _, _, _, _, _, ⟨_, rfl⟩, amount, _, rfl⟩ := hok
  exact ⟨htime, not_not.mp hnonce, Or.inl rfl, hsig, rfl⟩

theorem Carries.accepted {call : Call} {intent : SignedIntent} {sig : ByteString} {out : Outcome}
    (hcarries : Carries call intent sig) (hcount : s.peaks.length =
      (Reference.peakHeights s.leafCount).length)
    (hok : Contract.dispatch keccak256 dep block msg s call = .ok out) :
    IntentAccepted keccak256 dep block msg s intent sig out := by
  cases hcarries with
  | @declaration d =>
      obtain ⟨hrange, hchange⟩ := Contract.dispatch_change hok
      cases hchange with
      | declared _ haccepted =>
          obtain ⟨_, _, hevents, _, _⟩ := haccepted.counted hcount d.newLeafCountFits
          exact ⟨haccepted.inTime, haccepted.nonce, haccepted.carrier, haccepted.signature, hevents⟩
      | pointed _ _ hcall =>
          rcases hcall with ⟨_, _, _, _, hcall⟩ | ⟨_, _, _, _, hcall⟩ <;> cases hcall
      | noted _ hevent => rcases hevent with ⟨_, hcall, _⟩ | ⟨hcall, _⟩ <;> cases hcall
      | proven _ hcall =>
          rcases hcall with ⟨_, hcall⟩ | ⟨_, _, _, hcall⟩ <;> cases hcall
  | setAppPointer =>
      simp only [Contract.dispatch, bind_eq_ok] at hok
      obtain ⟨_, _, hbody⟩ := hok
      exact setAppPointer_passed hbody
  | setSuccessor =>
      simp only [Contract.dispatch, bind_eq_ok] at hok
      obtain ⟨_, _, hbody⟩ := hok
      exact setSuccessor_passed hbody

/-! ## The log and the signed intents -/

theorem noncesOf_concat (kind : IntentKind) (made : List Publication) (p : Publication) :
    noncesOf kind (made ++ [p]) =
      noncesOf kind made ++ if p.intent.kind = kind then [p.intent.nonce] else [] := by
  unfold noncesOf
  rw [List.filter_append, List.map_append]
  by_cases hkind : p.intent.kind = kind
  · rw [List.filter_cons_of_pos (by simpa using hkind), if_pos hkind]
    rfl
  · rw [List.filter_cons_of_neg (by simpa using hkind), if_neg hkind]
    rfl

/-- The publications of the log: authorised one by one, each kind in the order of its nonces. -/
structure Accounted (keccak256 : ByteString → Hash) (dep : Deployment) (signed : Hash → Bool)
    (s : Storage) (log : List (Nat × Event)) (made : List Publication) : Prop where
  entries : intentEntries log = made.map Publication.entry
  authorised : ∀ p ∈ made, p.Authorised keccak256 dep signed
  nonces : ∀ kind, noncesOf kind made = List.range (nextNonce s kind)

theorem nextNonce_of_nonces {next : Storage} (hnonces : next.nonces = s.nonces) (kind : IntentKind) :
    nextNonce next kind = nextNonce s kind := by
  obtain ⟨hdeclaration, hothers⟩ := Prod.ext_iff.mp hnonces
  obtain ⟨hpointer, hsuccessor⟩ := Prod.ext_iff.mp hothers
  cases kind with
  | declaration => exact hdeclaration
  | appPointer => exact hpointer
  | successor => exact hsuccessor

/-- An accepted intent takes the next nonce of its kind, and leaves the other kinds. -/
theorem Carries.nextNonce {call : Call} {intent : SignedIntent} {sig : ByteString} {next : Storage}
    (hcarries : Carries call intent sig) (hnonces : next.nonces = s.nonces + call.intents)
    (kind : IntentKind) :
    nextNonce next kind = nextNonce s kind + if intent.kind = kind then 1 else 0 := by
  obtain ⟨hdeclaration, hothers⟩ := Prod.ext_iff.mp hnonces
  obtain ⟨hpointer, hsuccessor⟩ := Prod.ext_iff.mp hothers
  cases hcarries with
  | declaration =>
      cases kind with
      | declaration => exact hdeclaration
      | appPointer => exact hpointer
      | successor => exact hsuccessor
  | setAppPointer =>
      cases kind with
      | declaration => exact hdeclaration
      | appPointer => exact hpointer
      | successor => exact hsuccessor
  | setSuccessor =>
      cases kind with
      | declaration => exact hdeclaration
      | appPointer => exact hpointer
      | successor => exact hsuccessor

namespace Accounted

variable {log : List (Nat × Event)} {made : List Publication}

/-- Steps that publish nothing keep the account. -/
theorem of_same (haccounted : Accounted keccak256 dep signed s log made) {next : Storage}
    {extra : List (Nat × Event)} (hnonces : next.nonces = s.nonces)
    (hother : ∀ entry ∈ extra, entry.2.isIntent = false) :
    Accounted keccak256 dep signed next (log ++ extra) made := by
  refine ⟨?_, haccounted.authorised, fun kind => ?_⟩
  · rw [intentEntries_append_none log hother]
    exact haccounted.entries
  · rw [haccounted.nonces, nextNonce_of_nonces hnonces]

/-- An accepted intent that the publisher signed joins the account. -/
theorem publish (haccounted : Accounted keccak256 dep signed s log made) {call : Call}
    {intent : SignedIntent} {sig : ByteString} {out : Outcome} (hcarries : Carries call intent sig)
    (haccepted : IntentAccepted keccak256 dep block msg s intent sig out)
    (hnonces : out.storage.nonces = s.nonces + call.intents)
    (hguard : signedOnly keccak256 dep signed block (.call msg call) = true) :
    Accounted keccak256 dep signed out.storage
      (log ++ out.events.map fun event => (block.timestamp, event))
      (made ++ [⟨block, msg.sender, intent⟩]) := by
  have hsigned : signed (contractDigest keccak256 dep block intent) = true := by
    simp only [signedOnly, hcarries.approval, haccepted.signature] at hguard
    simpa [Except.isOk, Except.toBool] using hguard
  refine ⟨?_, ?_, fun kind => ?_⟩
  · have hentry : intentEntries [(block.timestamp, intent.event msg.sender)] =
        [(block.timestamp, intent.event msg.sender)] :=
      List.filter_cons_of_pos (intent.event_isIntent msg.sender)
    rw [intentEntries_append, haccounted.entries, haccepted.events, List.map_append]
    exact congrArg _ hentry
  · intro p hmem
    rcases List.mem_append.mp hmem with hold | hnew
    · exact haccounted.authorised p hold
    · cases List.mem_singleton.mp hnew
      exact ⟨hsigned, haccepted.inTime, haccepted.carrier⟩
  · rw [noncesOf_concat, haccounted.nonces, hcarries.nextNonce hnonces]
    by_cases hkind : intent.kind = kind
    · rw [if_pos hkind, if_pos hkind, List.range_succ, haccepted.nonce, hkind]
    · rw [if_neg hkind, if_neg hkind, List.append_nil, Nat.add_zero]

/-- Every accepted call of a signed run keeps the account. -/
theorem accept (haccounted : Accounted keccak256 dep signed s log made)
    (hpublished : Contract.Published keccak256 s log) {call : Call} {out : Outcome}
    (hok : Contract.dispatch keccak256 dep block msg s call = .ok out)
    (hguard : signedOnly keccak256 dep signed block (.call msg call) = true) :
    ∃ later, Accounted keccak256 dep signed out.storage
      (log ++ out.events.map fun event => (block.timestamp, event)) later := by
  obtain ⟨hrange, hchange⟩ := Contract.dispatch_change hok
  have hnonces := Contract.dispatch_nonces hok
  rcases carries_or hrange with ⟨intent, sig, hcarries⟩ | hnone
  · exact ⟨_, haccounted.publish hcarries (hcarries.accepted hpublished.declared.peakCount hok)
      hnonces hguard⟩
  · rw [hnone] at hnonces
    refine ⟨made, haccounted.of_same hnonces ?_⟩
    rcases hchange.publication with ⟨d, publisherSig, openings, equivalenceProof, rfl, _⟩ |
      ⟨hcall, _⟩ | ⟨_, _, hevents⟩
    · cases hnone
    · rcases hcall with ⟨_, _, _, _, rfl⟩ | ⟨_, _, _, _, rfl⟩ <;> cases hnone
    · intro entry hmem
      obtain ⟨event, hevent, rfl⟩ := List.mem_map.mp hmem
      exact hevents event hevent

/-- No two publications share kind and nonce. -/
theorem distinct (haccounted : Accounted keccak256 dep signed s log made) :
    made.Pairwise fun p p' => (p.intent.kind, p.intent.nonce) ≠ (p'.intent.kind, p'.intent.nonce) := by
  have hkind : ∀ kind, (made.filter fun p => p.intent.kind = kind).Pairwise fun p p' =>
      p.intent.nonce ≠ p'.intent.nonce := by
    intro kind
    refine List.pairwise_map.mp ?_
    have hnodup : (noncesOf kind made).Nodup := haccounted.nonces kind ▸ List.nodup_range
    exact hnodup
  refine List.pairwise_iff_forall_sublist.mpr fun {p p'} hpair hslot => ?_
  obtain ⟨hsame, hnonce⟩ := Prod.ext_iff.mp hslot
  have hfiltered : [p, p'].Sublist (made.filter fun q => q.intent.kind = p.intent.kind) := by
    have hboth := hpair.filter fun q => decide (q.intent.kind = p.intent.kind)
    rwa [List.filter_cons_of_pos (by simp), List.filter_cons_of_pos (by simpa using hsame.symm)]
      at hboth
  exact List.pairwise_iff_forall_sublist.mp (hkind p.intent.kind) hfiltered hnonce

end Accounted

/-- Without a collision on the way, one digest is the digest of one intent. -/
theorem intent_of_digest {p p' : Publication}
    (hfree : NoCollisionAt keccak256 (p.strings keccak256 dep) (p'.strings keccak256 dep))
    (hdigest : p.digest keccak256 dep = p'.digest keccak256 dep) : p.intent = p'.intent := by
  simp only [Publication.strings, contractStrings, noCollisionAt_cons] at hfree
  obtain ⟨houter, _, _, _, _, hstruct, hparts⟩ := hfree
  unfold Publication.digest at hdigest
  rw [contractDigest_eq, contractDigest_eq] at hdigest
  have hwords := (List.append_inj' (houter hdigest) (by simp)).2
  have hstructs := hstruct (Vector.toList_inj.mp hwords)
  have hpreimage : p.intent.body.preimage keccak256 = p'.intent.body.preimage keccak256 := by
    rw [IntentBody.preimage_eq, IntentBody.preimage_eq, SignedIntent.signed_body,
      SignedIntent.signed_body]
    exact hstructs
  have hfreeParts : NoCollisionAt keccak256 p.intent.body.parts p'.intent.body.parts := by
    rw [IntentBody.parts_eq, IntentBody.parts_eq, SignedIntent.signed_body,
      SignedIntent.signed_body]
    exact hparts
  have hsigned := IntentBody.signed_of_preimage hfreeParts hpreimage
  rwa [SignedIntent.signed_body, SignedIntent.signed_body] at hsigned

theorem signedSystem_preserves : (signedSystem keccak256 dep signed).Preserves fun _ chain =>
    Contract.Published keccak256 chain.store chain.log ∧
      ∃ made, Accounted keccak256 dep signed chain.store chain.log made := by
  refine Contract.guarded_preserves ?_ ?_ ?_
  · rintro block chain next ⟨⟨sink, entered, hstore⟩, ⟨extra, hlog, htransfer⟩, _⟩
      ⟨hpublished, made, haccounted⟩
    rw [hstore, hlog]
    refine ⟨hpublished.quiet sink entered htransfer, made, haccounted.of_same rfl ?_⟩
    intro entry hmem
    exact Event.isIntent_of_isTransfer (htransfer entry hmem)
  · rintro block chain msg call out hguard haccepted ⟨hpublished, made, haccounted⟩
    obtain ⟨hrange, hchange⟩ := Contract.dispatch_change haccepted.dispatched
    exact ⟨hpublished.change hchange hrange _,
      haccounted.accept hpublished haccepted.dispatched hguard⟩
  · rintro block next chain hholds _
    exact hholds

theorem deployed_accounted (start : Block) :
    Accounted keccak256 dep signed (Chain.deployed dep start).store
      (Chain.deployed dep start).log [] := by
  refine ⟨rfl, ?_, ?_⟩
  · intro p hmem
    cases hmem
  · intro kind
    cases kind <;> rfl

/-- In every world of a run in which the wallet accepts signed digests only, the
publications of the log are exactly the effects of a list of signed intents: each signed,
carried by its deadline and by an allowed carrier, the nonces of each kind `0, 1, 2, …` up
to the stored one.  Without a collision no signed digest has two effects. -/
theorem publications_authorised {start : Block} {world : World}
    (hsteps : (signedSystem keccak256 dep signed).Steps ⟨start, Chain.deployed dep start, []⟩
      world) :
    ∃ made : List Publication,
      intentEntries world.state.log = made.map Publication.entry ∧
      (∀ p ∈ made, p.Authorised keccak256 dep signed) ∧
      (∀ kind, noncesOf kind made = List.range (nextNonce world.state.store kind)) ∧
      ((∀ p ∈ made, ∀ p' ∈ made,
          NoCollisionAt keccak256 (p.strings keccak256 dep) (p'.strings keccak256 dep)) →
        (made.map fun p => p.digest keccak256 dep).Nodup) := by
  have hstart : (⟨start, Chain.deployed dep start, []⟩ : World).Holds fun _ chain =>
      Contract.Published keccak256 chain.store chain.log ∧
        ∃ made, Accounted keccak256 dep signed chain.store chain.log made :=
    Machine.holds_of_idle ⟨Contract.deployed_published start, [], deployed_accounted start⟩
  obtain ⟨_, made, haccounted⟩ := (hsteps.holds signedSystem_preserves hstart).state
  refine ⟨made, haccounted.entries, haccounted.authorised, haccounted.nonces, fun hfree => ?_⟩
  refine List.pairwise_map.mpr (haccounted.distinct.imp_of_mem ?_)
  intro p p' hmem hmem' hslot hdigest
  have hintent := intent_of_digest (hfree p hmem p' hmem') hdigest
  exact hslot (by rw [hintent])

/-- The publisher of the sample run signed its one declaration. -/
def zeroDeclarationSigned (digest : Hash) : Bool :=
  digest == Contract.declarationDigest Keccak.keccak256 Contract.sampleDeployment
    Contract.stakeBlock Contract.zeroDeclaration

theorem signedOnly_of_signed {call : Call} {digest : Hash} {sig : ByteString}
    (happroval : approval keccak256 dep block call = some (digest, sig))
    (hsigned : signed digest = true) : signedOnly keccak256 dep signed block (.call msg call) = true := by
  simp only [signedOnly, happroval, hsigned, Bool.true_or]

set_option maxRecDepth 10000 in
theorem declaredWorld_signed :
    (signedSystem Keccak.keccak256 Contract.sampleDeployment zeroDeclarationSigned).Steps
      ⟨Contract.stakeBlock, Chain.deployed Contract.sampleDeployment Contract.stakeBlock, []⟩
      Contract.declaredWorld := by
  have hstaked : (Contract.system Keccak.keccak256 Contract.sampleDeployment).call
      Contract.stakeBlock Contract.stakeAction
      (Chain.deployed Contract.sampleDeployment Contract.stakeBlock) =
        some (Contract.stakedWorld.state, none) := rfl
  have hdeclared : (Contract.system Keccak.keccak256 Contract.sampleDeployment).call
      Contract.stakeBlock Contract.declareAction Contract.stakedWorld.state =
        some (Contract.declaredWorld.state, none) := rfl
  have hguard : signedOnly Keccak.keccak256 Contract.sampleDeployment zeroDeclarationSigned
      Contract.stakeBlock Contract.declareAction = true :=
    signedOnly_of_signed rfl (beq_self_eq_true (Contract.declarationDigest Keccak.keccak256
      Contract.sampleDeployment Contract.stakeBlock Contract.zeroDeclaration))
  have hfirst : (signedSystem Keccak.keccak256 Contract.sampleDeployment
      zeroDeclarationSigned).call Contract.stakeBlock Contract.stakeAction
      (Chain.deployed Contract.sampleDeployment Contract.stakeBlock) =
        some (Contract.stakedWorld.state, none) := CallSystem.restrict_call.mpr ⟨rfl, hstaked⟩
  have hsecond : (signedSystem Keccak.keccak256 Contract.sampleDeployment
      zeroDeclarationSigned).call Contract.stakeBlock Contract.declareAction
      Contract.stakedWorld.state =
        some (Contract.declaredWorld.state, none) := CallSystem.restrict_call.mpr ⟨hguard, hdeclared⟩
  exact .tail (.single (.returns hfirst)) (.returns hsecond)

/-- The one publication of the sample run is the one that was signed. -/
theorem publications_authorised_declared : ∃ made : List Publication,
    intentEntries Contract.declaredWorld.state.log = made.map Publication.entry ∧
      ∀ p ∈ made, zeroDeclarationSigned
        (p.digest Keccak.keccak256 Contract.sampleDeployment) = true := by
  obtain ⟨made, hentries, hauthorised, _⟩ := publications_authorised declaredWorld_signed
  exact ⟨made, hentries, fun p hmem => (hauthorised p hmem).signed⟩

end

end Blobsitter.Intents
