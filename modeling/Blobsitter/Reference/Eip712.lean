import Blobsitter.Reference.Hashing

/-!
# Digests of the publisher's intents

The typed-data rules of the reference crate: every struct is hashed behind its type, in
words of 32 bytes, and the digest binds it to one instance on one chain.
-/

namespace Blobsitter.Reference.Eip712

open Library

def eip712DomainType : String :=
  "EIP712Domain(string name,string version,uint256 chainId,address verifyingContract)"

def declarationType : String :=
  "Declaration(uint64 nonce,uint64 deadline,bytes32[] blobVersionedHashes,bytes32[] newSubtreePeaks,uint64 newLeafCount,address designatedCarrier,bytes32 appPointer)"

def setAppPointerType : String :=
  "SetAppPointer(uint64 nonce,uint64 deadline,bytes32 appPointer)"

def setSuccessorType : String :=
  "SetSuccessor(uint64 nonce,uint64 deadline,address successor)"

def domainName : String := "blobsitter"

def domainVersion : String := "1"

/-- `as_bytes`; the texts are ASCII. -/
def asBytes (text : String) : ByteString := text.toList.map fun c => UInt8.ofNat c.toNat

/-- A `u64` as the last eight bytes of a word. -/
def u256 (x : Nat) : Word 32 := wordOf 32 (List.replicate 24 0 ++ beBytes 8 x)

/-- An address as the last twenty bytes of a word. -/
def addrWord (a : Address) : Word 32 := wordOf 32 (List.replicate 12 0 ++ a.toList)

theorem u256_toList (x : Nat) : (u256 x).toList = List.replicate 24 0 ++ beBytes 8 x :=
  wordOf_toList (by simp)

theorem addrWord_toList (a : Address) :
    (addrWord a).toList = List.replicate 12 0 ++ a.toList := wordOf_toList (by simp)

theorem u256_inj {x y : Nat} (hx : x < 2 ^ 64) (hy : y < 2 ^ 64) (heq : u256 x = u256 y) :
    x = y := by
  have hbytes := congrArg Vector.toList heq
  rw [u256_toList, u256_toList] at hbytes
  have hpow : (256 : Nat) ^ 8 = 2 ^ 64 := by norm_num
  exact beBytes_inj (hpow ▸ hx) (hpow ▸ hy) (List.append_cancel_left hbytes)

theorem addrWord_inj {a b : Address} (heq : addrWord a = addrWord b) : a = b := by
  have hbytes := congrArg Vector.toList heq
  rw [addrWord_toList, addrWord_toList] at hbytes
  exact word_ext (List.append_cancel_left hbytes)

structure Declaration where
  nonce : Nat
  deadline : Nat
  blobVersionedHashes : List Hash
  newSubtreePeaks : List Hash
  newLeafCount : Nat
  designatedCarrier : Address
  appPointer : Hash
  nonceFits : nonce < 2 ^ 64
  deadlineFits : deadline < 2 ^ 64
  newLeafCountFits : newLeafCount < 2 ^ 64

structure SetAppPointer where
  nonce : Nat
  deadline : Nat
  appPointer : Hash
  nonceFits : nonce < 2 ^ 64
  deadlineFits : deadline < 2 ^ 64

structure SetSuccessor where
  nonce : Nat
  deadline : Nat
  successor : Address
  nonceFits : nonce < 2 ^ 64
  deadlineFits : deadline < 2 ^ 64

section

variable (keccak256 : ByteString → Hash)

/-- `hash_array`: keccak of the concatenated elements. -/
def hashArray (items : List Hash) : Hash := keccak256 (packWords items)

/-! ## Preimages and hashes -/

def domainPreimage (chainId : Nat) (verifyingContract : Address) : ByteString :=
  packWords [keccak256 (asBytes eip712DomainType), keccak256 (asBytes domainName),
    keccak256 (asBytes domainVersion), u256 chainId, addrWord verifyingContract]

def domainSeparator (chainId : Nat) (verifyingContract : Address) : Hash :=
  keccak256 (domainPreimage keccak256 chainId verifyingContract)

def digestPreimage (domain structHash : Hash) : ByteString :=
  [0x19, 0x01] ++ domain.toList ++ structHash.toList

def digest (domain structHash : Hash) : Hash := keccak256 (digestPreimage domain structHash)

def Declaration.preimage (d : Declaration) : ByteString :=
  packWords [keccak256 (asBytes declarationType), u256 d.nonce, u256 d.deadline,
    hashArray keccak256 d.blobVersionedHashes, hashArray keccak256 d.newSubtreePeaks,
    u256 d.newLeafCount, addrWord d.designatedCarrier, d.appPointer]

def Declaration.structHash (d : Declaration) : Hash := keccak256 (d.preimage keccak256)

def SetAppPointer.preimage (p : SetAppPointer) : ByteString :=
  packWords [keccak256 (asBytes setAppPointerType), u256 p.nonce, u256 p.deadline, p.appPointer]

def SetAppPointer.structHash (p : SetAppPointer) : Hash := keccak256 (p.preimage keccak256)

def SetSuccessor.preimage (t : SetSuccessor) : ByteString :=
  packWords [keccak256 (asBytes setSuccessorType), u256 t.nonce, u256 t.deadline,
    addrWord t.successor]

def SetSuccessor.structHash (t : SetSuccessor) : Hash := keccak256 (t.preimage keccak256)

end

section

variable {keccak256 : ByteString → Hash}

theorem domainPreimage_inj {chainId chainId' : Nat} {account account' : Address}
    (hfits : chainId < 2 ^ 64) (hfits' : chainId' < 2 ^ 64)
    (heq : domainPreimage keccak256 chainId account = domainPreimage keccak256 chainId' account') :
    chainId = chainId' ∧ account = account' := by
  have hwords := packWords_inj_of_pos (by decide) heq
  simp only [List.cons.injEq, true_and, and_true] at hwords
  exact ⟨u256_inj hfits hfits' hwords.1, addrWord_inj hwords.2⟩

theorem digestPreimage_inj {domain domain' structHash structHash' : Hash}
    (heq : digestPreimage domain structHash = digestPreimage domain' structHash') :
    domain = domain' ∧ structHash = structHash' := by
  obtain ⟨hhead, hstruct⟩ := List.append_inj heq (by simp)
  exact ⟨word_ext (List.append_cancel_left hhead), word_ext hstruct⟩

/-- Up to its two arrays, a declaration is read back from its preimage. -/
theorem Declaration.preimage_inj {d d' : Declaration}
    (heq : d.preimage keccak256 = d'.preimage keccak256)
    (hhashes : hashArray keccak256 d.blobVersionedHashes =
        hashArray keccak256 d'.blobVersionedHashes → d.blobVersionedHashes = d'.blobVersionedHashes)
    (hpeaks : hashArray keccak256 d.newSubtreePeaks = hashArray keccak256 d'.newSubtreePeaks →
      d.newSubtreePeaks = d'.newSubtreePeaks) : d = d' := by
  have hwords := packWords_inj_of_pos (by decide) heq
  simp only [List.cons.injEq, true_and, and_true] at hwords
  obtain ⟨hnonce, hdeadline, hfirst, hsecond, hcount, hcarrier, hpointer⟩ := hwords
  obtain ⟨_, _, _, _, _, _, _, hnonceFits, hdeadlineFits, hcountFits⟩ := d
  obtain ⟨_, _, _, _, _, _, _, hnonceFits', hdeadlineFits', hcountFits'⟩ := d'
  obtain rfl := u256_inj hnonceFits hnonceFits' hnonce
  obtain rfl := u256_inj hdeadlineFits hdeadlineFits' hdeadline
  obtain rfl := u256_inj hcountFits hcountFits' hcount
  obtain rfl := addrWord_inj hcarrier
  obtain rfl := hhashes hfirst
  obtain rfl := hpeaks hsecond
  obtain rfl := hpointer
  rfl

theorem SetAppPointer.preimage_inj {p p' : SetAppPointer}
    (heq : p.preimage keccak256 = p'.preimage keccak256) : p = p' := by
  have hwords := packWords_inj_of_pos (by decide) heq
  simp only [List.cons.injEq, true_and, and_true] at hwords
  obtain ⟨hnonce, hdeadline, hpointer⟩ := hwords
  obtain ⟨_, _, _, hnonceFits, hdeadlineFits⟩ := p
  obtain ⟨_, _, _, hnonceFits', hdeadlineFits'⟩ := p'
  obtain rfl := u256_inj hnonceFits hnonceFits' hnonce
  obtain rfl := u256_inj hdeadlineFits hdeadlineFits' hdeadline
  obtain rfl := hpointer
  rfl

theorem SetSuccessor.preimage_inj {t t' : SetSuccessor}
    (heq : t.preimage keccak256 = t'.preimage keccak256) : t = t' := by
  have hwords := packWords_inj_of_pos (by decide) heq
  simp only [List.cons.injEq, true_and, and_true] at hwords
  obtain ⟨hnonce, hdeadline, hsuccessor⟩ := hwords
  obtain ⟨_, _, _, hnonceFits, hdeadlineFits⟩ := t
  obtain ⟨_, _, _, hnonceFits', hdeadlineFits'⟩ := t'
  obtain rfl := u256_inj hnonceFits hnonceFits' hnonce
  obtain rfl := u256_inj hdeadlineFits hdeadlineFits' hdeadline
  obtain rfl := addrWord_inj hsuccessor
  rfl

/-- A declaration has eight words, the others four. -/
theorem Declaration.preimage_length (d : Declaration) : (d.preimage keccak256).length = 256 :=
  packWords_length _

theorem SetAppPointer.preimage_length (p : SetAppPointer) : (p.preimage keccak256).length = 128 :=
  packWords_length _

theorem SetSuccessor.preimage_length (t : SetSuccessor) : (t.preimage keccak256).length = 128 :=
  packWords_length _

/-- Structs of one length differ by their types. -/
theorem SetAppPointer.preimage_ne {p : SetAppPointer} {t : SetSuccessor}
    (htypes : keccak256 (asBytes setAppPointerType) ≠ keccak256 (asBytes setSuccessorType)) :
    p.preimage keccak256 ≠ t.preimage keccak256 := by
  intro heq
  exact htypes (List.cons.inj (packWords_inj_of_pos (by decide) heq)).1

theorem setAppPointerType_ne : asBytes setAppPointerType ≠ asBytes setSuccessorType := by
  intro heq
  have hlength := congrArg List.length heq
  simp only [asBytes, List.length_map, String.length_toList] at hlength
  exact absurd hlength (by decide)

end

end Blobsitter.Reference.Eip712
