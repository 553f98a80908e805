import Vanetza.Common.Serialization
import Vanetza.Pki.Storage
import Vanetza.Security.Pqc.CertificateSigning
import Vanetza.Security.Pqc.HashBinding

/-!
# Signed data of the PKI tool

`create_signed` wraps a payload for the PKI and signs it, `validate` checks such a message against
a certificate. Both hash the data and the certificate in the same way, and an octet string that is
shorter than its field is padded on the left, which keeps its number. Functions that may throw
return `none` then.
-/

namespace Vanetza.Pki

open Security Security.V3 Security.V3.Asn1

/-- `EtsiTs103097Data` with `unsecuredData`, the payload of what the tool signs. -/
structure UnsecuredData where
  protocolVersion : UInt8
  octets : ByteBuffer
  deriving DecidableEq

/-- `ToBeSignedData`; all fields the tool does not set stand together in `remaining`. -/
structure ScrTbsData where
  psid : UInt64
  generationTime : Option Nat
  payload : Option UnsecuredData
  remaining : ByteBuffer
  deriving DecidableEq

structure ScrSignedData where
  hashId : HashId
  signer : Asn1.SignerIdentifier
  tbsData : ScrTbsData
  signature : Asn1.Signature
  deriving DecidableEq

/-- `EtsiTs103097Data` whose content is signed data, or something else. -/
structure ScrMessage where
  protocolVersion : UInt8
  signedData : Option ScrSignedData
  deriving DecidableEq

/-- The part of `SecurityModule` that signed data needs, with the OER encoders. -/
structure SigningModule where
  platform : Platform
  encodeTbsData : ScrTbsData → Option ByteBuffer
  sign : ByteBuffer → PublicKey → Option Security.Signature
  verify : ByteBuffer → Security.Signature → PublicKey → Bool

def copyLeftPadded (src : ByteBuffer) (len : Nat) : Option ByteBuffer :=
  if src.length > len then none else some (List.replicate (len - src.length) 0 ++ src)

def paddedSignature (signature : Security.Signature) (len : Nat) : Option EcdsaSignature := do
  let r ← copyLeftPadded signature.r len
  let s ← copyLeftPadded signature.s len
  return ⟨.xOnly r, s⟩

def copySignature (signature : Security.Signature) : Option Asn1.Signature :=
  match signature.type with
  | .nistP256 => (paddedSignature signature 32).map .ecdsaNistP256Signature
  | .brainpoolP256r1 => (paddedSignature signature 32).map .ecdsaBrainpoolP256r1Signature
  | .brainpoolP384r1 => (paddedSignature signature 48).map .ecdsaBrainpoolP384r1Signature
  | .unspecified => none

def makeSignature (signature : Asn1.Signature) : Security.Signature :=
  (signatureOf signature).getD ⟨[], [], .unspecified⟩

def convertHash : HashAlgorithm → Option HashId
  | .sha256 => some .sha256
  | .sha384 => some .sha384
  | .unspecified => none

def getHashAlgorithm (data : ScrSignedData) : HashAlgorithm :=
  match data.hashId with
  | .sha256 => .sha256
  | .sha384 => .sha384
  | .sm3 => .unspecified

def scrTbsData (payload : ByteBuffer) (now : Nat) : ScrTbsData :=
  ⟨623, some now, some ⟨3, payload⟩, []⟩

namespace SigningModule

variable (security : SigningModule)

def backend : Backend where
  calculateHash
    | .sha256, buffer => some (security.platform.calculateSha256Digest buffer).toList
    | .sha384, buffer => some (security.platform.calculateSha384Digest buffer).toList
    | .unspecified, _ => none
  verifyDigest key digest signature := some (security.verify digest signature key)

/-- `calculate_digest`; without a certificate the empty string is hashed in its place. -/
def calculateDigest (algorithm : HashAlgorithm) (tbsData : ScrTbsData) (cert : Option Certificate) :
  Option ByteBuffer := do
  let tbs ← security.encodeTbsData tbsData
  let signer ← match cert with
    | some cert => security.platform.codec.encode cert
    | none => some []
  security.backend.layeredHash algorithm tbs signer

def signerOf : Option Certificate → Option Asn1.SignerIdentifier
  | some cert => (calculateHashedId8 security.platform cert).map .digest
  | none => some .self

def createSigned (payload : ByteBuffer) (signingKey : PublicKey) (algorithm : HashAlgorithm)
  (signerCert : Option Certificate) (now : Nat) : Option ScrMessage := do
  let hashId ← convertHash algorithm
  let signer ← security.signerOf signerCert
  let digest ← security.calculateDigest algorithm (scrTbsData payload now) signerCert
  let made ← security.sign digest signingKey
  let signature ← copySignature made
  return ⟨3, some ⟨hashId, signer, scrTbsData payload now, signature⟩⟩

def validateSigned (data : ScrSignedData) (cert : Certificate) : Option Bool := do
  let publicKey ← getPublicKey cert
  if getHashAlgorithm data = .unspecified then return false
  else
    let digest ← security.calculateDigest (getHashAlgorithm data) data.tbsData (some cert)
    return security.verify digest (makeSignature data.signature) publicKey

def validate (message : ScrMessage) (cert : Certificate) : Option Bool :=
  match message.signedData with
  | some data => security.validateSigned data cert
  | none => some false

end SigningModule

/-- Signatures of one type with the same numbers: leading zeros do not count. -/
def SameNumbers (a b : Security.Signature) : Prop :=
  a.type = b.type ∧ ofBigEndian a.r = ofBigEndian b.r ∧ ofBigEndian a.s = ofBigEndian b.s

instance : DecidableRel SameNumbers := fun _ _ => inferInstanceAs (Decidable (_ ∧ _ ∧ _))

/-- What is signed verifies, whatever zeros precede its numbers, and with nothing else; the numbers
fit their field. Octets determine what is encoded. -/
structure Ideal (security : SigningModule) : Prop where
  accepts : ∀ {digest key made signature}, security.sign digest key = some made →
    SameNumbers made signature → security.verify digest signature key = true
  binds : ∀ {digest key made signature}, security.sign digest key = some made →
    SameNumbers made signature → ∀ {digest' key'}, security.verify digest' signature key' = true →
      digest' = digest ∧ key' = key
  fits : ∀ {digest key made}, security.sign digest key = some made → made.type = key.type ∧
    made.r.length ≤ keyLength key.type ∧ made.s.length ≤ keyLength key.type
  encodes : ∀ {a b octets}, security.encodeTbsData a = some octets →
    security.encodeTbsData b = some octets → a = b

theorem ofBigEndian_zeros (n : Nat) (bytes : ByteBuffer) :
  ofBigEndian (List.replicate n 0 ++ bytes) = ofBigEndian bytes := by
  induction n with
  | zero => rfl
  | succ n ih => exact ih

theorem copyLeftPadded_eq_some {src dst : ByteBuffer} {len : Nat}
  (h : copyLeftPadded src len = some dst) : ofBigEndian src = ofBigEndian dst := by
  unfold copyLeftPadded at h
  split at h
  · cases h
  · cases h
    exact (ofBigEndian_zeros _ src).symm

theorem paddedSignature_eq_some {signature : Security.Signature} {len : Nat} {sig : EcdsaSignature}
  (h : paddedSignature signature len = some sig) :
  ofBigEndian signature.r = ofBigEndian (getXCoordinate sig.rSig) ∧
    ofBigEndian signature.s = ofBigEndian sig.sSig := by
  obtain ⟨r, hr, h⟩ := Option.bind_eq_some_iff.1 h
  obtain ⟨s, hs, h⟩ := Option.bind_eq_some_iff.1 h
  cases h
  exact ⟨copyLeftPadded_eq_some hr, copyLeftPadded_eq_some hs⟩

/-- What the validator reads is the signature that has been made, up to leading zeros. -/
theorem sameNumbers_makeSignature {made : Security.Signature} {signature : Asn1.Signature}
  (h : copySignature made = some signature) : SameNumbers made (makeSignature signature) := by
  unfold copySignature at h
  split at h
  iterate 3 next ht =>
      obtain ⟨sig, hs, rfl⟩ := Option.map_eq_some_iff.1 h
      exact ⟨ht, paddedSignature_eq_some hs⟩
  · cases h

theorem copySignature_isSome {made : Security.Signature} (ht : made.type ≠ .unspecified)
  (hr : made.r.length ≤ keyLength made.type) (hs : made.s.length ≤ keyLength made.type) :
  (copySignature made).isSome := by
  have hp : ∀ {len}, made.r.length ≤ len → made.s.length ≤ len →
      (paddedSignature made len).isSome := by
    intro len hr hs
    rw [paddedSignature, copyLeftPadded, copyLeftPadded, if_neg (Nat.not_lt.2 hr),
      if_neg (Nat.not_lt.2 hs)]
    rfl
  unfold copySignature
  split
  iterate 3 next h =>
      rw [h] at hr hs
      rw [Option.isSome_map]
      exact hp hr hs
  · next h => exact absurd h ht

namespace SigningModule

variable {security : SigningModule} {algorithm : HashAlgorithm} {tbsData : ScrTbsData}
  {cert : Certificate} {digest : ByteBuffer}

theorem calculateDigest_eq_some :
  security.calculateDigest algorithm tbsData (some cert) = some digest ↔ ∃ tbs signer,
    security.encodeTbsData tbsData = some tbs ∧ security.platform.codec.encode cert = some signer ∧
      security.backend.layeredHash algorithm tbs signer = some digest := by
  simp [calculateDigest, Option.bind_eq_some_iff]

def digestLength : HashAlgorithm → Nat
  | .sha256 => 32
  | .sha384 => 48
  | .unspecified => 0

theorem length_of_calculateHash {input hash : ByteBuffer}
  (h : security.backend.calculateHash algorithm input = some hash) :
  hash.length = digestLength algorithm := by
  cases algorithm with
  | unspecified => cases h
  | sha256 =>
    cases h
    exact List.Vector.toList_length _
  | sha384 =>
    cases h
    exact List.Vector.toList_length _

theorem length_of_calculateDigest
  (h : security.calculateDigest algorithm tbsData (some cert) = some digest) :
  digest.length = digestLength algorithm := by
  obtain ⟨tbs, signer, -, -, h⟩ := calculateDigest_eq_some.1 h
  obtain ⟨_, _, -, -, h⟩ := Backend.layeredHash_eq_some.1 h
  exact length_of_calculateHash h

def hashInputs (security : SigningModule) (algorithm : HashAlgorithm) (tbsData : ScrTbsData)
  (cert : Certificate) : List ByteBuffer :=
  security.backend.layeredInputs algorithm ((security.encodeTbsData tbsData).getD [])
    ((security.platform.codec.encode cert).getD [])

/-- `calculate_sha256_hash` and `calculate_sha384_hash` of a certificate. -/
def certificateHash (security : SigningModule) (algorithm : HashAlgorithm) (cert : Certificate) :
  Option ByteBuffer :=
  (security.platform.codec.encode cert).bind (security.backend.calculateHash algorithm)

theorem calculateDigest_binds (hidl : Ideal security) {tbsData' : ScrTbsData} {cert' : Certificate}
  (h : security.calculateDigest algorithm tbsData (some cert) = some digest)
  (h' : security.calculateDigest algorithm tbsData' (some cert') = some digest)
  (hf : security.backend.CollisionFree algorithm
    (security.hashInputs algorithm tbsData cert ++ security.hashInputs algorithm tbsData' cert')) :
  tbsData' = tbsData ∧
    security.certificateHash algorithm cert' = security.certificateHash algorithm cert := by
  obtain ⟨tbs, signer, ht, hs, h⟩ := calculateDigest_eq_some.1 h
  obtain ⟨tbs', signer', ht', hs', h'⟩ := calculateDigest_eq_some.1 h'
  simp only [hashInputs, ht, hs, ht', hs', Option.getD_some] at hf
  obtain ⟨rfl, rfl⟩ := Backend.layeredHash_inj ⟨_, fun _ _ hh => length_of_calculateHash hh⟩ hf h h'
  refine ⟨hidl.encodes ht' ht, ?_⟩
  rw [certificateHash, certificateHash, hs, hs']

variable {payload : ByteBuffer} {key : PublicKey} {now : Nat}

theorem createSigned_eq_some {signerCert : Option Certificate} {msg : ScrMessage}
  (h : security.createSigned payload key algorithm signerCert now = some msg) :
  ∃ hashId signer digest made sig, convertHash algorithm = some hashId ∧
    security.signerOf signerCert = some signer ∧
    security.calculateDigest algorithm (scrTbsData payload now) signerCert = some digest ∧
    security.sign digest key = some made ∧ copySignature made = some sig ∧
    msg = ⟨3, some ⟨hashId, signer, scrTbsData payload now, sig⟩⟩ := by
  simp only [createSigned, Option.bind_eq_bind, Option.bind_eq_some_iff] at h
  obtain ⟨hashId, hh, signer, hs, digest, hd, made, hm, sig, hc, h⟩ := h
  cases h
  exact ⟨hashId, signer, digest, made, sig, hh, hs, hd, hm, hc, rfl⟩

theorem type_of_getPublicKey (h : getPublicKey cert = some key) : key.type ≠ .unspecified := by
  have hpt : ∀ {type point}, copyCurvePoint type point = some key → key.type = type := by
    intro type point hpt
    cases point <;> cases hpt <;> rfl
  unfold getPublicKey at h
  split at h
  iterate 3 exact fun ht => by cases (hpt h).symm.trans ht
  · cases h

/-- A certificate with a digest and a known key are enough to get a message. -/
theorem createSigned_isSome_iff (hidl : Ideal security) (ha : algorithm ≠ .unspecified)
  (hk : getPublicKey cert = some key) :
  (security.createSigned payload key algorithm (some cert) now).isSome ↔
    (calculateHashedId8 security.platform cert).isSome ∧ ∃ digest made,
      security.calculateDigest algorithm (scrTbsData payload now) (some cert) = some digest ∧
      security.sign digest key = some made := by
  constructor
  · intro h
    obtain ⟨msg, hmes⟩ := Option.isSome_iff_exists.1 h
    obtain ⟨_, signer, digest, made, _, -, hsig, hd, hm, -⟩ := createSigned_eq_some hmes
    obtain ⟨id, hid, -⟩ := Option.map_eq_some_iff.1 hsig
    exact ⟨Option.isSome_of_eq_some hid, digest, made, hd, hm⟩
  · rintro ⟨hid, digest, made, hd, hm⟩
    obtain ⟨id, hid⟩ := Option.isSome_iff_exists.1 hid
    obtain ⟨ht, hr, hs⟩ := hidl.fits hm
    rw [← ht] at hr hs
    have hkn : made.type ≠ .unspecified := ht ▸ type_of_getPublicKey hk
    obtain ⟨sig, hc⟩ := Option.isSome_iff_exists.1 (copySignature_isSome hkn hr hs)
    have hh : ∃ hashId, convertHash algorithm = some hashId := by
      cases algorithm with
      | unspecified => exact absurd rfl ha
      | sha256 => exact ⟨_, rfl⟩
      | sha384 => exact ⟨_, rfl⟩
    obtain ⟨hashId, hh⟩ := hh
    simp [createSigned, signerOf, hh, hid, hd, hm, hc]

theorem getHashAlgorithm_of_convertHash {data : ScrSignedData}
  (h : convertHash algorithm = some data.hashId) : getHashAlgorithm data = algorithm := by
  cases algorithm with
  | unspecified => cases h
  | sha256 => rw [getHashAlgorithm, ← Option.some.inj h]
  | sha384 => rw [getHashAlgorithm, ← Option.some.inj h]

theorem validateSigned_eq_true {data : ScrSignedData} :
  security.validateSigned data cert = some true ↔ ∃ publicKey digest,
    getPublicKey cert = some publicKey ∧ getHashAlgorithm data ≠ .unspecified ∧
    security.calculateDigest (getHashAlgorithm data) data.tbsData (some cert) = some digest ∧
    security.verify digest (makeSignature data.signature) publicKey = true := by
  unfold validateSigned
  cases getPublicKey cert with
  | none => simp
  | some publicKey =>
    by_cases ha : getHashAlgorithm data = .unspecified <;>
      simp [ha, Option.bind_eq_some_iff]

end SigningModule

open SigningModule

/-- What `create_signed` makes passes `validate`, and its signature passes
for no other data or certificate. -/
theorem createSigned_validates (security : SigningModule) (hideal : Ideal security)
  (payload : ByteBuffer) (key : PublicKey) (algorithm : HashAlgorithm)
  (halgorithm : algorithm = .sha256 ∨ algorithm = .sha384) (cert : Certificate)
  (hkey : getPublicKey cert = some key) (now : Nat) :
  ((security.createSigned payload key algorithm (some cert) now).isSome ↔
    (calculateHashedId8 security.platform cert).isSome ∧ ∃ digest made,
      security.calculateDigest algorithm (scrTbsData payload now) (some cert) = some digest ∧
      security.sign digest key = some made) ∧
  ∀ message, security.createSigned payload key algorithm (some cert) now = some message →
    security.validate message cert = some true ∧ ∀ data, message.signedData = some data →
      ∀ other : ScrMessage, ∀ otherData, other.signedData = some otherData →
        otherData.signature = data.signature → ∀ otherCert,
        security.backend.CollisionFree algorithm (security.hashInputs algorithm data.tbsData cert ++
          security.hashInputs algorithm otherData.tbsData otherCert) →
        otherData.tbsData ≠ data.tbsData ∨
          security.certificateHash algorithm otherCert ≠ security.certificateHash algorithm cert →
        security.validate other otherCert ≠ some true := by
  have hu : algorithm ≠ .unspecified := by
    rintro rfl
    simp at halgorithm
  refine ⟨createSigned_isSome_iff hideal hu hkey, fun message hmes => ?_⟩
  obtain ⟨hashId, signer, digest, made, signature, hh, -, hdig, hm, hc, rfl⟩ :=
    createSigned_eq_some hmes
  have hs := sameNumbers_makeSignature hc
  refine ⟨?_, ?_⟩
  · have hr : getHashAlgorithm ⟨hashId, signer, scrTbsData payload now, signature⟩ = algorithm :=
      getHashAlgorithm_of_convertHash hh
    refine validateSigned_eq_true.2 ⟨key, digest, hkey, ?_, ?_, hideal.accepts hm hs⟩
    · rwa [hr]
    · rwa [hr]
  · rintro data ⟨⟩ other otherData ho hsignat otherCert hfree hd hval
    rw [validate, ho] at hval
    obtain ⟨publicKey, digest', hp, hkn, hd', hv⟩ := validateSigned_eq_true.1 hval
    rw [hsignat] at hv
    obtain ⟨rfl, -⟩ := hideal.binds hm hs hv
    -- digests of the two algorithms have different lengths
    have hl := (length_of_calculateDigest hdig).symm.trans (length_of_calculateDigest hd')
    have hr : getHashAlgorithm otherData = algorithm := by
      revert hl hkn hu
      cases algorithm <;> cases getHashAlgorithm otherData <;> simp [digestLength]
    rw [hr] at hd'
    obtain ⟨ht, hcert⟩ := calculateDigest_binds hideal hdig hd' hfree
    rcases hd with hd | hd
    · exact hd ht
    · exact hd hcert

def onlyKey : PublicKey := ⟨List.replicate 32 0, [], .nistP256, .y0⟩

theorem one_fits : [fakeCertificate].length ≤ 256 := by decide

/-- The signature of a digest is the digest itself, with the number 1. -/
def toyModule : SigningModule where
  platform := Platform.ofTable [fakeCertificate] one_fits
  encodeTbsData tbsData := if tbsData = scrTbsData [1, 2] 7 then some [9] else none
  sign digest key :=
    if key = onlyKey ∧ digest.length = 32 then some ⟨digest, [1], .nistP256⟩ else none
  verify digest signature key := key = onlyKey ∧ digest.length = 32 ∧
    SameNumbers ⟨digest, [1], .nistP256⟩ signature

theorem sign_toyModule {digest : ByteBuffer} {key : PublicKey} {made : Security.Signature} :
  toyModule.sign digest key = some made ↔
    (key = onlyKey ∧ digest.length = 32) ∧ (⟨digest, [1], .nistP256⟩ : Security.Signature) = made :=
  Option.ite_none_right_eq_some.trans (and_congr_right fun _ => Option.some_inj)

theorem ideal_toyModule : Ideal toyModule where
  accepts hsign hs := by
    obtain ⟨⟨hk, hl⟩, rfl⟩ := sign_toyModule.1 hsign
    exact decide_eq_true ⟨hk, hl, hs⟩
  binds hsign hs digest' key' hver := by
    obtain ⟨⟨rfl, hl⟩, rfl⟩ := sign_toyModule.1 hsign
    obtain ⟨rfl, hl', hs'⟩ := of_decide_eq_true hver
    have hn := hs'.2.1.trans hs.2.1.symm
    refine ⟨?_, rfl⟩
    rw [← toBigEndian_ofBigEndian digest', hl', hn, ← hl]
    exact toBigEndian_ofBigEndian _
  fits hsign := by
    obtain ⟨⟨rfl, hl⟩, rfl⟩ := sign_toyModule.1 hsign
    exact ⟨rfl, hl.le, (by decide : 1 ≤ 32)⟩
  encodes ha hb :=
    (Option.ite_none_right_eq_some.1 ha).1.trans (Option.ite_none_right_eq_some.1 hb).1.symm

theorem createSigned_validates_toy : Ideal toyModule ∧ getPublicKey fakeCertificate = some onlyKey ∧
  ∃ message, toyModule.createSigned [1, 2] onlyKey .sha256 (some fakeCertificate) 7 = some message ∧
    toyModule.validate message fakeCertificate = some true := by
  have hsp := createSigned_validates toyModule ideal_toyModule [1, 2] onlyKey .sha256 (.inl rfl)
    fakeCertificate rfl 7
  have hs : (toyModule.createSigned [1, 2] onlyKey .sha256 (some fakeCertificate) 7).isSome := by
    decide +kernel
  obtain ⟨message, hm⟩ := Option.isSome_iff_exists.1 hs
  exact ⟨ideal_toyModule, rfl, message, hm, (hsp.2 message hm).1⟩

end Vanetza.Pki
