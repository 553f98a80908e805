import Vanetza.Security.V3.Canonical

/-!
# v3 secured messages

The parts of an `EtsiTs103097Data` structure the verify service reads, and the
hash its signature covers. The to-be-signed data is hashed in its encoded form;
its encoder is a parameter and may fail.
-/

namespace Vanetza.Security.V3

open Asn1

/-- The alternatives of `HashAlgorithm` in a message. -/
inductive HashId where
  | sha256
  | sha384
  | sm3
  deriving DecidableEq

namespace Asn1

inductive SignerIdentifier where
  | nothing
  | digest (digest : HashedId8)
  | certificate (certificates : List Certificate)
  | self
  deriving DecidableEq

/-- `ToBeSignedData`; whatever the verify service does not look into (the
payload and further header fields) stands in `remaining`. -/
structure ToBeSignedData where
  psid : UInt64
  generationTime : Option Nat
  inlineP2pcdRequest : Option (List HashedId3)
  requestedCertificate : Option Certificate
  remaining : ByteBuffer
  deriving DecidableEq

structure SignedData where
  hashId : HashId
  tbsData : ToBeSignedData
  signer : SignerIdentifier
  signature : Asn1.Signature
  deriving DecidableEq

end Asn1

/-- `SecuredMessage`; the content is signed data or something else. -/
structure SecuredMessage where
  protocolVersion : UInt8
  signedData : Option SignedData
  deriving DecidableEq

/-- `SecuredMessage::SignerIdentifier`: a variant of two pointers. -/
inductive SignerIdentifier where
  | digest (digest : Option HashedId8)
  | certificate (cert : Certificate)
  deriving DecidableEq

namespace SecuredMessage

def isSigned (msg : SecuredMessage) : Bool := msg.signedData.isSome

def itsAid (msg : SecuredMessage) : ItsAid :=
  match msg.signedData with
  | some data => data.tbsData.psid.toUInt32
  | none => 0

def generationTime (msg : SecuredMessage) : Option Nat :=
  msg.signedData.bind fun data =>
    data.tbsData.generationTime.filter fun time => time < 2 ^ 64

def signature (msg : SecuredMessage) : Option Signature :=
  msg.signedData.bind fun data => signatureOf data.signature

def hashId (msg : SecuredMessage) : HashAlgorithm :=
  match msg.signedData with
  | some data => match data.hashId with
    | .sha256 => .sha256
    | .sha384 => .sha384
    | .sm3 => .unspecified
  | none => .unspecified

def signerIdentifier (msg : SecuredMessage) : SignerIdentifier :=
  match msg.signedData with
  | some data => match data.signer with
    | .digest digest => .digest (some digest)
    | .certificate [cert] => .certificate cert
    | _ => .digest none
  | none => .digest none

def signingPayload (encodeTbsData : ToBeSignedData → Option ByteBuffer)
  (msg : SecuredMessage) : Option ByteBuffer :=
  match msg.signedData with
  | some data => encodeTbsData data.tbsData
  | none => some []

end SecuredMessage

def getCertificateId (P : Platform) : SignerIdentifier → Option HashedId8
  | .digest digest => digest
  | .certificate cert => calculateDigest P cert

def containsCertificate : SignerIdentifier → Bool
  | .digest _ => false
  | .certificate _ => true

def encodedSigner (P : Platform) (cert : Certificate) : Option ByteBuffer :=
  if isCanonical cert then P.codec.encode cert
  else match canonicalize P cert with
    | some canonical => P.codec.encode canonical
    | none => some []

def calculateMessageHash (P : Platform) (backend : Backend)
  (algorithm : HashAlgorithm) (payload : ByteBuffer) (cert : Certificate) :
  Option ByteBuffer := do
  let encodedCert ← encodedSigner P cert
  backend.layeredHash algorithm payload encodedCert

def hasCanonicalForm (P : Platform) (cert : Certificate) : Bool :=
  isCanonical cert || (canonicalize P cert).isSome

theorem encodedSigner_eq {P : Platform} {cert : Certificate} (h : hasCanonicalForm P cert = true) :
  encodedSigner P cert = canonicalEncoding P cert := by
  unfold encodedSigner canonicalEncoding
  split
  · rfl
  next hc =>
  simp only [hasCanonicalForm, hc, Bool.false_or] at h
  obtain ⟨canonical, hcan⟩ := Option.isSome_iff_exists.1 h
  rw [hcan]
  rfl

theorem encodedSigner_eq_nil {P : Platform} {cert : Certificate}
  (h : hasCanonicalForm P cert = false) :
  encodedSigner P cert = some [] ∧ canonicalEncoding P cert = none := by
  simp only [hasCanonicalForm, Bool.or_eq_false_iff,
    Option.isSome_eq_false_iff, Option.isNone_iff_eq_none] at h
  simp [encodedSigner, canonicalEncoding, h.1, h.2]

end Vanetza.Security.V3
