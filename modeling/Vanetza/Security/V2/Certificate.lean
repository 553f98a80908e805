import Vanetza.Security.V2.Region

/-!
# Certificates of protocol version 2

A certificate names its signer, and the signer information of a certificate may
in turn hold a certificate or a chain of them. The deserializer of certificates
refuses such nesting, the types and the serializer do not.
-/

namespace Vanetza.Security.V2

open InputArchive

structure SubjectType where
  raw : UInt8
  deriving DecidableEq

namespace SubjectType

def authorizationTicket : SubjectType := ⟨1⟩
def authorizationAuthority : SubjectType := ⟨2⟩
def rootCa : SubjectType := ⟨4⟩

end SubjectType

structure SubjectInfo where
  subjectType : SubjectType
  subjectName : ByteBuffer
  deriving DecidableEq

namespace SubjectInfo

def getSize (sub : SubjectInfo) : Nat :=
  1 + sub.subjectName.length + lengthCodingSize sub.subjectName.length

def serialize (sub : SubjectInfo) : ByteBuffer :=
  sub.subjectType.raw :: (encodeLength sub.subjectName.length ++ sub.subjectName)

def deserialize : Deserialize (SubjectInfo × Nat) := do
  let type ← loadByte
  let size ← deserializeLength
  let sub : SubjectInfo := ⟨⟨type⟩, ← loadBinary size⟩
  return (sub, sub.getSize)

end SubjectInfo

structure SubjectAssurance where
  raw : UInt8
  deriving DecidableEq

namespace SubjectAssurance

def assurance (level : SubjectAssurance) : UInt8 := (level.raw &&& 0xE0) >>> 5

def confidence (level : SubjectAssurance) : UInt8 := level.raw &&& 0x03

end SubjectAssurance

structure ItsAidSsp where
  itsAid : IntX
  serviceSpecificPermissions : ByteBuffer
  deriving DecidableEq

namespace ItsAidSsp

def getSize (ssp : ItsAidSsp) : Nat :=
  ssp.itsAid.getSize + ssp.serviceSpecificPermissions.length +
    lengthCodingSize ssp.serviceSpecificPermissions.length

def serialize (ssp : ItsAidSsp) : ByteBuffer :=
  ssp.itsAid.serialize ++ encodeLength ssp.serviceSpecificPermissions.length ++
    ssp.serviceSpecificPermissions

def deserialize : Deserialize (ItsAidSsp × Nat) := do
  let (itsAid, size) ← IntX.deserialize
  let bufSize ← deserializeLength
  if bufSize ≤ 1024 then
    let permissions ← loadBinary bufSize
    return (⟨itsAid, permissions⟩, size + (bufSize + lengthCodingSize bufSize))
  else
    fail .excessiveLength
    return (⟨itsAid, []⟩, size)

end ItsAidSsp

inductive SubjectAttribute where
  | verificationKey (key : PublicKey)
  | encryptionKey (key : PublicKey)
  | assuranceLevel (level : SubjectAssurance)
  | reconstructionValue (point : EccPoint)
  | itsAidList (list : List IntX)
  | itsAidSspList (list : List ItsAidSsp)
  deriving DecidableEq

inductive SubjectAttributeType where
  | verificationKey
  | encryptionKey
  | assuranceLevel
  | reconstructionValue
  | itsAidList
  | itsAidSspList
  deriving DecidableEq

namespace SubjectAttributeType

def code : SubjectAttributeType → UInt8
  | .verificationKey => 0
  | .encryptionKey => 1
  | .assuranceLevel => 2
  | .reconstructionValue => 3
  | .itsAidList => 32
  | .itsAidSspList => 33

def ofCode : UInt8 → Option SubjectAttributeType :=
  findCode [verificationKey, encryptionKey, assuranceLevel,
    reconstructionValue, itsAidList, itsAidSspList] code

end SubjectAttributeType

namespace SubjectAttribute

def getType : SubjectAttribute → SubjectAttributeType
  | .verificationKey _ => .verificationKey
  | .encryptionKey _ => .encryptionKey
  | .assuranceLevel _ => .assuranceLevel
  | .reconstructionValue _ => .reconstructionValue
  | .itsAidList _ => .itsAidList
  | .itsAidSspList _ => .itsAidSspList

def getSize : SubjectAttribute → Nat
  | .verificationKey key => 1 + key.getSize
  | .encryptionKey key => 1 + key.getSize
  | .assuranceLevel _ => 1 + 1
  | .itsAidList list =>
    let size := getSizeList IntX.getSize list
    1 + (size + lengthCodingSize size)
  | .reconstructionValue point => 1 + point.getSize
  | .itsAidSspList list =>
    let size := getSizeList ItsAidSsp.getSize list
    1 + (size + lengthCodingSize size)

def serialize : SubjectAttribute → Except Exception ByteBuffer
  | .verificationKey key => return SubjectAttributeType.verificationKey.code :: key.serialize
  | .encryptionKey key => return SubjectAttributeType.encryptionKey.code :: key.serialize
  | .assuranceLevel level => return [SubjectAttributeType.assuranceLevel.code, level.raw]
  | .itsAidList list =>
    return SubjectAttributeType.itsAidList.code :: (encodeLength (getSizeList IntX.getSize list) ++
        list.flatMap IntX.serialize)
  | .reconstructionValue _ => throw (.serializationError
      "unsupported serialization of SubjectAttribute with EccPoint")
  | .itsAidSspList list =>
    return SubjectAttributeType.itsAidSspList.code ::
      (encodeLength (getSizeList ItsAidSsp.getSize list) ++ list.flatMap ItsAidSsp.serialize)

def deserialize : Deserialize (SubjectAttribute × Nat) := do
  match SubjectAttributeType.ofCode (← loadByte) with
  | some .assuranceLevel => return (.assuranceLevel ⟨← loadByte⟩, 1 + 1)
  | some .verificationKey =>
    let (key, size) ← PublicKey.deserialize
    return (.verificationKey key, 1 + size)
  | some .encryptionKey =>
    let (key, size) ← PublicKey.deserialize
    return (.encryptionKey key, 1 + size)
  | some .itsAidList =>
    let (list, size) ← deserializeList IntX.deserialize
    return (.itsAidList list, 1 + size + lengthCodingSize size)
  | some .itsAidSspList =>
    let (list, size) ← deserializeList ItsAidSsp.deserialize
    return (.itsAidSspList list, 1 + size + lengthCodingSize size)
  | some .reconstructionValue => throw (.deserializationError
      "unsupported deserialization of SubjectAttribute with EccPoint")
  | none => throw (.deserializationError "Unknown SubjectAttributeType")

end SubjectAttribute

structure StartAndEndValidity where
  startValidity : UInt32
  endValidity : UInt32
  deriving DecidableEq

structure StartAndDurationValidity where
  startValidity : UInt32
  duration : UInt16
  deriving DecidableEq

inductive ValidityRestriction where
  | timeEnd (validity : UInt32)
  | timeStartAndEnd (validity : StartAndEndValidity)
  | timeStartAndDuration (validity : StartAndDurationValidity)
  | region (region : GeographicRegion)
  deriving DecidableEq

inductive ValidityRestrictionType where
  | timeEnd
  | timeStartAndEnd
  | timeStartAndDuration
  | region
  deriving DecidableEq

namespace ValidityRestrictionType

def code : ValidityRestrictionType → UInt8
  | .timeEnd => 0
  | .timeStartAndEnd => 1
  | .timeStartAndDuration => 2
  | .region => 3

def ofCode : UInt8 → Option ValidityRestrictionType :=
  findCode [timeEnd, timeStartAndEnd, timeStartAndDuration, region] code

end ValidityRestrictionType

namespace ValidityRestriction

def getType : ValidityRestriction → ValidityRestrictionType
  | .timeEnd _ => .timeEnd
  | .timeStartAndEnd _ => .timeStartAndEnd
  | .timeStartAndDuration _ => .timeStartAndDuration
  | .region _ => .region

def getSize : ValidityRestriction → Nat
  | .timeEnd _ => 1 + 4
  | .timeStartAndEnd _ => 1 + (4 + 4)
  | .timeStartAndDuration _ => 1 + (4 + 2)
  | .region area => 1 + area.getSize

def serialize (restriction : ValidityRestriction) : ByteBuffer :=
  restriction.getType.code :: match restriction with
    | .timeEnd validity => toBigEndian 4 validity.toNat
    | .timeStartAndEnd validity =>
      toBigEndian 4 validity.startValidity.toNat ++ toBigEndian 4 validity.endValidity.toNat
    | .timeStartAndDuration validity =>
      toBigEndian 4 validity.startValidity.toNat ++ toBigEndian 2 validity.duration.toNat
    | .region area => area.serialize

def deserialize : Deserialize (ValidityRestriction × Nat) := do
  match ValidityRestrictionType.ofCode (← loadByte) with
  | some .timeEnd => return (.timeEnd (← loadUInt32), 1 + 4)
  | some .timeStartAndDuration =>
    return (.timeStartAndDuration ⟨← loadUInt32, ← loadUInt16⟩, 1 + (4 + 2))
  | some .timeStartAndEnd => return (.timeStartAndEnd ⟨← loadUInt32, ← loadUInt32⟩, 1 + (4 + 4))
  | some .region =>
    let (area, size) ← GeographicRegion.deserialize
    return (.region area, 1 + size)
  | none => throw (.deserializationError "Unknown ValidityRestrictionType")

end ValidityRestriction

structure CertificateDigestWithOtherAlgorithm where
  algorithm : PublicKeyAlgorithm
  digest : HashedId8
  deriving DecidableEq

mutual

inductive SignerInfo where
  | self
  | certificateDigestWithSha256 (id : HashedId8)
  | certificate (cert : Certificate)
  | certificateChain (list : List Certificate)
  | certificateDigestWithOtherAlgorithm (digest : CertificateDigestWithOtherAlgorithm)

structure Certificate where
  signerInfo : SignerInfo
  subjectInfo : SubjectInfo
  subjectAttributes : List SubjectAttribute
  validityRestriction : List ValidityRestriction
  signature : Signature

end

inductive SignerInfoType where
  | self
  | certificateDigestWithSha256
  | certificate
  | certificateChain
  | certificateDigestWithOtherAlgorithm
  deriving DecidableEq

namespace SignerInfoType

def code : SignerInfoType → UInt8
  | .self => 0
  | .certificateDigestWithSha256 => 1
  | .certificate => 2
  | .certificateChain => 3
  | .certificateDigestWithOtherAlgorithm => 4

def ofCode : UInt8 → Option SignerInfoType :=
  findCode [self, certificateDigestWithSha256, certificate, certificateChain,
    certificateDigestWithOtherAlgorithm] code

end SignerInfoType

def SignerInfo.getType : SignerInfo → SignerInfoType
  | .self => .self
  | .certificateDigestWithSha256 _ => .certificateDigestWithSha256
  | .certificate _ => .certificate
  | .certificateChain _ => .certificateChain
  | .certificateDigestWithOtherAlgorithm _ =>
    .certificateDigestWithOtherAlgorithm

mutual

def SignerInfo.getSize : SignerInfo → Nat
  | .self => 1 + 0
  | .certificateDigestWithSha256 _ => 1 + 8
  | .certificate cert => 1 + cert.getSize
  | .certificateChain list =>
    let size := Certificate.getSizes list
    1 + (size + lengthCodingSize size)
  | .certificateDigestWithOtherAlgorithm _ => 1 + (8 + 1)

def Certificate.getSize : Certificate → Nat
  | ⟨signer, subject, attributes, restrictions, signature⟩ =>
    let attributesSize := getSizeList SubjectAttribute.getSize attributes
    let restrictionsSize := getSizeList ValidityRestriction.getSize restrictions
    1 + signer.getSize + subject.getSize + attributesSize + lengthCodingSize attributesSize +
      restrictionsSize + lengthCodingSize restrictionsSize +
      signature.getSize

def Certificate.getSizes : List Certificate → Nat
  | [] => 0
  | cert :: certs => cert.getSize + Certificate.getSizes certs

end

def serializeAttributes (attributes : List SubjectAttribute) : Except Exception ByteBuffer := do
  let elements ← attributes.mapM SubjectAttribute.serialize
  return encodeLength (getSizeList SubjectAttribute.getSize attributes) ++ elements.flatten

def serializeRestrictions (restrictions : List ValidityRestriction) : ByteBuffer :=
  encodeLength (getSizeList ValidityRestriction.getSize restrictions) ++
    restrictions.flatMap ValidityRestriction.serialize

mutual

def SignerInfo.serialize : SignerInfo → Except Exception ByteBuffer
  | .self => return [SignerInfoType.self.code]
  | .certificateDigestWithSha256 id =>
    return SignerInfoType.certificateDigestWithSha256.code :: id.toList
  | .certificate cert => do
      return SignerInfoType.certificate.code :: (← cert.serialize)
  | .certificateChain list => do
      return SignerInfoType.certificateChain.code :: (encodeLength (Certificate.getSizes list) ++
          (← Certificate.serializes list))
  | .certificateDigestWithOtherAlgorithm digest =>
    return SignerInfoType.certificateDigestWithOtherAlgorithm.code ::
      digest.algorithm.raw :: digest.digest.toList

def Certificate.serialize : Certificate → Except Exception ByteBuffer
  | ⟨signer, subject, attributes, restrictions, signature⟩ => do
      let signerBytes ← signer.serialize
      let attributeBytes ← serializeAttributes attributes
      return 2 :: (signerBytes ++ subject.serialize ++ attributeBytes ++
        serializeRestrictions restrictions ++ signature.serialize)

def Certificate.serializes : List Certificate → Except Exception ByteBuffer
  | [] => return []
  | cert :: certs => do
      return (← cert.serialize) ++ (← Certificate.serializes certs)

end

/-- `convert_for_signing`: all but the signature. -/
def Certificate.convertForSigning (cert : Certificate) : Except Exception ByteBuffer := do
  let signerBytes ← cert.signerInfo.serialize
  let attributeBytes ← serializeAttributes cert.subjectAttributes
  return 2 :: (signerBytes ++ cert.subjectInfo.serialize ++ attributeBytes ++
    serializeRestrictions cert.validityRestriction)

def CertificateDigestWithOtherAlgorithm.deserialize :
  Deserialize (CertificateDigestWithOtherAlgorithm × Nat) := do
  return (⟨⟨← loadByte⟩, ← loadOctets 8⟩, 8 + 1)

def SignerInfo.deserializeCertificateSigner : Deserialize (SignerInfo × Nat) := do
  match SignerInfoType.ofCode (← loadByte) with
  | some .certificate | some .certificateChain =>
    throw (.deserializationError "Illegal SignerInfo for Certificate")
  | some .certificateDigestWithSha256 =>
    return (.certificateDigestWithSha256 (← loadOctets 8), 1 + 8)
  | some .certificateDigestWithOtherAlgorithm =>
    let (digest, size) ← CertificateDigestWithOtherAlgorithm.deserialize
    return (.certificateDigestWithOtherAlgorithm digest, 1 + size)
  | some .self => return (.self, 1)
  | none => throw (.deserializationError "Unknown SignerInfoType")

def Certificate.deserialize : Deserialize (Certificate × Nat) := do
  let version ← loadByte
  if version = 2 then
    let (signer, signerSize) ← SignerInfo.deserializeCertificateSigner
    let (subject, subjectSize) ← SubjectInfo.deserialize
    let (attributes, attributesSize) ←
      deserializeList SubjectAttribute.deserialize
    let (restrictions, restrictionsSize) ←
      deserializeList ValidityRestriction.deserialize
    let (signature, signatureSize) ← Signature.deserialize
    return (⟨signer, subject, attributes, restrictions, signature⟩,
      1 + signerSize + subjectSize + attributesSize +
        lengthCodingSize (getSizeList SubjectAttribute.getSize attributes) +
        restrictionsSize +
        lengthCodingSize (getSizeList ValidityRestriction.getSize restrictions)
        + signatureSize)
  else throw (.deserializationError "Unsupported Certificate version")

def SignerInfo.deserialize : Deserialize (SignerInfo × Nat) := do
  match SignerInfoType.ofCode (← loadByte) with
  | some .certificate =>
    let (cert, size) ← Certificate.deserialize
    return (.certificate cert, 1 + size)
  | some .certificateChain =>
    let (list, size) ← deserializeList Certificate.deserialize
    return (.certificateChain list, 1 + size + lengthCodingSize (1 + size))
  | some .certificateDigestWithSha256 =>
    return (.certificateDigestWithSha256 (← loadOctets 8), 1 + 8)
  | some .certificateDigestWithOtherAlgorithm =>
    let (digest, size) ← CertificateDigestWithOtherAlgorithm.deserialize
    return (.certificateDigestWithOtherAlgorithm digest, 1 + size)
  | some .self => return (.self, 1)
  | none => throw (.deserializationError "Unknown SignerInfoType")

namespace Certificate

/-- `get_attribute`: the first one of a type. -/
def getAttribute (cert : Certificate) (type : SubjectAttributeType) : Option SubjectAttribute :=
  cert.subjectAttributes.find? fun sub => sub.getType = type

def getRestriction (cert : Certificate) (type : ValidityRestrictionType) :
  Option ValidityRestriction :=
  cert.validityRestriction.find? fun restriction => restriction.getType = type

def assuranceLevel (cert : Certificate) : Option SubjectAssurance :=
  match cert.getAttribute .assuranceLevel with
  | some (.assuranceLevel level) => some level
  | _ => none

def itsAidList (cert : Certificate) : Option (List IntX) :=
  match cert.getAttribute .itsAidList with
  | some (.itsAidList list) => some list
  | _ => none

def itsAidSspList (cert : Certificate) : Option (List ItsAidSsp) :=
  match cert.getAttribute .itsAidSspList with
  | some (.itsAidSspList list) => some list
  | _ => none

def timeStartAndEnd (cert : Certificate) : Option StartAndEndValidity :=
  match cert.getRestriction .timeStartAndEnd with
  | some (.timeStartAndEnd validity) => some validity
  | _ => none

def region (cert : Certificate) : Option GeographicRegion :=
  match cert.getRestriction .region with
  | some (.region area) => some area
  | _ => none

/-- `get_uncompressed_public_key`. The key of the attribute is read as an ECDSA
key, which throws if it is an ECIES key. -/
def getUncompressedPublicKey (cert : Certificate) (backend : Backend) :
  Except Exception (Option (ByteBuffer × ByteBuffer)) :=
  match cert.getAttribute .verificationKey with
  | some (.verificationKey (.ecdsaNistp256WithSha256 point)) => return backend.decompressPoint point
  | some (.verificationKey (.eciesNistp256 _ _)) => throw .badGet
  | _ => return none

def getPublicKey (cert : Certificate) (backend : Backend) :
  Except Exception (Option Ecdsa256.PublicKey) := do
  match ← cert.getUncompressedPublicKey backend with
  | some (x, y) =>
    if h : x.length = 32 ∧ y.length = 32 then
      return some ⟨⟨x, h.1⟩, ⟨y, h.2⟩⟩
    else return none
  | none => return none

def canonical (cert : Certificate) : Certificate :=
  match cert.signature.extractEcdsaSignature with
  | some sig => { cert with signature := ⟨sig.r.toXCoordinateOnly, sig.s⟩ }
  | none => cert

def calculateHash (cert : Certificate) (backend : Backend) : Except Exception HashedId8 := do
  let bytes ← cert.canonical.serialize
  return createHashedId8OfSha256 (backend.sha256 bytes)

end Certificate

end Vanetza.Security.V2
