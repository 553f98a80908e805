import Vanetza.Net.Packet
import Vanetza.Security.V2.Certificate

/-!
# Secured messages of protocol version 2

Header fields, payload and trailer fields, and how a message is read and written.
-/

namespace Vanetza.Security.V2

open InputArchive

/-- `EncryptionParameter`; a nonce is its only alternative. -/
structure EncryptionParameter where
  nonce : Octets 12
  deriving DecidableEq

namespace EncryptionParameter

def getType (_ : EncryptionParameter) : SymmetricAlgorithm := .aes128Ccm

def getSize (_ : EncryptionParameter) : Nat := 1 + 12

def serialize (param : EncryptionParameter) : ByteBuffer := param.getType.raw :: param.nonce.toList

def deserialize : Deserialize (EncryptionParameter × Nat) := do
  let algo : SymmetricAlgorithm := ⟨← loadByte⟩
  if algo = .aes128Ccm then
    let param : EncryptionParameter := ⟨← loadOctets 12⟩
    return (param, param.getSize)
  else throw (.deserializationError "Unknown Symmetric Algorithm")

end EncryptionParameter

structure EciesEncryptedKey where
  v : EccPoint
  c : ByteBuffer
  t : Octets 16
  deriving DecidableEq

inductive Key where
  | ecies (key : EciesEncryptedKey)
  | opaqueKey (data : ByteBuffer)
  deriving DecidableEq

structure RecipientInfo where
  certId : HashedId8
  encKey : Key
  deriving DecidableEq

namespace RecipientInfo

def pkEncryption (info : RecipientInfo) : PublicKeyAlgorithm :=
  match info.encKey with
  | .ecies _ => .eciesNistp256
  | .opaqueKey _ => .ecdsaNistp256WithSha256

def getSize (info : RecipientInfo) : Nat :=
  8 + 1 + match info.encKey with
    | .ecies key => key.c.length + 16 + key.v.getSize
    | .opaqueKey data => lengthCodingSize data.length + data.length

def serialize (info : RecipientInfo) : ByteBuffer :=
  info.certId.toList ++ info.pkEncryption.raw :: match info.encKey with
    | .ecies key => key.v.serialize ++ key.c ++ key.t.toList
    | .opaqueKey data => encodeLength data.length ++ data

def deserializeEcies (symAlgo : SymmetricAlgorithm) : Deserialize EciesEncryptedKey := do
  let v ← EccPoint.deserialize .eciesNistp256
  let fieldSize ← symAlgo.fieldSize
  let c ← loadBinary fieldSize
  return ⟨v, c, ← loadOctets 16⟩

/-- `deserialize_opaque`. Octets beyond the limit are neither read nor is the
archive marked. -/
def deserializeOpaque : Deserialize ByteBuffer := do
  let length ← deserializeLength
  if length ≤ 512 then loadBinary length else return []

def deserialize (symAlgo : SymmetricAlgorithm) : Deserialize (RecipientInfo × Nat) := do
  let certId ← loadOctets 8
  let algo : PublicKeyAlgorithm := ⟨← loadByte⟩
  let encKey ←
    if algo = .eciesNistp256 then Key.ecies <$> deserializeEcies symAlgo
    else Key.opaqueKey <$> deserializeOpaque
  let info : RecipientInfo := ⟨certId, encKey⟩
  return (info, info.getSize)

end RecipientInfo

inductive HeaderField where
  | generationTime (time : UInt64)
  | generationTimeConfidence (time : UInt64) (logStdDev : UInt8)
  | expiration (time : UInt32)
  | generationLocation (location : ThreeDLocation)
  | requestUnrecognizedCertificate (list : List HashedId3)
  | itsAid (id : IntX)
  | signerInfo (info : SignerInfo)
  | encryptionParameters (param : EncryptionParameter)
  | recipientInfo (list : List RecipientInfo)

inductive HeaderFieldType where
  | generationTime
  | generationTimeConfidence
  | expiration
  | generationLocation
  | requestUnrecognizedCertificate
  | itsAid
  | signerInfo
  | encryptionParameters
  | recipientInfo
  deriving DecidableEq

namespace HeaderFieldType

def code : HeaderFieldType → UInt8
  | .generationTime => 0
  | .generationTimeConfidence => 1
  | .expiration => 2
  | .generationLocation => 3
  | .requestUnrecognizedCertificate => 4
  | .itsAid => 5
  | .signerInfo => 128
  | .encryptionParameters => 129
  | .recipientInfo => 130

def ofCode : UInt8 → Option HeaderFieldType :=
  findCode [generationTime, generationTimeConfidence, expiration,
    generationLocation, requestUnrecognizedCertificate, itsAid, signerInfo,
    encryptionParameters, recipientInfo] code

end HeaderFieldType

namespace HeaderField

def getType : HeaderField → HeaderFieldType
  | .generationTime _ => .generationTime
  | .generationTimeConfidence _ _ => .generationTimeConfidence
  | .expiration _ => .expiration
  | .generationLocation _ => .generationLocation
  | .requestUnrecognizedCertificate _ => .requestUnrecognizedCertificate
  | .itsAid _ => .itsAid
  | .signerInfo _ => .signerInfo
  | .encryptionParameters _ => .encryptionParameters
  | .recipientInfo _ => .recipientInfo

def getSize : HeaderField → Nat
  | .generationTime _ => 1 + 8
  | .generationTimeConfidence _ _ => 1 + (8 + 1)
  | .expiration _ => 1 + 4
  | .generationLocation location => 1 + location.getSize
  | .requestUnrecognizedCertificate list =>
    let size := getSizeList (fun _ => 3) list
    1 + (size + lengthCodingSize size)
  | .itsAid id => 1 + id.getSize
  | .signerInfo info => 1 + info.getSize
  | .recipientInfo list =>
    let size := getSizeList RecipientInfo.getSize list
    1 + (size + lengthCodingSize size)
  | .encryptionParameters param => 1 + param.getSize

def serializeBody : HeaderField → Except Exception ByteBuffer
  | .generationTime time => return toBigEndian 8 time.toNat
  | .generationTimeConfidence time logStdDev => return toBigEndian 8 time.toNat ++ [logStdDev]
  | .expiration time => return toBigEndian 4 time.toNat
  | .generationLocation location => return location.serialize
  | .requestUnrecognizedCertificate list =>
    return encodeLength (getSizeList (fun _ => 3) list) ++ list.flatMap List.Vector.toList
  | .itsAid id => return id.serialize
  | .signerInfo info => info.serialize
  | .recipientInfo list =>
    return encodeLength (getSizeList RecipientInfo.getSize list) ++
      list.flatMap RecipientInfo.serialize
  | .encryptionParameters param => return param.serialize

def serialize (field : HeaderField) : Except Exception ByteBuffer := do
  return field.getType.code :: (← field.serializeBody)

def deserializeIds : Nat → Deserialize (List HashedId3)
  | 0 => return []
  | n + 1 => return (← loadOctets 3) :: (← deserializeIds n)

def deserialize (symAlgo : Option SymmetricAlgorithm) :
  HeaderFieldType → Deserialize (HeaderField × Nat)
  | .generationTime => return (.generationTime (← loadUInt64), 8)
  | .generationTimeConfidence =>
    return (.generationTimeConfidence (← loadUInt64) (← loadByte), 8 + 1)
  | .expiration => return (.expiration (← loadUInt32), 4)
  | .generationLocation => do
      let (location, size) ← ThreeDLocation.deserialize
      return (.generationLocation location, size)
  | .requestUnrecognizedCertificate => do
      let size ← deserializeLength
      -- an incomplete last group is read in full
      let list ← deserializeIds ((size + 2) / 3)
      return (.requestUnrecognizedCertificate list, size + lengthCodingSize size)
  | .itsAid => do
      let (id, size) ← IntX.deserialize
      return (.itsAid id, size)
  | .signerInfo => do
      let (info, size) ← SignerInfo.deserialize
      return (.signerInfo info, size)
  | .recipientInfo =>
    match symAlgo with
    | some algo => do
        let (list, size) ← deserializeList (RecipientInfo.deserialize algo)
        return (.recipientInfo list, size + lengthCodingSize size)
    | none => throw (.deserializationError (
        "HeaderFields: RecipientInfo read before EncryptionParameters: " ++
        "SymmetricAlgorithm still unknown"))
  | .encryptionParameters => do
      let (param, size) ← EncryptionParameter.deserialize
      return (.encryptionParameters param, size)

def nextAlgorithm (symAlgo : Option SymmetricAlgorithm) : HeaderField → Option SymmetricAlgorithm
  | .encryptionParameters param => some param.getType
  | _ => symAlgo

/-- Fields until `size` octets are read or the archive is bad, and how many
octets were counted. A field is not empty, so there are at most as many as
octets. -/
def deserializeFields (size : Nat) :
  Nat → Nat → Option SymmetricAlgorithm → Deserialize (List HeaderField × Nat)
  | 0, read, _ => return ([], read)
  | fuel + 1, read, symAlgo => do
      if read < size ∧ (← isGood) then
        match HeaderFieldType.ofCode (← loadByte) with
        | some type =>
          let (field, fieldSize) ← deserialize symAlgo type
          let (fields, total) ← deserializeFields size fuel
            (read + 1 + fieldSize) (nextAlgorithm symAlgo field)
          return (field :: fields, total)
        | none => throw (.deserializationError "Unknown HeaderFieldType")
      else return ([], read)

def deserializeList : Deserialize (List HeaderField × Nat) := do
  let size ← deserializeLength
  if 1024 < size then fail .excessiveLength
  deserializeFields size size 0 none

end HeaderField

structure PayloadType where
  raw : UInt8
  deriving DecidableEq

namespace PayloadType

def unsecured : PayloadType := ⟨0⟩
def signed : PayloadType := ⟨1⟩
def encrypted : PayloadType := ⟨2⟩

end PayloadType

structure Payload where
  type : PayloadType
  data : PacketVariant

namespace Payload

def getSize (payload : Payload) : Nat :=
  let data := payload.data.size .network .application
  1 + data + lengthCodingSize data

def serialize (payload : Payload) : ByteBuffer :=
  payload.type.raw :: (encodeLength (payload.data.size .network .application) ++ payload.data.bytes)

def deserialize : Deserialize (Payload × Nat) := do
  let type ← loadByte
  let dataLength ← deserializeLength
  if dataLength ≤ 4096 then
    let buf ← loadBinary dataLength
    return (⟨⟨type⟩, .cohesive (.ofBuffer buf .network)⟩,
      1 + lengthCodingSize dataLength + dataLength)
  else
    fail .excessiveLength
    return (⟨⟨type⟩, .chunk .empty⟩, 1)

end Payload

/-- `TrailerField`; a signature is its only alternative. -/
structure TrailerField where
  signature : Signature
  deriving DecidableEq

namespace TrailerField

def typeSignature : UInt8 := 1

def getSize (field : TrailerField) : Nat := 1 + field.signature.getSize

def serialize (field : TrailerField) : ByteBuffer := typeSignature :: field.signature.serialize

def deserialize : Deserialize (TrailerField × Nat) := do
  if (← loadByte) = typeSignature then
    let (sig, size) ← Signature.deserialize
    return (⟨sig⟩, 1 + size)
  else throw (.deserializationError "Unknown TrailerFieldType")

end TrailerField

structure SecuredMessage where
  headerFields : List HeaderField
  trailerFields : List TrailerField
  payload : Payload

namespace SecuredMessage

def getSize (message : SecuredMessage) : Nat :=
  let header := getSizeList HeaderField.getSize message.headerFields
  let trailer := getSizeList TrailerField.getSize message.trailerFields
  1 + header + lengthCodingSize header + trailer + lengthCodingSize trailer +
    message.payload.getSize

def serializeSigned (message : SecuredMessage) : Except Exception ByteBuffer := do
  let header ← message.headerFields.mapM HeaderField.serialize
  return 2 :: (encodeLength (getSizeList HeaderField.getSize message.headerFields) ++
      header.flatten ++ message.payload.serialize)

def serialize (message : SecuredMessage) : Except Exception ByteBuffer := do
  return (← message.serializeSigned) ++
    encodeLength (getSizeList TrailerField.getSize message.trailerFields) ++
    message.trailerFields.flatMap TrailerField.serialize

/-- `convert_for_signing`. The trailer goes up to the type of the first
signature, and every trailer field is a signature. -/
def convertForSigning (message : SecuredMessage)
  (trailerFields : List TrailerField) : Except Exception ByteBuffer := do
  return (← message.serializeSigned) ++
    encodeLength (getSizeList TrailerField.getSize trailerFields) ++
    match trailerFields with
      | [] => []
      | _ :: _ => [TrailerField.typeSignature]

def deserialize : Deserialize (SecuredMessage × Nat) := do
  let version ← loadByte
  if version = 2 then
    let (header, headerLength) ← HeaderField.deserializeList
    let (payload, payloadLength) ← Payload.deserialize
    let (trailer, trailerLength) ← deserializeList TrailerField.deserialize
    return (⟨header, trailer, payload⟩,
      1 + (headerLength + lengthCodingSize headerLength) + payloadLength +
        (trailerLength + lengthCodingSize trailerLength))
  else throw (.deserializationError "Unsupported SecuredMessage protocol version")

/-! The header fields a verification looks at, each the first of its type. -/

def headerField (message : SecuredMessage) (type : HeaderFieldType) : Option HeaderField :=
  message.headerFields.find? fun field => field.getType = type

def generationTime (message : SecuredMessage) : Option UInt64 :=
  match message.headerField .generationTime with
  | some (.generationTime time) => some time
  | _ => none

def generationLocation (message : SecuredMessage) : Option ThreeDLocation :=
  match message.headerField .generationLocation with
  | some (.generationLocation location) => some location
  | _ => none

def requestUnrecognizedCertificate (message : SecuredMessage) : Option (List HashedId3) :=
  match message.headerField .requestUnrecognizedCertificate with
  | some (.requestUnrecognizedCertificate list) => some list
  | _ => none

def itsAid (message : SecuredMessage) : Option IntX :=
  match message.headerField .itsAid with
  | some (.itsAid id) => some id
  | _ => none

def signerInfo (message : SecuredMessage) : Option SignerInfo :=
  match message.headerField .signerInfo with
  | some (.signerInfo info) => some info
  | _ => none

def signature (message : SecuredMessage) : Option Signature :=
  message.trailerFields.head?.map TrailerField.signature

end SecuredMessage

end Vanetza.Security.V2
