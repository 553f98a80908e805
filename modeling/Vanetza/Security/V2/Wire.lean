import Vanetza.Security.V2.LengthFormat
import Vanetza.Security.V2.SecuredMessage

/-!
# What octets stand for

The format of a secured message, as a relation between a message and the octets
that may stand for it, read off from the data types.
-/

namespace Vanetza.Security.V2

open Lib

structure Demand where
  call : Nat → Nat → Prop
  key : Nat → Prop

structure Dialect extends Demand where
  length : Nat → Nat → Prop
  chain : Nat → Nat → Prop
  request : Nat → Prop
  message : Nat → Nat → Prop

def Demand.none : Demand := ⟨fun _ _ => True, fun _ => True⟩

def Demand.dialect (demand : Demand) : Dialect :=
  { demand with
    length := fun _ _ => True
    chain := fun _ _ => True
    request := fun _ => True
    message := fun _ _ => True }

abbrev Dialect.any : Dialect := Demand.none.dialect

def EccPoint.HasSize (n : Nat) : EccPoint → Prop
  | .xCoordinateOnly x => x.length = n
  | .compressedLsbY0 x => x.length = n
  | .compressedLsbY1 x => x.length = n
  | .uncompressed x y => x.length = n ∧ y.length = n

def PublicKey.WellFormed : PublicKey → Prop
  | .ecdsaNistp256WithSha256 point => point.HasSize 32
  | .eciesNistp256 _ point => point.HasSize 32

def Signature.WellFormed (sig : Signature) : Prop :=
  sig.someEcdsa.r.HasSize 32 ∧ sig.someEcdsa.s.length = 32

section Formats

variable (D : Dialect)

def IntX.wire : Format IntX := fun x w => number D.length x.toNat w

def regionList {α : Type} (getSize : α → Nat) (serialize : α → ByteBuffer) : Format (List α) :=
  fun list w => ∃ u, number D.length (getSizeList getSize list) u ∧
    (∀ a ∈ list, D.call (getSize a) (serialize a).length) ∧
    w = u ++ list.flatMap serialize

def RectangularRegion.serialize (rectangle : RectangularRegion) : ByteBuffer :=
  rectangle.northwest.serialize ++ rectangle.southeast.serialize

namespace GeographicRegion

def body : Format GeographicRegion
  | .none, w => w = []
  | .circle region, w => w = region.center.serialize ++ toBigEndian 2 region.radius.toNat
  | .rectangle list, w => regionList D RectangularRegion.getSize RectangularRegion.serialize list w
  | .polygon points, w => regionList D TwoDLocation.getSize TwoDLocation.serialize points w
  | .id region, w => ∃ u, IntX.wire D region.localRegion u ∧ w = region.regionDictionary.raw ::
        (toBigEndian 2 region.regionIdentifier.toUInt16.toNat ++ u)

def wire : Format GeographicRegion :=
  fun region w => ∃ v, region.body D v ∧ w = region.getType.code :: v

end GeographicRegion

def ItsAidSsp.wire : Format ItsAidSsp := fun ssp w => ∃ u v, IntX.wire D ssp.itsAid u ∧
  number D.length ssp.serviceSpecificPermissions.length v ∧
  ssp.serviceSpecificPermissions.length ≤ 1024 ∧
  w = u ++ (v ++ ssp.serviceSpecificPermissions)

namespace SubjectAttribute

def body : Format SubjectAttribute
  | .verificationKey key, w => key.WellFormed ∧ w = key.serialize
  | .encryptionKey key, w => key.WellFormed ∧ w = key.serialize
  | .assuranceLevel level, w => w = [level.raw]
  | .reconstructionValue _, _ => False
  | .itsAidList list, w => listOf D.length D.call IntX.getSize (IntX.wire D) list w
  | .itsAidSspList list, w => listOf D.length D.call ItsAidSsp.getSize (ItsAidSsp.wire D) list w

def wire : Format SubjectAttribute := fun sub w => ∃ v, sub.body D v ∧ w = sub.getType.code :: v

end SubjectAttribute

namespace ValidityRestriction

def body : Format ValidityRestriction
  | .timeEnd validity, w => w = toBigEndian 4 validity.toNat
  | .timeStartAndEnd validity, w =>
    w = toBigEndian 4 validity.startValidity.toNat ++ toBigEndian 4 validity.endValidity.toNat
  | .timeStartAndDuration validity, w =>
    w = toBigEndian 4 validity.startValidity.toNat ++ toBigEndian 2 validity.duration.toNat
  | .region area, w => area.wire D w

def wire : Format ValidityRestriction := fun restriction w =>
  ∃ v, restriction.body D v ∧ w = restriction.getType.code :: v

end ValidityRestriction

def SignerInfo.digest : Format SignerInfo
  | .self, w => w = []
  | .certificateDigestWithSha256 id, w => w = id.toList
  | .certificateDigestWithOtherAlgorithm digest, w =>
    w = digest.algorithm.raw :: digest.digest.toList
  | .certificate _, _ => False
  | .certificateChain _, _ => False

def Certificate.wire : Format Certificate :=
  fun cert w => ∃ signer name attributes restrictions, cert.signerInfo.digest signer ∧
    number D.length cert.subjectInfo.subjectName.length name ∧
    listOf D.length D.call SubjectAttribute.getSize (SubjectAttribute.wire D)
      cert.subjectAttributes attributes ∧
    listOf D.length D.call ValidityRestriction.getSize
      (ValidityRestriction.wire D) cert.validityRestriction restrictions ∧
    cert.signature.WellFormed ∧
    w = 2 :: (cert.signerInfo.getType.code :: signer ++ cert.subjectInfo.subjectType.raw ::
        (name ++ cert.subjectInfo.subjectName) ++
      attributes ++ restrictions ++ cert.signature.serialize)

namespace SignerInfo

def body : Format SignerInfo
  | .certificate cert, w => cert.wire D w
  | .certificateChain list, w =>
    listOf D.chain D.call Certificate.getSize (Certificate.wire D) list w
  | info, w => info.digest w

def wire : Format SignerInfo := fun info w => ∃ v, info.body D v ∧ w = info.getType.code :: v

def countedSize : SignerInfo → Nat
  | .certificateChain list =>
    let size := Certificate.getSizes list
    1 + size + lengthCodingSize (1 + size)
  | info => info.getSize

end SignerInfo

def RecipientInfo.wire : Format RecipientInfo := fun info w =>
  match info.encKey with
  | .ecies key => key.v.HasSize 32 ∧ key.c.length = 16 ∧ w = info.serialize
  | .opaqueKey data => ∃ algo length u,
      algo ≠ PublicKeyAlgorithm.eciesNistp256 ∧ number D.length length u ∧
      D.key length ∧ data.length = (if length ≤ 512 then length else 0) ∧
      w = info.certId.toList ++ algo.raw :: (u ++ data)

namespace HeaderField

def body (symAlgo : Option SymmetricAlgorithm) : Format (HeaderField × Nat)
  | (.generationTime time, size), w => w = toBigEndian 8 time.toNat ∧ size = 8
  | (.generationTimeConfidence time logStdDev, size), w =>
    w = toBigEndian 8 time.toNat ++ [logStdDev] ∧ size = 9
  | (.expiration time, size), w => w = toBigEndian 4 time.toNat ∧ size = 4
  | (.generationLocation location, size), w => w = location.serialize ∧ size = 10
  | (.requestUnrecognizedCertificate list, size), w => ∃ announced u,
      number D.length announced u ∧ D.request announced ∧
      list.length = (announced + 2) / 3 ∧
      w = u ++ list.flatMap List.Vector.toList ∧
      size = announced + lengthCodingSize announced
  | (.itsAid id, size), w => IntX.wire D id w ∧ size = id.getSize
  | (.signerInfo info, size), w => info.wire D w ∧ size = info.countedSize
  | (.encryptionParameters param, size), w => w = param.serialize ∧ size = 13
  | (.recipientInfo list, size), w => symAlgo.isSome ∧
      listOf D.length D.call RecipientInfo.getSize (RecipientInfo.wire D) list w ∧
      size = getSizeList RecipientInfo.getSize list +
        lengthCodingSize (getSizeList RecipientInfo.getSize list)

/-- Fields until they count for `size` octets, where `read` have been counted
already; `total` is what they count for in the end. -/
def fields (size : Nat) : Nat → Option SymmetricAlgorithm →
  List HeaderField → Nat → ByteBuffer → Prop
  | read, _, [], total, w => size ≤ read ∧ total = read ∧ w = []
  | read, symAlgo, field :: rest, total, w => read < size ∧
      ∃ fieldSize u v, body D symAlgo (field, fieldSize) u ∧ D.call fieldSize u.length ∧
        fields size (read + 1 + fieldSize) (nextAlgorithm symAlgo field) rest total v ∧
        w = field.getType.code :: (u ++ v)

end HeaderField

def TrailerField.wire : Format TrailerField := fun field w =>
  field.signature.WellFormed ∧ w = field.serialize

def SecuredMessage.wire : Format (SecuredMessage × Nat)
  | (message, total), w =>
    ∃ size header counted fields payload data trailer trailers,
      let trailerSize := getSizeList TrailerField.getSize message.trailerFields
      Announces size header ∧ size ≤ 1024 ∧
      HeaderField.fields D size 0 none message.headerFields counted fields ∧
      Announces data.length payload ∧ data.length ≤ 4096 ∧
      message.payload.data = .cohesive (.ofBuffer data .network) ∧
      Announces trailerSize trailer ∧ trailerSize ≤ 4096 ∧
      elements D.call TrailerField.getSize TrailerField.wire message.trailerFields trailers ∧
      D.message (header.length + payload.length + trailer.length)
        (lengthCodingSize counted + lengthCodingSize data.length + lengthCodingSize trailerSize) ∧
      total = 1 + (counted + lengthCodingSize counted) +
        (1 + lengthCodingSize data.length + data.length) +
        (trailerSize + lengthCodingSize trailerSize) ∧
      w = 2 :: (header ++ fields ++
        message.payload.type.raw :: (payload ++ data) ++ (trailer ++ trailers))

end Formats

end Vanetza.Security.V2
