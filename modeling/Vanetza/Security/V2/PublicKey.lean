import Vanetza.Security.Basic
import Vanetza.Security.V2.LengthCoding

/-!
# Points, keys and signatures

Data types of TS 103 097 v1.2.1 and how they are written. A C++ enumeration over an octet holds any
octet, also one without a name, when the octet comes from a deserializer that does not look at it;
such an enumeration is a structure around the octet here.
-/

namespace Vanetza.Security.V2

open InputArchive

def findCode {τ : Type} (members : List τ) (code : τ → UInt8) (byte : UInt8) : Option τ :=
  members.find? fun member => code member == byte

structure SymmetricAlgorithm where
  raw : UInt8
  deriving DecidableEq

def SymmetricAlgorithm.aes128Ccm : SymmetricAlgorithm := ⟨0⟩

structure PublicKeyAlgorithm where
  raw : UInt8
  deriving DecidableEq

namespace PublicKeyAlgorithm

def ecdsaNistp256WithSha256 : PublicKeyAlgorithm := ⟨0⟩

def eciesNistp256 : PublicKeyAlgorithm := ⟨1⟩

def fieldSize (algo : PublicKeyAlgorithm) : Nat :=
  if algo = ecdsaNistp256WithSha256 then 32
  else if algo = eciesNistp256 then 32
  else 0

end PublicKeyAlgorithm

def SymmetricAlgorithm.fieldSize (algo : SymmetricAlgorithm) : Except Exception Nat :=
  if algo = aes128Ccm then return 16
  else throw (.deserializationError "Unknown SymmetricAlgorithm")

inductive EccPoint where
  | xCoordinateOnly (x : ByteBuffer)
  | compressedLsbY0 (x : ByteBuffer)
  | compressedLsbY1 (x : ByteBuffer)
  | uncompressed (x y : ByteBuffer)
  deriving DecidableEq

inductive EccPointType where
  | xCoordinateOnly
  | compressedLsbY0
  | compressedLsbY1
  | uncompressed
  deriving DecidableEq

namespace EccPointType

def code : EccPointType → UInt8
  | .xCoordinateOnly => 0
  | .compressedLsbY0 => 2
  | .compressedLsbY1 => 3
  | .uncompressed => 4

def ofCode : UInt8 → Option EccPointType :=
  findCode [xCoordinateOnly, compressedLsbY0, compressedLsbY1, uncompressed] code

end EccPointType

namespace EccPoint

def getType : EccPoint → EccPointType
  | .xCoordinateOnly _ => .xCoordinateOnly
  | .compressedLsbY0 _ => .compressedLsbY0
  | .compressedLsbY1 _ => .compressedLsbY1
  | .uncompressed _ _ => .uncompressed

def coordinates : EccPoint → ByteBuffer
  | .xCoordinateOnly x => x
  | .compressedLsbY0 x => x
  | .compressedLsbY1 x => x
  | .uncompressed x y => x ++ y

def getSize (point : EccPoint) : Nat := 1 + point.coordinates.length

def serialize (point : EccPoint) : ByteBuffer := point.getType.code :: point.coordinates

def deserialize (algo : PublicKeyAlgorithm) : Deserialize EccPoint := do
  let size := algo.fieldSize
  match EccPointType.ofCode (← loadByte) with
  | some .xCoordinateOnly => return .xCoordinateOnly (← loadBinary size)
  | some .compressedLsbY0 => return .compressedLsbY0 (← loadBinary size)
  | some .compressedLsbY1 => return .compressedLsbY1 (← loadBinary size)
  | some .uncompressed => return .uncompressed (← loadBinary size) (← loadBinary size)
  | none => throw (.deserializationError "Unknown EccPointType")

def toXCoordinateOnly : EccPoint → EccPoint
  | .xCoordinateOnly x => .xCoordinateOnly x
  | .compressedLsbY0 x => .xCoordinateOnly x
  | .compressedLsbY1 x => .xCoordinateOnly x
  | .uncompressed x _ => .xCoordinateOnly x

end EccPoint

inductive PublicKey where
  | ecdsaNistp256WithSha256 (publicKey : EccPoint)
  | eciesNistp256 (supportedSymmAlg : SymmetricAlgorithm) (publicKey : EccPoint)
  deriving DecidableEq

namespace PublicKey

def getType : PublicKey → PublicKeyAlgorithm
  | .ecdsaNistp256WithSha256 _ => .ecdsaNistp256WithSha256
  | .eciesNistp256 _ _ => .eciesNistp256

def getSize : PublicKey → Nat
  | .ecdsaNistp256WithSha256 point => 1 + point.getSize
  | .eciesNistp256 _ point => 1 + (point.getSize + 1)

def serialize (key : PublicKey) : ByteBuffer :=
  key.getType.raw :: match key with
    | .ecdsaNistp256WithSha256 point => point.serialize
    | .eciesNistp256 algo point => algo.raw :: point.serialize

def deserialize : Deserialize (PublicKey × Nat) := do
  let type : PublicKeyAlgorithm := ⟨← loadByte⟩
  if type = .ecdsaNistp256WithSha256 then
    let key := ecdsaNistp256WithSha256 (← EccPoint.deserialize type)
    return (key, key.getSize)
  else if type = .eciesNistp256 then
    let key := eciesNistp256 ⟨← loadByte⟩ (← EccPoint.deserialize type)
    return (key, key.getSize)
  else throw (.deserializationError "Unknown PublicKeyAlgorithm")

end PublicKey

/-- `EcdsaSignature`. A signature still being computed
(`EcdsaSignatureFuture`) only occurs while signing; whoever reads it waits for
the signature itself. -/
structure EcdsaSignature where
  r : EccPoint
  s : ByteBuffer
  deriving DecidableEq

namespace EcdsaSignature

def getSize (sig : EcdsaSignature) : Nat := sig.s.length + sig.r.getSize

def serialize (sig : EcdsaSignature) : ByteBuffer := sig.r.serialize ++ sig.s

def deserialize (algo : PublicKeyAlgorithm) : Deserialize (EcdsaSignature × Nat) := do
  let point ← EccPoint.deserialize algo
  let sig : EcdsaSignature := ⟨point, ← loadBinary algo.fieldSize⟩
  return (sig, sig.getSize)

end EcdsaSignature

structure Signature where
  someEcdsa : EcdsaSignature
  deriving DecidableEq

namespace Signature

def getType (_ : Signature) : PublicKeyAlgorithm := .ecdsaNistp256WithSha256

def getSize (sig : Signature) : Nat := 1 + sig.someEcdsa.getSize

def serialize (sig : Signature) : ByteBuffer := sig.getType.raw :: sig.someEcdsa.serialize

def deserialize : Deserialize (Signature × Nat) := do
  let algo : PublicKeyAlgorithm := ⟨← loadByte⟩
  if algo = .ecdsaNistp256WithSha256 then
    let (sig, size) ← EcdsaSignature.deserialize algo
    return (⟨sig⟩, 1 + size)
  else throw (.deserializationError "Unknown PublicKeyAlgorithm")

def extractEcdsaSignature (sig : Signature) : Option EcdsaSignature := some sig.someEcdsa

end Signature

namespace Ecdsa256

structure PublicKey where
  x : Octets 32
  y : Octets 32
  deriving DecidableEq

end Ecdsa256

structure Backend where
  decompressPoint : EccPoint → Option (ByteBuffer × ByteBuffer)
  verifyData : Ecdsa256.PublicKey → ByteBuffer → EcdsaSignature → Bool
  sha256 : ByteBuffer → Sha256Digest

end Vanetza.Security.V2
