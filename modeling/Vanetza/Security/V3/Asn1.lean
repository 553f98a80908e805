import Mathlib.Data.Rat.Defs
import Vanetza.Security.Basic

/-!
# The ASN.1 data of a v3 certificate

The `EtsiTs103097Certificate` structure, as the certificate code reads and rewrites it. Every
`CHOICE` keeps its `NOTHING` alternative, for the default branches of the code. Points of both
lengths have the same alternatives, so one type serves for both.
-/

namespace Vanetza.Security.V3

namespace Asn1

inductive EccCurvePoint where
  | nothing
  | xOnly (x : ByteBuffer)
  | fill
  | compressedY0 (x : ByteBuffer)
  | compressedY1 (x : ByteBuffer)
  | uncompressed (x y : ByteBuffer)
  deriving DecidableEq

inductive PublicVerificationKey where
  | nothing
  | ecdsaNistP256 (point : EccCurvePoint)
  | ecdsaBrainpoolP256r1 (point : EccCurvePoint)
  | ecdsaBrainpoolP384r1 (point : EccCurvePoint)
  | ecdsaNistP384 (point : EccCurvePoint)
  | ecsigSm2 (point : EccCurvePoint)
  | fnDsa512 (octets : ByteBuffer)
  deriving DecidableEq

inductive VerificationKeyIndicator where
  | nothing
  | verificationKey (key : PublicVerificationKey)
  | reconstructionValue (point : EccCurvePoint)
  deriving DecidableEq

structure EcdsaSignature where
  rSig : EccCurvePoint
  sSig : ByteBuffer
  deriving DecidableEq

inductive Signature where
  | nothing
  | ecdsaNistP256Signature (sig : EcdsaSignature)
  | ecdsaBrainpoolP256r1Signature (sig : EcdsaSignature)
  | ecdsaBrainpoolP384r1Signature (sig : EcdsaSignature)
  | ecdsaNistP384Signature (sig : EcdsaSignature)
  | sm2Signature (rSig sSig : ByteBuffer)
  | fnDsa512Signature (octets : ByteBuffer)
  deriving DecidableEq

inductive BasePublicEncryptionKey where
  | nothing
  | eciesNistP256 (point : EccCurvePoint)
  | eciesBrainpoolP256r1 (point : EccCurvePoint)
  | ecencSm2 (point : EccCurvePoint)
  deriving DecidableEq

structure PublicEncryptionKey where
  supportedSymmAlg : Int
  publicKey : BasePublicEncryptionKey
  deriving DecidableEq

inductive IssuerIdentifier where
  | nothing
  | sha256AndDigest (digest : HashedId8)
  | self (hashAlgorithm : Int)
  | sha384AndDigest (digest : HashedId8)
  | sm3AndDigest (digest : HashedId8)
  deriving DecidableEq

/-- Every alternative of `Duration` is a `Uint16`. -/
inductive Duration where
  | nothing
  | microseconds (count : UInt16)
  | milliseconds (count : UInt16)
  | seconds (count : UInt16)
  | minutes (count : UInt16)
  | hours (count : UInt16)
  | sixtyHours (count : UInt16)
  | years (count : UInt16)
  deriving DecidableEq

structure ValidityPeriod where
  start : UInt32
  duration : Duration
  deriving DecidableEq

structure TwoDLocation where
  latitude : Int
  longitude : Int
  deriving DecidableEq

structure CircularRegion where
  center : TwoDLocation
  radius : Int
  deriving DecidableEq

structure RectangularRegion where
  northWest : TwoDLocation
  southEast : TwoDLocation
  deriving DecidableEq

inductive GeographicRegion where
  | nothing
  | circularRegion (circle : CircularRegion)
  | rectangularRegion (rectangles : List RectangularRegion)
  | polygonalRegion (corners : List TwoDLocation)
  | identifiedRegion (octets : ByteBuffer)
  deriving DecidableEq

inductive ServiceSpecificPermissions where
  | nothing
  | opaqueSsp (octets : ByteBuffer)
  | bitmapSsp (octets : ByteBuffer)
  deriving DecidableEq

structure PsidSsp where
  psid : UInt64
  ssp : Option ServiceSpecificPermissions
  deriving DecidableEq

structure PsidSspRange where
  psid : UInt64
  sspRange : Option ByteBuffer
  deriving DecidableEq

inductive SubjectPermissions where
  | nothing
  | explicit (ranges : List PsidSspRange)
  | all
  deriving DecidableEq

structure PsidGroupPermissions where
  subjectPermissions : SubjectPermissions
  minChainLength : Int
  chainLengthRange : Int
  eeType : ByteBuffer
  deriving DecidableEq

/-- The components no modelled function reads (`id`, `cracaId`, `crlSeries`,
the request permissions, flags and extensions) stand together in
`remaining`, so that two certificates can differ in them. -/
structure ToBeSignedCertificate where
  remaining : ByteBuffer
  validityPeriod : ValidityPeriod
  region : Option GeographicRegion
  assuranceLevel : Option ByteBuffer
  appPermissions : Option (List PsidSsp)
  certIssuePermissions : Option (List PsidGroupPermissions)
  encryptionKey : Option PublicEncryptionKey
  verifyKeyIndicator : VerificationKeyIndicator
  altVerificationKey : Option PublicVerificationKey
  altSignatureValue : Option Signature
  deriving DecidableEq

structure Certificate where
  version : Int
  type : Int
  issuer : IssuerIdentifier
  toBeSigned : ToBeSignedCertificate
  signature : Option Signature
  deriving DecidableEq

end Asn1

open Asn1 (Certificate)

/-- Octet encoding of certificates; `none` where the encoder raises. -/
structure Codec where
  encode : Certificate → Option ByteBuffer
  decode : ByteBuffer → Option Certificate
  encodeTbs : Asn1.ToBeSignedCertificate → Option ByteBuffer
  decode_encode : ∀ {cert buffer}, encode cert = some buffer → decode buffer = some cert
  encode_ne_nil : ∀ {cert buffer}, encode cert = some buffer → buffer ≠ []

structure Platform where
  codec : Codec
  calculateSha256Digest : ByteBuffer → Sha256Digest
  calculateSha384Digest : ByteBuffer → Sha384Digest
  distance : Asn1.TwoDLocation → Asn1.TwoDLocation → ℚ

theorem Codec.encode_inj (codec : Codec) {a b : Certificate}
  {buf : ByteBuffer} (ha : codec.encode a = some buf) (hb : codec.encode b = some buf) : a = b :=
  Option.some.inj ((codec.decode_encode ha).symm.trans (codec.decode_encode hb))

/-! ## A platform for finitely many certificates

Enough of a platform to run the functions on chosen certificates: the encoding
of a certificate is its place in a table, and the hashes are the buffer itself,
padded on the left. -/

def Codec.ofTable (table : List Certificate) (h : table.length ≤ 256) : Codec where
  encode cert := (table.idxOf? cert).map fun i => [UInt8.ofNat i]
  decode
    | [place] => table[place.toNat]?
    | _ => none
  encodeTbs tbs :=
    (table.findIdx? fun cert => cert.toBeSigned = tbs).map fun i =>
      [UInt8.ofNat i]
  decode_encode := by
    intro cert buffer henc
    obtain ⟨i, hi, rfl⟩ := Option.map_eq_some_iff.1 henc
    obtain ⟨hlt, hcert, -⟩ := List.findIdx?_eq_some_iff_getElem.1 hi
    have hplace : (UInt8.ofNat i).toNat = i := by
      simp only [UInt8.toNat_ofNat']
      omega
    simp only [hplace, List.getElem?_eq_getElem hlt, Option.some.injEq]
    exact LawfulBEq.eq_of_beq hcert
  encode_ne_nil := by
    intro cert buffer henc
    obtain ⟨i, -, rfl⟩ := Option.map_eq_some_iff.1 henc
    exact List.cons_ne_nil _ _

theorem Codec.ofTable_encode_isSome {table : List Certificate}
  (h : table.length ≤ 256) {cert : Certificate} :
  ((Codec.ofTable table h).encode cert).isSome ↔ cert ∈ table := by
  simp [Codec.ofTable, Option.isSome_map]

/-- The last `n` octets of the buffer, with zeros before them. -/
def padLeft (n : Nat) (buffer : ByteBuffer) : Octets n :=
  ⟨(List.replicate n 0 ++ buffer).drop buffer.length, by simp⟩

def Platform.ofTable (table : List Certificate) (h : table.length ≤ 256) : Platform where
  codec := Codec.ofTable table h
  calculateSha256Digest := padLeft 32
  calculateSha384Digest := padLeft 48
  distance _ _ := 0

theorem Codec.fits_nil : ([] : List Certificate).length ≤ 256 := by decide

def digestAt (place : UInt8) : HashedId8 := ⟨[0, 0, 0, 0, 0, 0, 0, place], rfl⟩

end Vanetza.Security.V3
