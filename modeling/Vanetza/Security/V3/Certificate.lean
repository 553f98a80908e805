import Vanetza.Security.V3.Asn1

/-!
# v3 certificates: what is read from them and how they are rewritten

`canonicalize` rewrites the curve points of a certificate to their shortest
form, and `calculateDigest` is the hash of the canonical encoding, the identity
under which a certificate is cached, looked up, trusted and revoked.
-/

namespace Vanetza.Security.V3

open Asn1

def isCompressed : EccCurvePoint → Bool
  | .compressedY0 _ | .compressedY1 _ => true
  | _ => false

def isXOnly : EccCurvePoint → Bool
  | .xOnly _ => true
  | _ => false

/-- `y.size > 0 && y.buf[y.size - 1] & 0x01` -/
def yOdd (y : ByteBuffer) : Bool :=
  match y.getLast? with
  | some octet => octet &&& 1 != 0
  | none => false

def compress : EccCurvePoint → Option EccCurvePoint
  | .uncompressed x y => some (if yOdd y then .compressedY1 x else .compressedY0 x)
  | .compressedY0 x => some (.compressedY0 x)
  | .compressedY1 x => some (.compressedY1 x)
  | _ => none

def makeXOnly : EccCurvePoint → Option EccCurvePoint
  | .uncompressed x _ => some (.xOnly x)
  | .xOnly x => some (.xOnly x)
  | _ => none

def getXCoordinate : EccCurvePoint → ByteBuffer
  | .compressedY0 x | .compressedY1 x | .xOnly x | .uncompressed x _ => x
  | _ => []

/-- `copy_curve_point` into a key of the given type. The coordinate a
compressed point does not have stays empty. -/
def copyCurvePoint (type : KeyType) : EccCurvePoint → Option PublicKey
  | .compressedY0 x => some ⟨x, [], type, .y0⟩
  | .compressedY1 x => some ⟨x, [], type, .y1⟩
  | .uncompressed x y => some ⟨x, y, type, .noCompression⟩
  | _ => none

def isSignatureXOnly : Asn1.Signature → Bool
  | .ecdsaNistP256Signature sig => isXOnly sig.rSig
  | .ecdsaBrainpoolP256r1Signature sig => isXOnly sig.rSig
  | .ecdsaBrainpoolP384r1Signature sig => isXOnly sig.rSig
  | _ => true

def makeSignatureXOnly : Asn1.Signature → Option Asn1.Signature
  | .ecdsaNistP256Signature sig =>
    (makeXOnly sig.rSig).map fun r => .ecdsaNistP256Signature ⟨r, sig.sSig⟩
  | .ecdsaBrainpoolP256r1Signature sig =>
    (makeXOnly sig.rSig).map fun r =>
      .ecdsaBrainpoolP256r1Signature ⟨r, sig.sSig⟩
  | .ecdsaBrainpoolP384r1Signature sig =>
    (makeXOnly sig.rSig).map fun r =>
      .ecdsaBrainpoolP384r1Signature ⟨r, sig.sSig⟩
  | _ => none

def isIndicatorCompressed : VerificationKeyIndicator → Bool
  | .verificationKey (.ecdsaNistP256 point) => isCompressed point
  | .verificationKey (.ecdsaBrainpoolP256r1 point) => isCompressed point
  | .verificationKey (.ecdsaBrainpoolP384r1 point) => isCompressed point
  | .reconstructionValue point => isCompressed point
  | _ => true

def compressIndicator : VerificationKeyIndicator → Option VerificationKeyIndicator
  | .verificationKey (.ecdsaNistP256 point) =>
    (compress point).map fun p => .verificationKey (.ecdsaNistP256 p)
  | .verificationKey (.ecdsaBrainpoolP256r1 point) =>
    (compress point).map fun p => .verificationKey (.ecdsaBrainpoolP256r1 p)
  | .verificationKey (.ecdsaBrainpoolP384r1 point) =>
    (compress point).map fun p => .verificationKey (.ecdsaBrainpoolP384r1 p)
  | .reconstructionValue point =>
    (compress point).map .reconstructionValue
  | indicator => some indicator

def compressBaseKey : BasePublicEncryptionKey → Option BasePublicEncryptionKey
  | .eciesNistP256 point => (compress point).map .eciesNistP256
  | .eciesBrainpoolP256r1 point => (compress point).map .eciesBrainpoolP256r1
  | key => some key

def compressEncryptionKey (key : PublicEncryptionKey) : Option PublicEncryptionKey :=
  (compressBaseKey key.publicKey).map fun base => { key with publicKey := base }

def rewriteOptional {α : Type} (rewrite : α → Option α) : Option α → Option (Option α)
  | some value => (rewrite value).map some
  | none => some none

def isCanonical (cert : Certificate) : Bool :=
  isIndicatorCompressed cert.toBeSigned.verifyKeyIndicator &&
    match cert.signature with
    | some sig => isSignatureXOnly sig
    | none => true

/-- The three rewrites of `canonicalize`, on the certificate's own copy. -/
def canonicalizeCopy (cert : Certificate) : Option Certificate := do
  let indicator ← compressIndicator cert.toBeSigned.verifyKeyIndicator
  let encryptionKey ←
    rewriteOptional compressEncryptionKey cert.toBeSigned.encryptionKey
  let signature ← rewriteOptional makeSignatureXOnly cert.signature
  return { cert with
    toBeSigned := { cert.toBeSigned with
      verifyKeyIndicator := indicator
      encryptionKey := encryptionKey }
    signature := signature }

def copyCertificate (P : Platform) (cert : Certificate) : Option Certificate :=
  (P.codec.encode cert).bind P.codec.decode

def canonicalize (P : Platform) (cert : Certificate) : Option Certificate :=
  (copyCertificate P cert).bind canonicalizeCopy

def getVerificationKeyType (cert : Certificate) : KeyType :=
  match cert.toBeSigned.verifyKeyIndicator with
  | .verificationKey (.ecdsaNistP256 _) => .nistP256
  | .verificationKey (.ecdsaBrainpoolP256r1 _) => .brainpoolP256r1
  | .verificationKey (.ecdsaBrainpoolP384r1 _) => .brainpoolP384r1
  | _ => .unspecified

def digestOfBuffer (P : Platform) (buffer : ByteBuffer) : KeyType → Option HashedId8
  | .nistP256 => some (createHashedId8OfSha256 (P.calculateSha256Digest buffer))
  | .brainpoolP256r1 => some (createHashedId8OfSha256 (P.calculateSha256Digest buffer))
  | .brainpoolP384r1 => some (createHashedId8OfSha384 (P.calculateSha384Digest buffer))
  | .unspecified => none

def calculateDigestInternal (P : Platform) (cert : Certificate)
  (keyType : KeyType) : Option HashedId8 :=
  (P.codec.encode cert).bind fun buffer => digestOfBuffer P buffer keyType

def calculateDigest (P : Platform) (cert : Certificate) : Option HashedId8 :=
  let keyType := getVerificationKeyType cert
  if keyType = .unspecified then none
  else if isCanonical cert then calculateDigestInternal P cert keyType
  else (canonicalize P cert).bind fun canonical =>
    calculateDigestInternal P canonical keyType

def getPublicKey (cert : Certificate) : Option PublicKey :=
  match cert.toBeSigned.verifyKeyIndicator with
  | .verificationKey (.ecdsaNistP256 point) => copyCurvePoint .nistP256 point
  | .verificationKey (.ecdsaBrainpoolP256r1 point) => copyCurvePoint .brainpoolP256r1 point
  | .verificationKey (.ecdsaBrainpoolP384r1 point) => copyCurvePoint .brainpoolP384r1 point
  | _ => none

def signatureOf : Asn1.Signature → Option Signature
  | .ecdsaNistP256Signature sig => some ⟨getXCoordinate sig.rSig, sig.sSig, .nistP256⟩
  | .ecdsaBrainpoolP256r1Signature sig => some ⟨getXCoordinate sig.rSig, sig.sSig, .brainpoolP256r1⟩
  | .ecdsaBrainpoolP384r1Signature sig => some ⟨getXCoordinate sig.rSig, sig.sSig, .brainpoolP384r1⟩
  | _ => none

def getSignature (cert : Certificate) : Option Signature := cert.signature.bind signatureOf

def issuerDigest (cert : Certificate) : Option HashedId8 :=
  match cert.issuer with
  | .sha256AndDigest digest => some digest
  | .sha384AndDigest digest => some digest
  | _ => none

def issuerIsSelf (cert : Certificate) : Bool :=
  match cert.issuer with
  | .self _ => true
  | _ => false

def isCaCertificate (cert : Certificate) : Bool := cert.toBeSigned.certIssuePermissions.isSome

def isAtCertificate (cert : Certificate) : Bool :=
  cert.toBeSigned.certIssuePermissions.isNone && cert.toBeSigned.appPermissions.isSome

def hasRegionRestriction (cert : Certificate) : Bool := cert.toBeSigned.region.isSome

/-- A PSID is an `unsigned long`; the application identifier is widened to
compare the two. -/
def psidMatches (psid : UInt64) (aid : ItsAid) : Bool := psid == aid.toUInt64

def validForApplication (cert : Certificate) (aid : ItsAid) : Bool :=
  match cert.toBeSigned.appPermissions with
  | some permissions => permissions.any fun entry => psidMatches entry.psid aid
  | none => false

def containsPermission (ranges : List PsidSspRange) (aid : ItsAid) : Bool :=
  ranges.any fun range => psidMatches range.psid aid

def groupAllows (group : PsidGroupPermissions) (aid : ItsAid) : Bool :=
  match group.subjectPermissions with
  | .all => true
  | .explicit ranges => containsPermission ranges aid
  | .nothing => false

def isAllowedToIssue (cert : Certificate) (aid : ItsAid) : Bool :=
  match cert.toBeSigned.certIssuePermissions with
  | some groups => groups.any fun group => groupAllows group aid
  | none => false

def assuranceLevel (cert : Certificate) : Option UInt8 :=
  cert.toBeSigned.assuranceLevel.bind List.head?

/-- `get_app_permissions`: the SSP of the first entry that has one. -/
def getAppPermissions (cert : Certificate) (aid : ItsAid) : ByteBuffer :=
  let ssps := (cert.toBeSigned.appPermissions.getD []).filterMap fun entry =>
    if psidMatches entry.psid aid then
      match entry.ssp with
      | some (.bitmapSsp octets) => some octets
      | some (.opaqueSsp octets) => some octets
      | _ => none
    else none
  ssps.head?.getD []

/-- Bounds of `NinetyDegreeInt` and `OneEightyDegreeInt`. -/
def isValidLocation (location : TwoDLocation) : Bool :=
  -900000000 ≤ location.latitude && location.latitude ≤ 900000000 &&
    -1799999999 ≤ location.longitude && location.longitude ≤ 1800000000

def isWithinCircle (P : Platform) (inner : GeographicRegion) (outer : CircularRegion) : Bool :=
  match inner with
  | .circularRegion circle =>
    if !isValidLocation circle.center || !isValidLocation outer.center ||
        circle.radius < 0 || outer.radius < 0 then false
    else decide (P.distance circle.center outer.center + circle.radius ≤ outer.radius)
  | _ => false

def isWithin (P : Platform) (inner : GeographicRegion) : GeographicRegion → Bool
  | .circularRegion outer => isWithinCircle P inner outer
  | .rectangularRegion outer => inner = .rectangularRegion outer
  | .polygonalRegion _ => false
  | .nothing => true
  | .identifiedRegion _ => false

def regionIsWithin (P : Platform) (subject issuer : Certificate) : Bool :=
  match issuer.toBeSigned.region, subject.toBeSigned.region with
  | none, _ => true
  | some _, none => false
  | some outer, some inner => isWithin P inner outer

def coord (octet : UInt8) : ByteBuffer := List.replicate 32 octet

/-- `fake_certificate`: self-issued, valid for a week, with an empty P-256 key
and the permission to send CAMs. -/
def fakeCertificate : Certificate where
  version := 3
  type := 0
  issuer := .self 0
  toBeSigned :=
    { remaining := []
      validityPeriod := ⟨0, .minutes 10080⟩
      region := none
      assuranceLevel := none
      appPermissions := some [⟨36, some (.bitmapSsp [1, 0, 0])⟩]
      certIssuePermissions := none
      encryptionKey := none
      verifyKeyIndicator := .verificationKey (.ecdsaNistP256 (.compressedY0 (List.replicate 32 0)))
      altVerificationKey := none
      altSignatureValue := none }
  signature := none

end Vanetza.Security.V3
