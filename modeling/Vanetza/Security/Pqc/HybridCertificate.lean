import Vanetza.Security.V3.Canonical

/-!
# Certificates with two signatures

The experimental profile nests a second, post-quantum signature into the to-be-signed part of a
certificate: an FN-DSA key of the subject and an FN-DSA signature by the issuer, next to the
classical ECC signature outside.
-/

namespace Vanetza.Security.Pqc

open V3 V3.Asn1 Option

inductive SignatureLayer where
  | alternative
  | primary
  deriving DecidableEq

inductive MaterialState where
  | none
  | authority
  | endEntity
  | inconsistent
  deriving DecidableEq

def extractAlternativePublicKey (cert : Certificate) : Option PublicKey :=
  match cert.toBeSigned.altVerificationKey with
  | some (.fnDsa512 octets) => if octets.length = fndsa512PublicKeySize then some ⟨octets⟩ else none
  | _ => none

def extractAlternativeSignature (cert : Certificate) : Option Signature :=
  match cert.toBeSigned.altSignatureValue with
  | some (.fnDsa512Signature octets) =>
    if octets.length = fndsa512SignatureSize then some ⟨octets⟩ else none
  | _ => none

def getAlternativePublicKey (P : Platform) (cert : Certificate) : Option PublicKey :=
  (copyCertificate P cert).bind extractAlternativePublicKey

def getAlternativeSignature (P : Platform) (cert : Certificate) : Option Signature :=
  (copyCertificate P cert).bind extractAlternativeSignature

def alternativeMaterialState (P : Platform) (view : Certificate) : MaterialState :=
  match copyCertificate P view with
  | none => .inconsistent
  | some cert =>
    let keyPresent := cert.toBeSigned.altVerificationKey.isSome
    let signaturePresent := cert.toBeSigned.altSignatureValue.isSome
    let hasKey := (extractAlternativePublicKey cert).isSome
    let hasSignature := (extractAlternativeSignature cert).isSome
    if !keyPresent && !signaturePresent then .none
    else if keyPresent != hasKey || signaturePresent != hasSignature then
      .inconsistent
    else if isAtCertificate view then
      if !hasKey && hasSignature then .endEntity else .inconsistent
    else if issuerIsSelf view || isCaCertificate view then
      if hasKey && hasSignature then .authority else .inconsistent
    else .inconsistent

def clearAlternativeSignature (cert : Certificate) : Certificate :=
  { cert with toBeSigned := { cert.toBeSigned with altSignatureValue := none } }

def signingCertificate (subject : Certificate) (issuer : Option Certificate) : Option Certificate :=
  if issuerIsSelf subject then some subject else issuer

def layerInput (layer : SignatureLayer) (cert : Certificate) : Certificate :=
  match layer with
  | .alternative => clearAlternativeSignature cert
  | .primary => cert

def canonicalTbs (P : Platform) (subject : Certificate)
  (layer : SignatureLayer) : Option ByteBuffer := do
  let cert ← copyCertificate P subject
  let canonical ← canonicalize P (layerInput layer cert)
  P.codec.encodeTbs canonical.toBeSigned

def canonicalIssuer (P : Platform) (subject : Certificate)
  (issuer : Option Certificate) : Option ByteBuffer :=
  if issuerIsSelf subject then some []
  else do
    let issuer ← issuer
    let expected ← issuerDigest subject
    let actual ← calculateDigest P issuer
    if expected ≠ actual then none
    else do
      let canonical ← canonicalize P issuer
      P.codec.encode canonical

def calculateCertificateHash (P : Platform) (backend : Security.Backend)
  (algorithm : HashAlgorithm) (subject : Certificate)
  (issuer : Option Certificate) (layer : SignatureLayer) : Option ByteBuffer :=
  if algorithm = .unspecified then none
  else do
    let dataInput ← canonicalTbs P subject layer
    let signerInput ← canonicalIssuer P subject issuer
    backend.layeredHash algorithm dataInput signerInput

/-- The body of `verify_primary_certificate`, inside its `try`. -/
def tryVerifyPrimary (P : Platform) (subject : Certificate)
  (issuer : Option Certificate) (backend : Security.Backend) : Option Bool := do
  let signer ← signingCertificate subject issuer
  let signerCopy ← copyCertificate P signer
  let subjectCopy ← copyCertificate P subject
  match getPublicKey signerCopy, getSignature subjectCopy with
  | some publicKey, some signature =>
    if publicKey.type ≠ signature.type then return false
    else do
      let digest ← calculateCertificateHash P backend
        (specifiedHashAlgorithm publicKey.type) subject issuer .primary
      backend.verifyDigest publicKey digest signature
  | _, _ => return false

def verifyPrimaryCertificate (P : Platform) (subject : Certificate)
  (issuer : Option Certificate) (backend : Security.Backend) : Bool :=
  (tryVerifyPrimary P subject issuer backend).getD false

/-- The body of `verify_alternative_certificate`, inside its `try`. -/
def tryVerifyAlternative (P : Platform) (subject : Certificate)
  (issuer : Option Certificate) (hashBackend : Security.Backend)
  (backend : Backend) : Option Bool := do
  let signer ← signingCertificate subject issuer
  match getAlternativePublicKey P signer, getAlternativeSignature P subject with
  | some publicKey, some signature => do
      let digest ← calculateCertificateHash P hashBackend .sha256 subject issuer .alternative
      backend.verify publicKey digest signature
  | _, _ => return false

def verifyAlternativeCertificate (P : Platform) (subject : Certificate)
  (issuer : Option Certificate) (hashBackend : Security.Backend) (backend : Backend) : Bool :=
  (tryVerifyAlternative P subject issuer hashBackend backend).getD false

/-! ## What an accepted signature means

Stated without the code's copies and caught exceptions. The issuer is `none`
for a self-signed certificate, which then is its own signer. -/

def IsCanonicalTbs (P : Platform) (layer : SignatureLayer)
  (subject : Certificate) (octets : ByteBuffer) : Prop :=
  ∃ canonical, canonicalizeCopy (layerInput layer subject) = some canonical ∧
    P.codec.encodeTbs canonical.toBeSigned = some octets

def IsCanonicalIssuer (P : Platform) (octets : ByteBuffer) : Option Certificate → Prop
  | none => octets = []
  | some issuer => ∃ canonical, canonicalizeCopy issuer = some canonical ∧
      P.codec.encode canonical = some octets

def IsSignedHash (P : Platform) (backend : Security.Backend)
  (algorithm : HashAlgorithm) (layer : SignatureLayer)
  (subject : Certificate) (issuer : Option Certificate) (digest : ByteBuffer) : Prop :=
  ∃ tbs signer, IsCanonicalTbs P layer subject tbs ∧ IsCanonicalIssuer P signer issuer ∧
    backend.layeredHash algorithm tbs signer = some digest

/-- The backend accepted the ECC signature of `subject` under the key of its
issuer. -/
def PrimarySigned (P : Platform) (ecc : Security.Backend)
  (subject : Certificate) (issuer : Option Certificate) : Prop :=
  ∃ key signature digest, getPublicKey (issuer.getD subject) = some key ∧
    getSignature subject = some signature ∧ key.type = signature.type ∧
    IsSignedHash P ecc (specifiedHashAlgorithm key.type) .primary subject issuer digest ∧
    ecc.verifyDigest key digest signature = some true

/-- The backend accepted an FN-DSA signature carried by `subject` under the
alternative key of its issuer. -/
def AlternativeSigned (P : Platform) (ecc : Security.Backend) (pqc : Backend)
  (subject : Certificate) (issuer : Option Certificate) : Prop :=
  ∃ key signature digest, extractAlternativePublicKey (issuer.getD subject) = some key ∧
    extractAlternativeSignature subject = some signature ∧
    IsSignedHash P ecc .sha256 .alternative subject issuer digest ∧
    pqc.verify key digest signature = some true

def CarriesAlternative (cert : Certificate) : Prop :=
  cert.toBeSigned.altVerificationKey.isSome ∨ cert.toBeSigned.altSignatureValue.isSome

section Spec

variable {P : Platform} {ecc : Security.Backend} {pqc : Backend}
  {subject : Certificate} {issuer : Option Certificate}

variable {layer : SignatureLayer} {octets digest : ByteBuffer} {algorithm : HashAlgorithm}

theorem canonicalTbs_spec (h : canonicalTbs P subject layer = some octets) :
  IsCanonicalTbs P layer subject octets := by
  simp only [canonicalTbs, bind_eq_bind, bind_eq_some_iff] at h
  obtain ⟨cert, hc, canonical, hcan, henc⟩ := h
  obtain ⟨-, rfl⟩ := copyCertificate_eq_some.1 hc
  exact ⟨canonical, (canonicalize_eq_some.1 hcan).2, henc⟩

theorem canonicalIssuer_cases (h : canonicalIssuer P subject issuer = some octets) :
  (issuerIsSelf subject = true ∧ octets = []) ∨ (issuerIsSelf subject = false ∧
      ∃ signer canonical, issuer = some signer ∧ canonicalizeCopy signer = some canonical ∧
        P.codec.encode canonical = some octets) := by
  unfold canonicalIssuer at h
  split at h
  · next hs => exact .inl ⟨hs, (some.inj h).symm⟩
  next hs =>
  simp only [bind_eq_bind, bind_eq_some_iff] at h
  obtain ⟨signer, hiss, expected, -, actual, -, h⟩ := h
  split at h
  · cases h
  · obtain ⟨canonical, hc, henc⟩ := bind_eq_some_iff.1 h
    exact .inr ⟨Bool.eq_false_iff.2 hs, signer, canonical, hiss,
      (canonicalize_eq_some.1 hc).2, henc⟩

theorem canonicalIssuer_spec (hs : issuerIsSelf subject = issuer.isNone)
  (h : canonicalIssuer P subject issuer = some octets) :
  IsCanonicalIssuer P octets issuer := by
  rcases canonicalIssuer_cases h with
    ⟨htrue, rfl⟩ | ⟨-, signer, canonical, rfl, hc⟩
  · rw [htrue] at hs
    rw [isNone_iff_eq_none.1 hs.symm]
    rfl
  · exact ⟨canonical, hc⟩

theorem calculateCertificateHash_eq_some :
  calculateCertificateHash P ecc algorithm subject issuer layer =
    some digest ↔ algorithm ≠ .unspecified ∧ ∃ tbs signer,
      canonicalTbs P subject layer = some tbs ∧ canonicalIssuer P subject issuer = some signer ∧
      ecc.layeredHash algorithm tbs signer = some digest := by
  unfold calculateCertificateHash
  split
  · next h => simp [h]
  · next h => simp [h, bind_eq_some_iff]

theorem calculateCertificateHash_spec (hs : issuerIsSelf subject = issuer.isNone)
  (h : calculateCertificateHash P ecc algorithm subject issuer layer = some digest) :
  IsSignedHash P ecc algorithm layer subject issuer digest := by
  obtain ⟨-, tbs, signer, ht, hsig, hh⟩ := calculateCertificateHash_eq_some.1 h
  exact ⟨tbs, signer, canonicalTbs_spec ht, canonicalIssuer_spec hs hsig, hh⟩

theorem signingCertificate_eq (hs : issuerIsSelf subject = issuer.isNone) {signer : Certificate}
  (h : signingCertificate subject issuer = some signer) :
  signer = issuer.getD subject := by
  unfold signingCertificate at h
  cases issuer with
  | none => simp_all
  | some issuer => simp_all

theorem verifyPrimaryCertificate_spec (hs : issuerIsSelf subject = issuer.isNone)
  (h : verifyPrimaryCertificate P subject issuer ecc = true) :
  PrimarySigned P ecc subject issuer := by
  have htry : tryVerifyPrimary P subject issuer ecc = some true := by
    unfold verifyPrimaryCertificate at h
    cases ht : tryVerifyPrimary P subject issuer ecc <;> simp_all
  simp only [tryVerifyPrimary, bind_eq_bind, bind_eq_some_iff] at htry
  obtain ⟨signer, hsgn, signerCopy, hsc, subjectCopy, hsub, hb⟩ := htry
  obtain ⟨-, rfl⟩ := copyCertificate_eq_some.1 hsc
  obtain ⟨-, rfl⟩ := copyCertificate_eq_some.1 hsub
  split at hb
  · next key sig hk hsig =>
    split at hb
    · cases hb
    next hty =>
    obtain ⟨digest, hd, hv⟩ := bind_eq_some_iff.1 hb
    rw [signingCertificate_eq hs hsgn] at hk
    exact ⟨key, sig, digest, hk, hsig, not_not.1 hty, calculateCertificateHash_spec hs hd, hv⟩
  · cases hb

theorem verifyAlternativeCertificate_spec (hs : issuerIsSelf subject = issuer.isNone)
  (h : verifyAlternativeCertificate P subject issuer ecc pqc = true) :
  AlternativeSigned P ecc pqc subject issuer := by
  have htry : tryVerifyAlternative P subject issuer ecc pqc = some true := by
    unfold verifyAlternativeCertificate at h
    cases ht : tryVerifyAlternative P subject issuer ecc pqc <;> simp_all
  simp only [tryVerifyAlternative, bind_eq_bind, bind_eq_some_iff] at htry
  obtain ⟨signer, hsgn, hb⟩ := htry
  split at hb
  · next key sig hg hgets =>
    obtain ⟨digest, hd, hv⟩ := bind_eq_some_iff.1 hb
    obtain ⟨signerCopy, hsc, hk⟩ := bind_eq_some_iff.1 hg
    obtain ⟨subjectCopy, hsub, hsig⟩ := bind_eq_some_iff.1 hgets
    obtain ⟨-, rfl⟩ := copyCertificate_eq_some.1 hsc
    obtain ⟨-, rfl⟩ := copyCertificate_eq_some.1 hsub
    rw [signingCertificate_eq hs hsgn] at hk
    exact ⟨key, sig, digest, hk, hsig, calculateCertificateHash_spec hs hd, hv⟩
  · cases hb

theorem not_carriesAlternative_of_none (h : alternativeMaterialState P subject = .none) :
  ¬ CarriesAlternative subject := by
  unfold alternativeMaterialState at h
  split at h
  · cases h
  next cert hc =>
  obtain ⟨-, rfl⟩ := copyCertificate_eq_some.1 hc
  unfold CarriesAlternative
  simp only at h
  repeat' split at h
  all_goals try cases h
  simp_all

end Spec

end Vanetza.Security.Pqc
