import Vanetza.Lib.Reaches
import Vanetza.Security.V2.Stores
import Vanetza.Security.VerifyService

/-!
# The default validator of v2 certificates

Tickets have to be signed by an authority of the cache, authorities by a root of
the trust store. Both searches go through the certificates filed under the
digest the certificate names and stop at the first whose key accepts the
signature.
-/

namespace Vanetza.Security.V2

open Lib Returns

/-- `extract_validity_time`, from a restriction found so far. -/
def extractValidityTimeFrom : Option StartAndEndValidity → List ValidityRestriction →
  Option StartAndEndValidity
  | restriction, [] => restriction
  | restriction, .timeStartAndEnd validity :: rest =>
    -- reject more than one restriction
    if restriction.isSome then none
    else if validity.startValidity ≥ validity.endValidity then none
    else extractValidityTimeFrom (some validity) rest
  | _, .timeEnd _ :: _ => none
  | _, .timeStartAndDuration _ :: _ => none
  | restriction, .region _ :: rest => extractValidityTimeFrom restriction rest

def extractValidityTime (certificate : Certificate) : Option StartAndEndValidity :=
  extractValidityTimeFrom none certificate.validityRestriction

def checkTimeConsistency (certificate signer : Certificate) : Bool :=
  match extractValidityTime certificate, extractValidityTime signer with
  | some certificateTime, some signerTime =>
    if signerTime.startValidity > certificateTime.startValidity then false
    else if signerTime.endValidity < certificateTime.endValidity then false
    else true
  | _, _ => false

def extractApplicationIdentifiers (certificate : Certificate) : List ItsAid :=
  if certificate.subjectInfo.subjectType = .authorizationTicket then
    (certificate.itsAidSspList.getD []).map fun item => item.itsAid.toUInt32
  else (certificate.itsAidList.getD []).map fun item => item.toUInt32

/-- `std::includes` of sorted ranges: the second is a part of the first, and
what occurs several times in it has to occur as often in the first. -/
def includes : List ItsAid → List ItsAid → Bool
  | _, [] => true
  | [], _ :: _ => false
  | a :: as, b :: bs =>
    if b < a then false
    else if a < b then includes as (b :: bs)
    else includes as bs

def checkPermissionConsistency (certificate signer : Certificate) : Bool :=
  includes ((extractApplicationIdentifiers signer).insertionSort (· ≤ ·))
    ((extractApplicationIdentifiers certificate).insertionSort (· ≤ ·))

def checkSubjectAssuranceConsistency (certificate signer : Certificate) : Bool :=
  match certificate.assuranceLevel, signer.assuranceLevel with
  | some level, some signerLevel =>
    if level.assurance > signerLevel.assurance then false
    else if level.assurance = signerLevel.assurance then
      if level.confidence > signerLevel.confidence then false else true
    else true
  | _, _ => false

def checkRegionConsistency (distance : Distance) (certificate signer : Certificate) : Bool :=
  match signer.region with
  | none => true
  | some signerRegion =>
    match certificate.region with
    | none => false
    | some certificateRegion => certificateRegion.isWithin distance signerRegion

def checkConsistency (distance : Distance) (certificate signer : Certificate) : Bool :=
  if !checkTimeConsistency certificate signer then false
  else if !checkPermissionConsistency certificate signer then false
  else if !checkSubjectAssuranceConsistency certificate signer then false
  else if !checkRegionConsistency distance certificate signer then false
  else true

/-- `DefaultCertificateValidator`. The cache it looks into is an argument of
its calls. -/
structure DefaultCertificateValidator (backend : Backend) where
  trustStore : TrustStore backend
  distance : Distance

/-- Try one possible signer after the other; `none` if no key accepts the
signature. -/
def trySigners (backend : Backend) (distance : Distance)
  (certificate : Certificate) (binaryCert : ByteBuffer) (sig : EcdsaSignature) :
  List Certificate → Except Exception (Option CertificateValidity)
  | [] => return none
  | possibleSigner :: rest => do
      match ← possibleSigner.getPublicKey backend with
      | none => trySigners backend distance certificate binaryCert sig rest
      | some verificationKey =>
        if backend.verifyData verificationKey binaryCert sig then
          if checkConsistency distance certificate possibleSigner then
            return some none
          else return some (some .inconsistentWithSigner)
        else trySigners backend distance certificate binaryCert sig rest

namespace DefaultCertificateValidator

variable {backend : Backend}

def possibleSigners (validator : DefaultCertificateValidator backend)
  (now : Int) (cache : CertificateCache backend) (type : SubjectType) (signerHash : HashedId8) :
  List Certificate × CertificateCache backend :=
  if type = .authorizationTicket then
    -- authorization tickets may only be signed by authorization authorities
    cache.lookup now signerHash .authorizationAuthority
  else if type = .authorizationAuthority then
    -- authorization authorities may only be signed by root CAs
    (validator.trustStore.lookup signerHash, cache)
  else ([], cache)

/-- The checks of `check_certificate` that do not involve a signer. -/
def checkForm (certificate : Certificate) : CertificateValidity :=
  if (extractValidityTime certificate).isNone then some .brokenTimePeriod
  else if certificate.assuranceLevel.isNone then some .missingSubjectAssurance
  else if certificate.subjectInfo.subjectType = .authorizationTicket ∧
      certificate.subjectInfo.subjectName ≠ [] then some .invalidName
  else none

def checkSignedBy (validator : DefaultCertificateValidator backend)
  (now : Int) (cache : CertificateCache backend) (certificate : Certificate)
  (signerHash : HashedId8) (sig : EcdsaSignature) :
  Except Exception (CertificateValidity × CertificateCache backend) := do
  let binaryCert ← certificate.convertForSigning
  let signers := validator.possibleSigners now cache certificate.subjectInfo.subjectType signerHash
  let verdict ← trySigners backend validator.distance certificate binaryCert sig signers.1
  return (verdict.getD (some .unknownSigner), signers.2)

def checkCertificate (validator : DefaultCertificateValidator backend)
  (now : Int) (cache : CertificateCache backend) (certificate : Certificate) :
  Except Exception (CertificateValidity × CertificateCache backend) :=
  match checkForm certificate with
  | some reason => return (some reason, cache)
  | none =>
    match certificate.signerInfo with
    | .certificateDigestWithSha256 signerHash =>
      match certificate.signature.extractEcdsaSignature with
      | none => return (some .missingSignature, cache)
      | some sig => validator.checkSignedBy now cache certificate signerHash sig
    | _ => return (some .invalidSigner, cache)

end DefaultCertificateValidator

def Certificate.hasForeignKey (cert : Certificate) : Bool :=
  match cert.getAttribute .verificationKey with
  | some (.verificationKey (.eciesNistp256 _ _)) => true
  | _ => false

theorem Certificate.getUncompressedPublicKey_returns {cert : Certificate} {backend : Backend} :
  Returns (cert.getUncompressedPublicKey backend) ↔ cert.hasForeignKey = false := by
  unfold getUncompressedPublicKey hasForeignKey
  generalize cert.getAttribute .verificationKey = found
  rcases found with _ | ((point | ⟨algo, point⟩) | _ | _ | _ | _ | _) <;> simp

theorem Certificate.getPublicKey_returns {cert : Certificate} {backend : Backend} :
  Returns (cert.getPublicKey backend) ↔ cert.hasForeignKey = false := by
  rw [← getUncompressedPublicKey_returns, getPublicKey]
  refine bind_iff_left fun key => ?_
  split
  · split <;> exact pure _
  · exact pure _

def Certificate.accepts (cert : Certificate) (backend : Backend)
  (data : ByteBuffer) (sig : EcdsaSignature) : Bool :=
  match cert.getPublicKey backend with
  | .ok (some key) => backend.verifyData key data sig
  | _ => false

def ForeignFirst (backend : Backend) (data : ByteBuffer) (sig : EcdsaSignature)
  (certs : List Certificate) : Prop :=
  Reaches (fun cert => cert.accepts backend data sig = false)
    (fun cert => cert.hasForeignKey = true) certs

theorem trySigners_returns {backend : Backend} {dist : Distance}
  {certificate : Certificate} {binaryCert : ByteBuffer}
  {sig : EcdsaSignature} {certs : List Certificate} :
  Returns (trySigners backend dist certificate binaryCert sig certs) ↔
    ¬ ForeignFirst backend binaryCert sig certs := by
  unfold ForeignFirst
  induction certs with
  | nil => exact iff_of_true (pure _) Reaches.not_nil
  | cons cert certs ih =>
    rw [trySigners, bind_iff, Reaches.cons_iff, not_or, not_and,
      Bool.not_eq_true, ← Certificate.getPublicKey_returns, ← ih]
    unfold Certificate.accepts
    constructor
    · rintro ⟨key, hk, h⟩
      refine ⟨⟨key, hk⟩, fun hr => ?_⟩
      rw [hk] at hr
      cases key with
      | none => exact h
      | some key =>
        dsimp only at h hr
        rw [hr] at h
        exact h
    · rintro ⟨⟨key, hk⟩, h⟩
      refine ⟨key, hk, ?_⟩
      rw [hk] at h
      cases key with
      | none => exact h rfl
      | some key =>
        dsimp only at h ⊢
        split
        · split <;> exact pure _
        · next hr => exact h (by simpa using hr)

namespace DefaultCertificateValidator

variable {backend : Backend} {validator : DefaultCertificateValidator backend}
  {now : Int} {cache cache' : CertificateCache backend} {cert : Certificate}

def ForeignIssuer (validator : DefaultCertificateValidator backend) (now : Int)
  (cache : CertificateCache backend) (cert : Certificate) : Prop :=
  checkForm cert = none ∧ ∃ signerHash binaryCert,
    cert.signerInfo = .certificateDigestWithSha256 signerHash ∧
    cert.convertForSigning = .ok binaryCert ∧
    ForeignFirst backend binaryCert cert.signature.someEcdsa
      (validator.possibleSigners now cache cert.subjectInfo.subjectType signerHash).1

theorem checkSignedBy_returns {signerHash : HashedId8} {sig : EcdsaSignature}
  {binaryCert : ByteBuffer} (hb : cert.convertForSigning = .ok binaryCert) :
  Returns (validator.checkSignedBy now cache cert signerHash sig) ↔
    ¬ ForeignFirst backend binaryCert sig
      (validator.possibleSigners now cache cert.subjectInfo.subjectType signerHash).1 := by
  have hs := @trySigners_returns backend validator.distance cert
    binaryCert sig (validator.possibleSigners now cache cert.subjectInfo.subjectType signerHash).1
  rw [checkSignedBy, hb, ← hs]
  exact bind_iff_left fun _ => pure _

theorem checkCertificate_returns (h : cert.Encodable) :
  Returns (validator.checkCertificate now cache cert) ↔
    ¬ validator.ForeignIssuer now cache cert := by
  unfold checkCertificate ForeignIssuer
  split
  · next reason hfo =>
    refine iff_of_true (pure _) fun hf => ?_
    rw [hfo] at hf
    cases hf.1
  next hfo =>
  split
  · next signerHash hsig =>
    obtain ⟨binaryCert, hb⟩ := Certificate.convertForSigning_returns.2 h
    refine (checkSignedBy_returns hb).trans (not_congr ?_)
    constructor
    · exact fun hf => ⟨hfo, signerHash, binaryCert, hsig, hb, hf⟩
    rintro ⟨-, signerHash', binaryCert', hs', hb', hf⟩
    obtain rfl : signerHash = signerHash' := by simpa [hsig] using hs'
    obtain rfl : binaryCert = binaryCert' := by simpa [hb] using hb'
    exact hf
  · next hsig =>
    refine iff_of_true (pure _) ?_
    rintro ⟨-, signerHash, binaryCert, hs, -⟩
    exact hsig signerHash hs

/-! Authorities are checked against the trust store only. -/

theorem possibleSigners_authority {type : SubjectType}
  (h : type = .authorizationAuthority) (signerHash : HashedId8) :
  validator.possibleSigners now cache type signerHash =
    (validator.trustStore.lookup signerHash, cache) := by
  subst h
  rfl

theorem foreignIssuer_authority (h : cert.subjectInfo.subjectType = .authorizationAuthority) :
  validator.ForeignIssuer now cache cert ↔ validator.ForeignIssuer now cache' cert := by
  simp only [ForeignIssuer, possibleSigners_authority h]

theorem checkCertificate_authority {validity : CertificateValidity}
  (h : cert.subjectInfo.subjectType = .authorizationAuthority)
  (hc : validator.checkCertificate now cache cert =
    .ok (validity, cache')) (other : CertificateCache backend) :
  cache' = cache ∧ validator.checkCertificate now other cert = .ok (validity, other) := by
  unfold checkCertificate at hc ⊢
  split at hc
  · obtain ⟨rfl, rfl⟩ := Prod.mk.inj (Except.ok.inj hc)
    exact ⟨rfl, rfl⟩
  split at hc
  · next signerHash hs =>
    dsimp only [Signature.extractEcdsaSignature] at hc ⊢
    simp only [checkSignedBy, possibleSigners_authority h] at hc ⊢
    obtain ⟨binaryCert, hb, hr⟩ := bind_eq_ok_iff.1 hc
    obtain ⟨verdict, hv, hret⟩ := bind_eq_ok_iff.1 hr
    obtain ⟨rfl, rfl⟩ := Prod.mk.inj (Except.ok.inj hret)
    exact ⟨rfl, bind_eq_ok_iff.2 ⟨binaryCert, hb, bind_eq_ok_iff.2 ⟨verdict, hv, rfl⟩⟩⟩
  · obtain ⟨rfl, rfl⟩ := Prod.mk.inj (Except.ok.inj hc)
    exact ⟨rfl, rfl⟩

theorem foreignIssuer_lookup (id : HashedId8) (type : SubjectType) :
  validator.ForeignIssuer now (cache.lookup now id type).2 cert ↔
    validator.ForeignIssuer now cache cert := by
  have hs : ∀ type' signerHash,
      (validator.possibleSigners now (cache.lookup now id type).2 type' signerHash).1 =
        (validator.possibleSigners now cache type' signerHash).1 := by
    intro type' signerHash
    unfold possibleSigners
    split
    · exact CertificateCache.lookup_lookup id signerHash type _
    · split <;> rfl
  simp only [ForeignIssuer, hs]

end DefaultCertificateValidator

end Vanetza.Security.V2
