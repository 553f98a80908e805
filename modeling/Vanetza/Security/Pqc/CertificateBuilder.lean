import Vanetza.Lib.Run
import Vanetza.Security.Pqc.CertificateSigning
import Vanetza.Security.V2.StraightVerify
import Vanetza.Security.V3.SignHeaderPolicy

/-!
# Building certificates

The builders of `certify-pqc` make root certificates, authorization authorities and tickets, either
with an ECC signature only or with an FN-DSA signature as well.
-/

namespace Vanetza.Security.Pqc

open V3 V3.Asn1 Lib Option

namespace CertificateBuilder

abbrev EccPublicKey := V2.Ecdsa256.PublicKey

/-- `ecdsa256::KeyPair`; the private key in octets. -/
structure EccKeyPair where
  privateKey : Octets 32
  publicKey : EccPublicKey

structure KeyPair where
  publicKey : PublicKey
  privateKey : PrivateKey

structure CertificateParameters where
  subjectName : ByteBuffer
  validityDays : Int
  applicationIds : List ItsAid

inductive CertificateId where
  | name (octets : ByteBuffer)
  | none

/-- What the builders are linked with: the backends, the check of the ASN.1
constraints, and how `id`, `cracaId` and `crlSeries` stand among the components
that nothing reads. -/
structure Tool where
  signers : Signers
  validate : Certificate → Bool
  remaining : CertificateId → ByteBuffer → Nat → ByteBuffer

def emptyCertificate : Certificate where
  version := 0
  type := 0
  issuer := .nothing
  toBeSigned :=
    { remaining := []
      validityPeriod := ⟨0, .nothing⟩
      region := none
      assuranceLevel := none
      appPermissions := none
      certIssuePermissions := none
      encryptionKey := none
      verifyKeyIndicator := .nothing
      altVerificationKey := none
      altSignatureValue := none }
  signature := none

def convertPrivateKey (input : Octets 32) : Security.PrivateKey := ⟨.nistP256, input.toList⟩

/-- `compress_public_key`, in the form `to_asn1` gives it. -/
def compressPublicKey (key : EccPublicKey) : EccCurvePoint :=
  if yOdd key.y.toList then .compressedY1 key.x.toList
  else .compressedY0 key.x.toList

def modifyTbs (f : ToBeSignedCertificate → ToBeSignedCertificate)
  (cert : Certificate) : Certificate :=
  { cert with toBeSigned := f cert.toBeSigned }

def setVerificationKey (key : EccPublicKey) : Certificate → Certificate :=
  modifyTbs fun tbs => { tbs with
    verifyKeyIndicator := .verificationKey (.ecdsaNistP256 (compressPublicKey key)) }

def setEncryptionKey (key : EccPublicKey) : Certificate → Certificate :=
  modifyTbs fun tbs => { tbs with
    encryptionKey := some ⟨0, .eciesNistP256 (compressPublicKey key)⟩ }

def setIssuer (P : Platform) (issuer : Option Certificate)
  (cert : Certificate) : Option Certificate :=
  match issuer with
  | none => some { cert with issuer := .self 0 }
  | some issuer => (calculateDigest P issuer).map fun digest =>
    { cert with issuer := .sha256AndDigest digest }

/-- The identifier, next to `cracaId` and `crlSeries`, which are the same for
all certificates. -/
def setId (tool : Tool) (id : CertificateId) : Certificate → Certificate :=
  modifyTbs fun tbs => { tbs with remaining := tool.remaining id [0, 0, 0] 0 }

def setSubjectName (tool : Tool) (name : ByteBuffer) (cert : Certificate) : Option Certificate :=
  if name = [] then none else some (setId tool (.name name) cert)

def setValidity (now validityDays : Int) (cert : Certificate) : Option Certificate :=
  if validityDays < 1 ∨ 65535 / 24 < validityDays then none
  else some (modifyTbs (fun tbs => { tbs with
    validityPeriod := ⟨V2.convertTime32 (now - 3600000000),
      .hours (UInt16.ofNat (validityDays * 24).toNat)⟩ }) cert)

def initializeCertificate (P : Platform) (subjectKey : EccPublicKey)
  (issuer : Option Certificate) (validityDays now : Int) : Option Certificate := do
  let cert ← setIssuer P issuer { emptyCertificate with version := 3 }
  let cert ← setValidity now validityDays cert
  return setVerificationKey subjectKey cert

def aidTlm : ItsAid := 137
def aidRlt : ItsAid := 138
def aidIvi : ItsAid := 139
def aidTlcR : ItsAid := 140
def aidGnMgmt : ItsAid := 141
def aidCrl : ItsAid := 622
def aidCtl : ItsAid := 624
def aidCp : ItsAid := 639
def aidIpv6Routing : ItsAid := 270549118

def effectiveIssueAids (aids : List ItsAid) : List ItsAid :=
  if aids = [] then [aidCa, aidDen, aidCp, aidGnMgmt, aidIpv6Routing] else aids

def effectiveApplicationAids (aids : List ItsAid) : List ItsAid :=
  if aids = [] then [aidCa, aidDen] else aids

/-- `add_psid_group_permission`; value and mask of the range have the same
length and stand one after the other. -/
def psidSspRange (aid : ItsAid) (ssp bitmask : ByteBuffer) : PsidSspRange :=
  ⟨aid.toUInt64, some (ssp ++ bitmask)⟩

def issuePermissionForAid (aid : ItsAid) : PsidSspRange :=
  if aid = aidCa then
    psidSspRange aid [0x01, 0xff, 0xfc] [0xff, 0x00, 0x03]
  else if aid = aidDen then
    psidSspRange aid [0x01, 0xff, 0xff, 0xff] [0xff, 0x00, 0x00, 0x00]
  else if aid = aidCp then psidSspRange aid [0x00] [0xff]
  else if aid = aidTlm then psidSspRange aid [0x01, 0xe0] [0xff, 0x1f]
  else if aid = aidRlt then psidSspRange aid [0x01, 0xc0] [0xff, 0x3f]
  else if aid = aidIvi then
    psidSspRange aid [0x01, 0xff, 0xff, 0xff, 0xff, 0xf8] [0xff, 0x00, 0x00, 0x00, 0x00, 0x07]
  else if aid = aidTlcR then
    psidSspRange aid [0x02, 0xff, 0xff, 0xe0] [0xff, 0x00, 0x00, 0x1f]
  else psidSspRange aid [0x00] [0xff]

def addIssuePermissions (aids : List ItsAid) : Certificate → Certificate :=
  modifyTbs fun tbs => { tbs with
    certIssuePermissions := some (tbs.certIssuePermissions.getD [] ++
      [⟨.explicit ((effectiveIssueAids aids).map issuePermissionForAid), 1, 0, [0x80]⟩]) }

def addAppPermission (aid : ItsAid) (ssp : ByteBuffer) : Certificate → Certificate :=
  modifyTbs fun tbs => { tbs with
    appPermissions := some (tbs.appPermissions.getD [] ++
      [⟨aid.toUInt64, if ssp = [] then none else some (.bitmapSsp ssp)⟩]) }

def applicationSsp (aid : ItsAid) : ByteBuffer :=
  if aid = aidCa then [1, 0, 0]
  else if aid = aidDen then [1, 0, 0, 0]
  else []

def addApplicationPermissions (aids : List ItsAid) (cert : Certificate) : Certificate :=
  (effectiveApplicationAids aids).foldl
    (fun cert aid => addAppPermission aid (applicationSsp aid) cert) cert

def canonicalCertificate (P : Platform) (tool : Tool) (cert : Certificate) :
  Option Certificate := do
  let canonical ← canonicalize P cert
  if tool.validate canonical then return canonical else none

def rootContent (P : Platform) (tool : Tool) (subjectKey : EccPublicKey)
  (parameters : CertificateParameters) (now : Int) : Option Certificate := do
  let cert ← initializeCertificate P subjectKey none parameters.validityDays now
  let cert ← setSubjectName tool parameters.subjectName cert
  let cert := addIssuePermissions parameters.applicationIds cert
  return addAppPermission aidCtl [0x18] (addAppPermission aidCrl [1] cert)

def authorityContent (P : Platform) (tool : Tool) (issuer : Certificate)
  (subjectKey : EccPublicKey) (parameters : CertificateParameters)
  (now : Int) : Option Certificate := do
  let cert ← initializeCertificate P subjectKey (some issuer) parameters.validityDays now
  let cert ← setSubjectName tool parameters.subjectName cert
  let cert := addIssuePermissions parameters.applicationIds cert
  return setEncryptionKey subjectKey cert

def ticketContent (P : Platform) (tool : Tool) (issuer : Certificate)
  (subjectKey : EccPublicKey) (parameters : CertificateParameters)
  (now : Int) : Option Certificate := do
  let cert ← initializeCertificate P subjectKey (some issuer) parameters.validityDays now
  return addApplicationPermissions parameters.applicationIds (setId tool .none cert)

def buildEccRootCertificate (P : Platform) (tool : Tool)
  (subjectKey : EccKeyPair) (parameters : CertificateParameters)
  (now : Int) : Option Certificate := do
  let cert ← rootContent P tool subjectKey.publicKey parameters now
  let cert ← signPrimaryCertificate P tool.signers cert none
    (convertPrivateKey subjectKey.privateKey)
  canonicalCertificate P tool cert

def buildHybridRootCertificate (P : Platform) (tool : Tool)
  (subjectKey : EccKeyPair) (subjectPqcKey : KeyPair)
  (parameters : CertificateParameters) (now : Int) : Option Certificate := do
  let cert ← rootContent P tool subjectKey.publicKey parameters now
  let cert ← setAlternativePublicKey cert subjectPqcKey.publicKey
  let cert ← signAlternativeCertificate P tool.signers cert none subjectPqcKey.privateKey
  let cert ← signPrimaryCertificate P tool.signers cert none
    (convertPrivateKey subjectKey.privateKey)
  canonicalCertificate P tool cert

def buildEccAuthorizationAuthorityCertificate (P : Platform) (tool : Tool)
  (issuerKey : EccKeyPair) (issuer : Certificate)
  (subjectKey : EccPublicKey) (parameters : CertificateParameters)
  (now : Int) : Option Certificate := do
  let cert ← authorityContent P tool issuer subjectKey parameters now
  let cert ← signPrimaryCertificate P tool.signers cert (some issuer)
    (convertPrivateKey issuerKey.privateKey)
  canonicalCertificate P tool cert

def buildHybridAuthorizationAuthorityCertificate (P : Platform) (tool : Tool)
  (issuerKey : EccKeyPair) (issuerPqcKey : PrivateKey) (issuer : Certificate)
  (subjectKey : EccPublicKey) (subjectPqcKey : PublicKey)
  (parameters : CertificateParameters) (now : Int) : Option Certificate := do
  let cert ← authorityContent P tool issuer subjectKey parameters now
  let cert ← setAlternativePublicKey cert subjectPqcKey
  let cert ← signAlternativeCertificate P tool.signers cert (some issuer) issuerPqcKey
  let cert ← signPrimaryCertificate P tool.signers cert (some issuer)
    (convertPrivateKey issuerKey.privateKey)
  canonicalCertificate P tool cert

def buildEccAuthorizationTicket (P : Platform) (tool : Tool)
  (issuerKey : EccKeyPair) (issuer : Certificate)
  (subjectKey : EccPublicKey) (parameters : CertificateParameters)
  (now : Int) : Option Certificate := do
  let cert ← ticketContent P tool issuer subjectKey parameters now
  let cert ← signPrimaryCertificate P tool.signers cert (some issuer)
    (convertPrivateKey issuerKey.privateKey)
  canonicalCertificate P tool cert

def buildHybridAuthorizationTicket (P : Platform) (tool : Tool)
  (issuerKey : EccKeyPair) (issuerPqcKey : PrivateKey) (issuer : Certificate)
  (subjectKey : EccPublicKey) (parameters : CertificateParameters)
  (now : Int) : Option Certificate := do
  let cert ← ticketContent P tool issuer subjectKey parameters now
  let cert ← signAlternativeCertificate P tool.signers cert (some issuer) issuerPqcKey
  let cert ← signPrimaryCertificate P tool.signers cert (some issuer)
    (convertPrivateKey issuerKey.privateKey)
  canonicalCertificate P tool cert

/-! ## The contents

What is filled in leaves the room for FN-DSA material empty and has compressed
keys. Which certificate this is shows in its permissions. -/

def Issued (P : Platform) (issuer cert : Certificate) : Prop :=
  issuerIsSelf cert = false ∧ ∃ digest, issuerDigest cert = some digest ∧
    calculateDigest P issuer = some digest

def NamesIssuer (P : Platform) (cert : Certificate) : Option Certificate → Prop
  | none => issuerIsSelf cert = true
  | some issuer => Issued P issuer cert

structure Content (P : Platform) (issuer : Option Certificate) (cert : Certificate) : Prop where
  names : NamesIssuer P cert issuer
  compressed : Compressed cert.toBeSigned
  altKey : cert.toBeSigned.altVerificationKey = none
  altSignature : cert.toBeSigned.altSignatureValue = none

section Contents

variable {P : Platform} {tool : Tool} {issuer : Option Certificate} {cert : Certificate}

theorem compress_compressPublicKey (key : EccPublicKey) :
  compress (compressPublicKey key) = some (compressPublicKey key) := by
  unfold compressPublicKey
  split <;> rfl

theorem namesIssuer_congr {cert' : Certificate} (h : cert'.issuer = cert.issuer)
  (hn : NamesIssuer P cert issuer) : NamesIssuer P cert' issuer := by
  have hs : issuerIsSelf cert' = issuerIsSelf cert := by simp only [issuerIsSelf, h]
  have hd : issuerDigest cert' = issuerDigest cert := by simp only [issuerDigest, h]
  cases issuer with
  | none => exact hs.trans hn
  | some issuer =>
    rw [NamesIssuer, Issued, hs, hd]
    exact hn

theorem namesIssuer_setIssuer {start : Certificate} (h : setIssuer P issuer start = some cert) :
  NamesIssuer P cert issuer ∧ cert.toBeSigned = start.toBeSigned := by
  unfold setIssuer at h
  cases issuer with
  | none =>
    cases h
    exact ⟨rfl, rfl⟩
  | some issuer =>
    obtain ⟨digest, hd, rfl⟩ := map_eq_some_iff.1 h
    exact ⟨⟨rfl, digest, rfl, hd⟩, rfl⟩

variable {subjectKey : EccPublicKey} {parameters : CertificateParameters} {now : Int}

theorem initializeCertificate_spec {validityDays : Int}
  (h : initializeCertificate P subjectKey issuer validityDays now = some cert) :
  Content P issuer cert ∧ cert.toBeSigned.certIssuePermissions = none := by
  simp only [initializeCertificate, bind_eq_bind, bind_eq_some_iff] at h
  obtain ⟨issued, hisd, valid, hv, hcert⟩ := h
  obtain ⟨hn, ht⟩ := namesIssuer_setIssuer hisd
  unfold setValidity at hv
  split at hv
  · cases hv
  cases hv
  cases hcert
  have hk := compress_compressPublicKey subjectKey
  refine ⟨⟨namesIssuer_congr rfl hn, ⟨?_, ?_⟩, ?_, ?_⟩, ?_⟩
  · simp only [setVerificationKey, modifyTbs, compressIndicator, hk, map_some]
  · simp only [setVerificationKey, modifyTbs, ht]
    rfl
  · simp only [setVerificationKey, modifyTbs, ht]
    rfl
  · simp only [setVerificationKey, modifyTbs, ht]
    rfl
  · simp only [setVerificationKey, modifyTbs, ht]
    rfl

theorem Content.modifyTbs (h : Content P issuer cert)
  {f : ToBeSignedCertificate → ToBeSignedCertificate}
  (hk : (f cert.toBeSigned).verifyKeyIndicator = cert.toBeSigned.verifyKeyIndicator)
  (henc : rewriteOptional compressEncryptionKey (f cert.toBeSigned).encryptionKey =
    some (f cert.toBeSigned).encryptionKey)
  (ha : (f cert.toBeSigned).altVerificationKey = cert.toBeSigned.altVerificationKey)
  (halt : (f cert.toBeSigned).altSignatureValue = cert.toBeSigned.altSignatureValue) :
  Content P issuer (modifyTbs f cert) where
  names := namesIssuer_congr rfl h.names
  compressed := ⟨by
    rw [CertificateBuilder.modifyTbs, hk]
    exact h.compressed.indicator, henc⟩
  altKey := ha.trans h.altKey
  altSignature := halt.trans h.altSignature

theorem Content.setId (h : Content P issuer cert) (id : CertificateId) :
  Content P issuer (setId tool id cert) :=
  h.modifyTbs rfl h.compressed.encryptionKey rfl rfl

theorem Content.addIssuePermissions (h : Content P issuer cert)
  (aids : List ItsAid) : Content P issuer (addIssuePermissions aids cert) :=
  h.modifyTbs rfl h.compressed.encryptionKey rfl rfl

theorem Content.addAppPermission (h : Content P issuer cert) (aid : ItsAid)
  (ssp : ByteBuffer) : Content P issuer (addAppPermission aid ssp cert) :=
  h.modifyTbs rfl h.compressed.encryptionKey rfl rfl

theorem Content.setEncryptionKey (h : Content P issuer cert)
  (key : EccPublicKey) : Content P issuer (setEncryptionKey key cert) := by
  refine h.modifyTbs rfl ?_ rfl rfl
  simp only [rewriteOptional, compressEncryptionKey, compressBaseKey,
    compress_compressPublicKey, map_some]

theorem eq_setId_of_setSubjectName {name : ByteBuffer} {named : Certificate}
  (h : setSubjectName tool name cert = some named) :
  named = setId tool (.name name) cert := by
  unfold setSubjectName at h
  split at h
  · cases h
  · exact (some.inj h).symm

theorem rootContent_spec (h : rootContent P tool subjectKey parameters now = some cert) :
  Content P none cert ∧ isCaCertificate cert = true := by
  simp only [rootContent, bind_eq_bind, bind_eq_some_iff] at h
  obtain ⟨start, hst, named, hn, hcert⟩ := h
  have hc := (initializeCertificate_spec hst).1
  obtain rfl := eq_setId_of_setSubjectName hn
  cases hcert
  exact ⟨(((hc.setId _).addIssuePermissions _).addAppPermission _ _).addAppPermission _ _, rfl⟩

theorem authorityContent_spec {issuer : Certificate}
  (h : authorityContent P tool issuer subjectKey parameters now = some cert) :
  Content P (some issuer) cert ∧ isCaCertificate cert = true := by
  simp only [authorityContent, bind_eq_bind, bind_eq_some_iff] at h
  obtain ⟨start, hst, named, hn, hcert⟩ := h
  have hc := (initializeCertificate_spec hst).1
  obtain rfl := eq_setId_of_setSubjectName hn
  cases hcert
  exact ⟨((hc.setId _).addIssuePermissions _).setEncryptionKey _, rfl⟩

theorem addApplicationPermissions_spec (h : Content P issuer cert)
  (hiss : cert.toBeSigned.certIssuePermissions = none) (aids : List ItsAid) :
  Content P issuer (addApplicationPermissions aids cert) ∧
    isAtCertificate (addApplicationPermissions aids cert) = true := by
  let step (cert : Certificate) (aid : ItsAid) : Certificate :=
    CertificateBuilder.addAppPermission aid (applicationSsp aid) cert
  have hp : ∀ (cert : Certificate) (aid : ItsAid), Content P issuer cert ∧
      cert.toBeSigned.certIssuePermissions = none →
      (Content P issuer (step cert aid) ∧ (step cert aid).toBeSigned.certIssuePermissions = none) ∧
        isAtCertificate (step cert aid) = true := by
    rintro cert aid ⟨hc, hiss⟩
    refine ⟨⟨hc.addAppPermission aid _, hiss⟩, ?_⟩
    simp only [step, isAtCertificate, CertificateBuilder.addAppPermission,
      CertificateBuilder.modifyTbs, hiss]
    rfl
  have hs : ∀ (cert : Certificate) (aid : ItsAid),
      (Content P issuer cert ∧ cert.toBeSigned.certIssuePermissions = none) ∧
        isAtCertificate cert = true →
      (Content P issuer (step cert aid) ∧ (step cert aid).toBeSigned.certIssuePermissions = none) ∧
        isAtCertificate (step cert aid) = true :=
    fun cert aid hcert => hp cert aid hcert.1
  obtain ⟨first, rest, heq⟩ : ∃ first rest, effectiveApplicationAids aids = first :: rest := by
    unfold effectiveApplicationAids
    split
    · exact ⟨_, _, rfl⟩
    · next hne => exact List.exists_cons_of_ne_nil hne
  have hend : _ ∧ isAtCertificate (run step (step cert first) rest) = true :=
    Run.always hs (hp cert first ⟨h, hiss⟩)
  rw [addApplicationPermissions, heq, List.foldl_cons]
  exact ⟨hend.1.1, hend.2⟩

theorem ticketContent_spec {issuer : Certificate}
  (h : ticketContent P tool issuer subjectKey parameters now = some cert) :
  Content P (some issuer) cert ∧ isAtCertificate cert = true := by
  simp only [ticketContent, bind_eq_bind, bind_eq_some_iff] at h
  obtain ⟨start, hst, hcert⟩ := h
  obtain ⟨hc, hiss⟩ := initializeCertificate_spec hst
  cases hcert
  exact addApplicationPermissions_spec (hc.setId _) hiss _

end Contents

structure Tool.ChecksConstraints (P : Platform) (tool : Tool) : Prop where
  encodes : ∀ cert, tool.validate cert = true → (P.codec.encode cert).isSome
  clears : ∀ cert, tool.validate cert = true →
    (P.codec.encode (clearAlternativeSignature cert)).isSome

def Prepared (cert : Certificate) : Prop :=
  isCaCertificate cert = true ∧ (extractAlternativePublicKey cert).isSome ∨
    isAtCertificate cert = true ∧ cert.toBeSigned.altVerificationKey = none

structure Classical (P : Platform) (signers : Signers) (cert : Certificate)
  (issuer : Option Certificate) : Prop where
  names : NamesIssuer P cert issuer
  primary : verifyPrimaryCertificate P cert issuer signers.ecc = true
  material : alternativeMaterialState P cert = .none

structure Hybrid (P : Platform) (signers : Signers) (cert : Certificate)
  (issuer : Option Certificate) : Prop where
  names : NamesIssuer P cert issuer
  primary : verifyPrimaryCertificate P cert issuer signers.ecc = true
  alternative : verifyAlternativeCertificate P cert issuer signers.ecc signers.pqc = true
  material : alternativeMaterialState P cert = .authority ∨
    alternativeMaterialState P cert = .endEntity

section Certificates

variable {P : Platform} {tool : Tool} {issuer : Option Certificate}
  {content subject signed cert : Certificate} {key : Security.PrivateKey}

theorem finished_of_built (hc : tool.ChecksConstraints P) (hcom : Compressed subject.toBeSigned)
  (hsgd : signPrimaryCertificate P tool.signers subject issuer key =
    some signed) (hb : canonicalCertificate P tool signed = some cert) :
  cert = signed ∧ cert.issuer = subject.issuer ∧
    cert.toBeSigned = subject.toBeSigned ∧ Finished P cert := by
  rw [signPrimaryCertificate] at hsgd
  obtain ⟨_, -, hset⟩ := bind_eq_some_iff.1 hsgd
  obtain ⟨sig, hsig, hx, -⟩ := setPrimarySignature_spec hset
  have ht : signed.toBeSigned = subject.toBeSigned := by rw [hsig]
  have hse : rewriteOptional makeSignatureXOnly signed.signature = some signed.signature := by
    rw [hsig, rewriteOptional, hx]
    rfl
  rw [← ht] at hcom
  obtain ⟨canonical, hcan, hv⟩ := bind_eq_some_iff.1 hb
  have hs := (canonicalize_eq_some.1 hcan).2
  rw [canonicalizeCopy_of_compressed hcom hse] at hs
  cases hs
  split at hv
  · next hmt =>
    cases hv
    refine ⟨rfl, by rw [hsig], ht, hcom, hse, hc.encodes _ hmt, hc.clears _ hmt⟩
  · cases hv

theorem materialState_eq_none (hen : (P.codec.encode cert).isSome)
  (hk : cert.toBeSigned.altVerificationKey = none) (hs : cert.toBeSigned.altSignatureValue = none) :
  alternativeMaterialState P cert = .none := by
  simp only [alternativeMaterialState, copyCertificate_eq_some.2 ⟨hen, rfl⟩, hk, hs]
  rfl

theorem materialState_hybrid (hen : (P.codec.encode cert).isSome)
  (hs : (extractAlternativeSignature cert).isSome) (hki : Prepared cert) :
  alternativeMaterialState P cert = .authority ∨ alternativeMaterialState P cert = .endEntity := by
  have hp : cert.toBeSigned.altSignatureValue.isSome = true := by
    unfold extractAlternativeSignature at hs
    split at hs
    · next heq => rw [heq]; rfl
    · cases hs
  simp only [alternativeMaterialState, copyCertificate_eq_some.2 ⟨hen, rfl⟩, hp, hs]
  rcases hki with ⟨hca, hkey⟩ | ⟨hat, hkey⟩
  · have hnot : isAtCertificate cert = false := by
      unfold isCaCertificate at hca
      rw [isAtCertificate, ← not_isSome, hca]
      rfl
    have hk : cert.toBeSigned.altVerificationKey.isSome = true := by
      unfold extractAlternativePublicKey at hkey
      split at hkey
      · next heq => rw [heq]; rfl
      · cases hkey
    exact .inl (by simp [hk, hkey, hnot, hca])
  · have hn : extractAlternativePublicKey cert = none := by
      rw [extractAlternativePublicKey, hkey]
    exact .inr (by simp [hkey, hn, hat])

theorem classical_of_built (htyp : tool.signers.Typed)
  (hc : tool.ChecksConstraints P) (hcon : Content P issuer content)
  (hs : signPrimaryCertificate P tool.signers content issuer key =
    some signed) (hb : canonicalCertificate P tool signed = some cert) :
  Classical P tool.signers cert issuer := by
  obtain ⟨rfl, hiss, ht, hf⟩ := finished_of_built hc hcon.compressed hs hb
  refine ⟨namesIssuer_congr hiss hcon.names, verifyPrimaryCertificate_of_signed htyp hs hf.encodes,
    materialState_eq_none hf.encodes ?_ ?_⟩
  · rw [ht]
    exact hcon.altKey
  · rw [ht]
    exact hcon.altSignature

theorem prepared_setAlternativePublicKey {pqcKey : PublicKey} (hc : Content P issuer content)
  (hca : isCaCertificate content = true) (h : setAlternativePublicKey content pqcKey = some cert) :
  NamesIssuer P cert issuer ∧ Compressed cert.toBeSigned ∧ Prepared cert := by
  unfold setAlternativePublicKey at h
  split at h
  · cases h
  next hs =>
  cases h
  refine ⟨namesIssuer_congr rfl hc.names,
    ⟨hc.compressed.indicator, hc.compressed.encryptionKey⟩, .inl ⟨hca, ?_⟩⟩
  exact isSome_iff_exists.2 ⟨pqcKey, if_pos (not_not.1 hs)⟩

theorem hybrid_of_built (htyp : tool.signers.Typed)
  (hch : tool.ChecksConstraints P) {first : Certificate}
  {pqcKey : PrivateKey} (hn : NamesIssuer P first issuer)
  (hcom : Compressed first.toBeSigned) (hp : Prepared first)
  (hinn : signAlternativeCertificate P tool.signers first issuer pqcKey = some subject)
  (hsgd : signPrimaryCertificate P tool.signers subject issuer key =
    some signed) (hb : canonicalCertificate P tool signed = some cert) :
  Hybrid P tool.signers cert issuer := by
  have hc := hinn
  rw [signAlternativeCertificate] at hc
  obtain ⟨sig, -, hset⟩ := bind_eq_some_iff.1 hc
  obtain ⟨hsub, hsi⟩ := setAlternativeSignature_spec hset
  have hc' : Compressed subject.toBeSigned := by
    rw [hsub]
    exact ⟨hcom.indicator, hcom.encryptionKey⟩
  obtain ⟨rfl, hiss, ht, hf⟩ := finished_of_built hch hc' hsgd hb
  have hcar : (extractAlternativeSignature cert).isSome := by
    rw [extractAlternativeSignature, ht, ← extractAlternativeSignature, hsi]
    rfl
  have hk : Prepared cert := by
    simp only [Prepared, isCaCertificate, isAtCertificate, extractAlternativePublicKey, ht, hsub]
    exact hp
  have hs : cert.issuer = first.issuer := by rw [hiss, hsub]
  exact ⟨namesIssuer_congr hs hn, verifyPrimaryCertificate_of_signed htyp hsgd hf.encodes,
    verifyAlternativeCertificate_of_signed hinn hiss ht
      hf.encodes hf.clears (by rw [hf.xOnly]; rfl), materialState_hybrid hf.encodes hcar hk⟩

end Certificates

end CertificateBuilder

end Vanetza.Security.Pqc
