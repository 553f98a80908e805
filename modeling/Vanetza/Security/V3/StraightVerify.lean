import Vanetza.Security.VerifyService
import Vanetza.Security.V3.CertificateValidator
import Vanetza.Security.V3.Digest
import Vanetza.Security.V3.SecuredMessage

/-!
# Verification of v3 messages

`StraightVerifyService::verify` answers with a confirm and, along the way,
updates the certificate cache and tells the sign header policy which
certificates to request or to send; these calls are recorded.
-/

namespace Vanetza.Security.V3

open Asn1 Option

inductive PolicyCall where
  | requestUnrecognizedCertificate (id : HashedId8)
  | requestCertificate
  | enqueueP2pRequest (id : HashedId3)
  | discardP2pRequest (id : HashedId3)
  deriving DecidableEq

structure StraightVerifyService where
  backend : Backend
  encodeTbsData : ToBeSignedData → Option ByteBuffer
  certValidator : Option (Certificate → ItsAid → Verdict)
  hasSignPolicy : Bool

structure VerifyState (P : Platform) where
  certCache : Option (CertificateCache P)
  policyCalls : List PolicyCall

namespace StraightVerifyService

variable {P : Platform}

def tell (service : StraightVerifyService) (calls : List PolicyCall)
  (s : VerifyState P) : VerifyState P :=
  if service.hasSignPolicy then
    { s with policyCalls := s.policyCalls ++ calls }
  else s

def trackStation (service : StraightVerifyService) (msg : SecuredMessage)
  (maybeDigest : Option HashedId8) (s : VerifyState P) : VerifyState P :=
  match s.certCache, maybeDigest with
  | some cache, some digest =>
    -- the second component says whether the digest was new
    let announced := cache.announce digest
    let s := { s with certCache := some announced.1 }
    if announced.2 && msg.itsAid == aidCa then
      service.tell [.requestCertificate] s
    else s
  | _, _ => s

def handleP2p (P : Platform) (msg : SecuredMessage) : List PolicyCall :=
  match msg.signedData with
  | none => []
  | some data =>
    if msg.itsAid == aidCa then
      ((data.tbsData.inlineP2pcdRequest.getD []).map .enqueueP2pRequest) ++
      ((data.tbsData.requestedCertificate.bind (calculateDigest P)).toList.map
        fun digest => .discardP2pRequest (truncate digest))
    else []

def lookupSigner (cache : Option (CertificateCache P)) : SignerIdentifier → Option Certificate
  | .digest (some digest) => cache.bind fun c => c.lookup digest
  | .digest none => none
  | .certificate cert => some cert

def requestIssuer (service : StraightVerifyService) (cert : Certificate)
  (s : VerifyState P) : VerifyState P :=
  match issuerDigest cert, s.certCache with
  | some aaDigest, some cache =>
    if cache.isKnown aaDigest then s
    else service.tell [.requestUnrecognizedCertificate aaDigest] s
  | _, _ => s

def updateCache (service : StraightVerifyService) (msg : SecuredMessage)
  (maybeDigest : Option HashedId8) (cert : Certificate) (s : VerifyState P) : VerifyState P :=
  match s.certCache, maybeDigest with
  | some cache, some digest =>
    let s :=
      if (cache.lookup digest).isNone && msg.itsAid == aidCa then
        service.tell [.requestCertificate] s
      else s
    if containsCertificate msg.signerIdentifier then
      { s with certCache := some (cache.store cert) }
    else s
  | _, _ => s

def verifyWith (service : StraightVerifyService) (msg : SecuredMessage)
  (signature : Signature) (maybeDigest : Option HashedId8)
  (cert : Certificate) (s : VerifyState P) : VerifyConfirm × VerifyState P :=
  if service.certValidator.any fun check => check cert msg.itsAid != .valid then
    ({ report := .invalidCertificate }, s)
  else
    let s := service.requestIssuer cert s
    match getPublicKey cert with
    | none =>
      ({ report := .invalidCertificate,
         certificateValidity := some .missingPublicKey }, s)
    | some publicKey =>
      let verified := do
        let payload ← msg.signingPayload service.encodeTbsData
        let hash ← calculateMessageHash P service.backend msg.hashId payload cert
        service.backend.verifyDigest publicKey hash signature
      match verified with
      | none => ({ report := .incompatibleProtocol }, s)
      | some false => ({ report := .falseSignature }, s)
      | some true =>
        ({ report := .success,
           itsAid := msg.itsAid,
           permissions := getAppPermissions cert msg.itsAid,
           certificateId := maybeDigest },
         service.updateCache msg maybeDigest cert s)

def verify (service : StraightVerifyService) (s : VerifyState P)
  (msg : SecuredMessage) : VerifyConfirm × VerifyState P :=
  if !msg.isSigned then ({ report := .unsignedMessage }, s)
  else if msg.protocolVersion ≠ 3 then ({ report := .incompatibleProtocol }, s)
  else if msg.generationTime.isNone then ({ report := .invalidTimestamp }, s)
  else match msg.signature with
    | none => ({ report := .unsignedMessage }, s)
    | some signature =>
      let signer := msg.signerIdentifier
      let maybeDigest := getCertificateId P signer
      let s := service.trackStation msg maybeDigest s
      let s := service.tell (handleP2p P msg) s
      match lookupSigner s.certCache signer with
      | none =>
        ({ report := .signerCertificateNotFound },
         if msg.itsAid == aidCa then
           service.tell (maybeDigest.toList.map .requestUnrecognizedCertificate) s
         else s)
      | some cert => service.verifyWith msg signature maybeDigest cert s

variable {service : StraightVerifyService}

@[simp] theorem tell_certCache (calls : List PolicyCall) (s : VerifyState P) :
  (service.tell calls s).certCache = s.certCache := by
  unfold tell
  split <;> rfl

theorem lookup_announce (cache : CertificateCache P) (digest digest' : HashedId8) :
  (cache.announce digest).1.lookup digest' = cache.lookup digest' := by
  unfold CertificateCache.announce
  split <;> rfl

theorem lookupSigner_trackStation (msg : SecuredMessage)
  (maybeDigest : Option HashedId8) (s : VerifyState P) (signer : SignerIdentifier) :
  lookupSigner (service.trackStation msg maybeDigest s).certCache signer =
    lookupSigner s.certCache signer := by
  cases signer with
  | certificate cert => rfl
  | digest digest =>
    cases digest with
    | none => rfl
    | some digest =>
      unfold trackStation
      split
      · next cache noted hcc =>
        have ha := lookup_announce cache noted digest
        dsimp only
        split <;> simp [lookupSigner, hcc, ha]
      · rfl

def IdentifiesSigner (P : Platform) (service : StraightVerifyService)
  (msg : SecuredMessage) (confirm : VerifyConfirm) (cert : Certificate)
  (payload hash : ByteBuffer) : Prop :=
  ∃ digest encoding, confirm.certificateId = some digest ∧ calculateDigest P cert = some digest ∧
    canonicalEncoding P cert = some encoding ∧ encoding ≠ [] ∧
    service.backend.layeredHash msg.hashId payload encoding = some hash

structure Accepted (service : StraightVerifyService) (s : VerifyState P)
  (msg : SecuredMessage) (confirm : VerifyConfirm) (cert : Certificate)
  (key : PublicKey) (payload hash : ByteBuffer) (signature : Signature) :
  Prop where
  signer : lookupSigner s.certCache msg.signerIdentifier = some cert
  publicKey : getPublicKey cert = some key
  signed : msg.signature = some signature
  tbsData : msg.signingPayload service.encodeTbsData = some payload
  messageHash : calculateMessageHash P service.backend msg.hashId payload cert = some hash
  verified : service.backend.verifyDigest key hash signature = some true
  certificateId : confirm.certificateId = getCertificateId P msg.signerIdentifier

variable {cert : Certificate} {msg : SecuredMessage} {s : VerifyState P}
  {signature : Signature} {key : PublicKey} {payload hash : ByteBuffer}

theorem verifyWith_success {maybeDigest : Option HashedId8}
  (h : (service.verifyWith msg signature maybeDigest cert s).1.report = .success) :
  ∃ key payload hash, getPublicKey cert = some key ∧
    msg.signingPayload service.encodeTbsData = some payload ∧
    calculateMessageHash P service.backend msg.hashId payload cert = some hash ∧
    service.backend.verifyDigest key hash signature = some true ∧
    (service.verifyWith msg signature maybeDigest cert s).1.certificateId = maybeDigest := by
  unfold verifyWith at h ⊢
  split at h
  · cases h
  next hval =>
  rw [if_neg hval]
  simp only at h ⊢
  split at h
  · cases h
  next key hk =>
  split at h
  · cases h
  · cases h
  next hver =>
  obtain ⟨payload, hp, hr⟩ := bind_eq_some_iff.1 hver
  obtain ⟨hash, hh, hv⟩ := bind_eq_some_iff.1 hr
  exact ⟨key, payload, hash, hk, hp, hh, hv, rfl⟩

theorem verify_success (h : (service.verify s msg).1.report = .success) :
  ∃ cert key payload hash signature,
    service.Accepted s msg (service.verify s msg).1 cert key payload hash signature := by
  unfold verify at h ⊢
  split at h
  · cases h
  next hsig =>
  split at h
  · cases h
  next hv =>
  split at h
  · cases h
  next ht =>
  rw [if_neg hsig, if_neg hv, if_neg ht]
  split at h
  · cases h
  next signature hs =>
  simp only at h ⊢
  split at h
  · cases h
  next cert hcert =>
  obtain ⟨key, payload, hash, hk, hp, hh, hver, hid⟩ := verifyWith_success h
  rw [tell_certCache, lookupSigner_trackStation] at hcert
  exact ⟨cert, key, payload, hash, signature, hcert, hk, hs, hp, hh, hver, hid⟩

theorem verify_eq_success (hv : msg.protocolVersion = 3) (ht : msg.generationTime.isSome)
  (hs : msg.signature = some signature)
  (hsgn : lookupSigner s.certCache msg.signerIdentifier = some cert)
  (hval : ∀ check, service.certValidator = some check →
    check cert msg.itsAid = .valid) (hk : getPublicKey cert = some key)
  (htbs : msg.signingPayload service.encodeTbsData = some payload)
  (hh : calculateMessageHash P service.backend msg.hashId payload cert = some hash)
  (hver : service.backend.verifyDigest key hash signature = some true) :
  (service.verify s msg).1 =
    { report := .success
      itsAid := msg.itsAid
      permissions := getAppPermissions cert msg.itsAid
      certificateId := getCertificateId P msg.signerIdentifier } := by
  have his : msg.isSigned = true := by
    rw [SecuredMessage.signature] at hs
    obtain ⟨data, hd, -⟩ := bind_eq_some_iff.1 hs
    rw [SecuredMessage.isSigned, hd]
    rfl
  have ha : (service.certValidator.any fun check =>
      check cert msg.itsAid != .valid) = false := by
    cases hc : service.certValidator with
    | none => rfl
    | some check => simp [hval check hc]
  unfold verify
  rw [if_neg (by simp [his]), if_neg (not_not.2 hv), if_neg (by simp [isSome_iff_ne_none.1 ht]), hs]
  simp only [tell_certCache, lookupSigner_trackStation, hsgn]
  rw [verifyWith, ha]
  simp only [Bool.false_eq_true, if_false, hk, htbs, bind_eq_bind, bind_some, hh, hver]

theorem keyType_of_getPublicKey (h : getPublicKey cert = some key) :
  getVerificationKeyType cert ≠ .unspecified := by
  unfold getPublicKey at h
  unfold getVerificationKeyType
  split at h
  iterate 3
    simp
  · cases h

theorem getCertificateId_eq {cache : Option (CertificateCache P)}
  {signer : SignerIdentifier} (h : lookupSigner cache signer = some cert) :
  getCertificateId P signer = calculateDigest P cert := by
  cases signer with
  | certificate c =>
    cases h
    rfl
  | digest digest =>
    cases digest with
    | none => cases h
    | some digest =>
      obtain ⟨c, -, hl⟩ := bind_eq_some_iff.1 h
      exact (CertificateCache.lookup_spec hl).symm

theorem Accepted.identifiesSigner_iff {confirm : VerifyConfirm}
  (h : service.Accepted s msg confirm cert key payload hash signature) :
  IdentifiesSigner P service msg confirm cert payload hash ↔ hasCanonicalForm P cert = true := by
  have hid := h.certificateId.trans (getCertificateId_eq h.signer)
  obtain ⟨encoded, henc, hl⟩ := bind_eq_some_iff.1 h.messageHash
  constructor
  · rintro ⟨digest, encoding, -, -, hc, -, -⟩
    by_contra hf
    rw [Bool.not_eq_true] at hf
    rw [(encodedSigner_eq_nil hf).2] at hc
    cases hc
  · intro hf
    rw [encodedSigner_eq hf] at henc
    have hs : (calculateDigest P cert).isSome :=
      calculateDigest_isSome.2 ⟨keyType_of_getPublicKey h.publicKey, by rw [henc]; rfl⟩
    obtain ⟨digest, hd⟩ := isSome_iff_exists.1 hs
    exact ⟨digest, encoded, hid.trans hd, hd, henc, canonicalEncoding_ne_nil henc, hl⟩

/-- A success identifies the certificate whose key accepted the signature, and
the verified hash covers it, exactly when that certificate is canonical or can
be brought into canonical form. -/
theorem success_identifies_signer_iff {s : VerifyState P} {msg : SecuredMessage}
  (h : (service.verify s msg).1.report = .success) :
  ∃ cert key payload hash signature, lookupSigner s.certCache msg.signerIdentifier = some cert ∧
    getPublicKey cert = some key ∧ msg.signature = some signature ∧
    msg.signingPayload service.encodeTbsData = some payload ∧
    service.backend.verifyDigest key hash signature = some true ∧
    (IdentifiesSigner P service msg (service.verify s msg).1 cert payload hash ↔
      hasCanonicalForm P cert = true) := by
  obtain ⟨cert, key, payload, hash, signature, ha⟩ := verify_success h
  exact ⟨cert, key, payload, hash, signature, ha.signer, ha.publicKey,
    ha.signed, ha.tbsData, ha.verified, ha.identifiesSigner_iff⟩

def messageFrom (cert : Certificate) : SecuredMessage where
  protocolVersion := 3
  signedData := some
    { hashId := .sha256
      tbsData := ⟨36, some 0, none, none, [5]⟩
      signer := .certificate [cert]
      signature := .ecdsaNistP256Signature ⟨.xOnly (coord 1), coord 2⟩ }

/-- Hashes are the hashed octets; only the signature over `accepted` is
good. -/
def serviceAccepting (accepted : ByteBuffer) : StraightVerifyService where
  backend := ⟨fun _ data => some data, fun _ digest _ => digest == accepted⟩
  encodeTbsData data := some data.remaining
  certValidator := some fun _ _ => .valid
  hasSignPolicy := false

def freshState (P : Platform) : VerifyState P := ⟨some .empty, []⟩

def compressedPlatform : Platform := Platform.ofTable [compressedSigned] (by decide)

theorem compressed_signer_identified_iff : ∃ cert key payload hash signature,
    lookupSigner (freshState compressedPlatform).certCache
      (messageFrom compressedSigned).signerIdentifier = some cert ∧
    getPublicKey cert = some key ∧
    (messageFrom compressedSigned).signature = some signature ∧
    (messageFrom compressedSigned).signingPayload
      (serviceAccepting [5]).encodeTbsData = some payload ∧
    (serviceAccepting [5]).backend.verifyDigest key hash signature = some true ∧
    (IdentifiesSigner compressedPlatform (serviceAccepting [5])
        (messageFrom compressedSigned)
        ((serviceAccepting [5]).verify (freshState compressedPlatform)
          (messageFrom compressedSigned)).1 cert payload hash ↔
      hasCanonicalForm compressedPlatform cert = true) :=
  success_identifies_signer_iff (by decide +kernel)

/-- A message passes although its confirm names nobody and the verified hash
covers the payload `[5]` and an empty signer. -/
theorem success_without_signer : ((serviceAccepting [5]).verify (freshState compressedPlatform)
    (messageFrom compressedSigned)).1.report = .success ∧
  ((serviceAccepting [5]).verify (freshState compressedPlatform)
    (messageFrom compressedSigned)).1.certificateId = none ∧
  encodedSigner compressedPlatform compressedSigned = some [] ∧
  (serviceAccepting [5]).backend.layeredHash .sha256 [5] [] = some [5] := by
  decide +kernel

end StraightVerifyService

end Vanetza.Security.V3
