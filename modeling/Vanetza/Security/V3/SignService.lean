import Vanetza.Security.V3.InlineRequests

/-!
# Signing v3 messages

`StraightSignService::sign` lets the header policy prepare a message, asks the
validator whether the own certificate may sign it, and signs.
-/

namespace Vanetza.Security.V3

open Asn1 Lib.Program SecuredMessage

inductive SignConfirmError where
  | unspecified
  | noCertificate
  | noService
  deriving DecidableEq

structure SignConfirm where
  error : SignConfirmError
  securedMessage : Option SecuredMessage
  deriving DecidableEq

namespace SignConfirm

def success (message : SecuredMessage) : SignConfirm := ⟨.unspecified, some message⟩

def failure (error : SignConfirmError) : SignConfirm := ⟨error, none⟩

end SignConfirm

/-- What signing needs; the private key is within `signDigest`. -/
structure StraightSignService (P : Platform) where
  certificates : CertificateProvider P
  backend : Backend
  signDigest : ByteBuffer → Option Signature
  encodeTbsData : ToBeSignedData → Option ByteBuffer
  packing : Packing
  validForSigning : Certificate → ItsAid → Verdict

namespace StraightSignService

open DefaultSignHeaderPolicy

variable {P : Platform}

def unsignedMessage (service : StraightSignService P) (request : SignRequest) : SecuredMessage :=
  ((SecuredMessage.withSignedData service.packing).setHashId (specifiedHashAlgorithm
      (getVerificationKeyType service.certificates.ownCertificate))).setPayload
        service.packing request.plainMessage.bytes

def sign (service : StraightSignService P) (now : Int)
  (fix : PositionFixWithAltitude) (request : SignRequest) : Preparation SignConfirm := do
  let signingCert := service.certificates.ownCertificate
  let hashAlgo := specifiedHashAlgorithm (getVerificationKeyType signingCert)
  let msg ← prepareHeader service.packing service.certificates now fix request
    (service.unsignedMessage request)
  if service.validForSigning signingCert request.itsAid ≠ .valid then
    return .failure .noCertificate
  else
    let payload ← Lib.Program.orThrow () (msg.signingPayload service.encodeTbsData)
    let digest ← Lib.Program.orThrow ()
      (calculateMessageHash P service.backend hashAlgo payload signingCert)
    let signature ← Lib.Program.orThrow () (service.signDigest digest)
    return .success (msg.setSignature signature)

section Outcome

variable {service : StraightSignService P} {now : Int}
  {fix : PositionFixWithAltitude} {request : SignRequest}
  {policy policy' : DefaultSignHeaderPolicy} {confirm : SignConfirm}

theorem exec_sign (h : (service.sign now fix request).exec policy = (.ok confirm, policy')) :
  ∃ msg, (prepareHeader service.packing service.certificates now fix request
      (service.unsignedMessage request)).exec policy = (.ok msg, policy') ∧
    (confirm = .failure .noCertificate ∨ ∃ pay digest sig,
        msg.signingPayload service.encodeTbsData = some pay ∧
        calculateMessageHash P service.backend (specifiedHashAlgorithm (getVerificationKeyType
            service.certificates.ownCertificate)) pay
          service.certificates.ownCertificate = some digest ∧
        service.signDigest digest = some sig ∧ confirm = .success (msg.setSignature sig)) := by
  obtain ⟨msg, t, hp, hr⟩ := exec_bind_eq_ok.1 h
  split at hr
  · cases hr
    exact ⟨msg, hp, .inl rfl⟩
  obtain ⟨pay, t₁, henc, hhas⟩ := exec_bind_eq_ok.1 hr
  obtain ⟨digest, t₂, hh, hsi⟩ := exec_bind_eq_ok.1 hhas
  obtain ⟨sig, t₃, hs, hret⟩ := exec_bind_eq_ok.1 hsi
  obtain ⟨hpay, rfl⟩ := exec_orThrow_eq_ok.1 henc
  obtain ⟨hd, rfl⟩ := exec_orThrow_eq_ok.1 hh
  obtain ⟨hsig, rfl⟩ := exec_orThrow_eq_ok.1 hs
  cases hret
  exact ⟨msg, hp, .inr ⟨pay, digest, sig, hpay, hd, hsig, rfl⟩⟩

/-- A refused request leaves the policy as it was exactly when it was not for a
CAM, or nothing was due. -/
theorem failure_keeps_policy_iff {error : SignConfirmError}
  (h : (service.sign now fix request).exec policy = (.ok (.failure error), policy')) :
  policy' = policy ↔ request.itsAid ≠ aidCa ∨ Idle now policy := by
  obtain ⟨msg, hp, -⟩ := exec_sign h
  rw [exec_prepareHeader hp]
  split
  · next hca =>
    rw [afterCam_eq_iff]
    exact ⟨.inr, fun h => h.resolve_left (not_not.2 hca)⟩
  · next hca => exact ⟨fun _ => .inl hca, fun _ => rfl⟩

end Outcome

def KeyMatches (service : StraightSignService P) (backend : Backend) : Prop :=
  ∀ key digest signature, getPublicKey service.certificates.ownCertificate = some key →
    service.signDigest digest = some signature →
    signature.type = key.type ∧ backend.verifyDigest key digest signature = some true

structure Knows (service : StraightSignService P)
  (verifier : StraightVerifyService) (s : VerifyState P) (aid : ItsAid) :
  Prop where
  hashes : verifier.backend.calculateHash = service.backend.calculateHash
  encodes : verifier.encodeTbsData = service.encodeTbsData
  accepts : ∀ check, verifier.certValidator = some check →
    check service.certificates.ownCertificate aid = .valid
  holds : ∀ digest, calculateDigest P service.certificates.ownCertificate = some digest →
    ∃ cache, s.certCache = some cache ∧
      cache.lookup digest = some service.certificates.ownCertificate

section Way

variable {service : StraightSignService P} {now : Int}
  {fix : PositionFixWithAltitude} {request : SignRequest}
  {policy policy' : DefaultSignHeaderPolicy} {msg : SecuredMessage}
  {verifier : StraightVerifyService} {s : VerifyState P}

theorem compressIndicator_of_hasCanonicalForm {cert : Certificate}
  (h : hasCanonicalForm P cert = true) :
  (compressIndicator cert.toBeSigned.verifyKeyIndicator).isSome ∨
    isIndicatorCompressed cert.toBeSigned.verifyKeyIndicator = true := by
  rw [hasCanonicalForm, Bool.or_eq_true] at h
  rcases h with h | h
  · rw [isCanonical, Bool.and_eq_true] at h
    exact .inr h.1
  obtain ⟨canonical, hcan⟩ := Option.isSome_iff_exists.1 h
  obtain ⟨-, hc⟩ := canonicalize_eq_some.1 hcan
  obtain ⟨i, e, s, hi, -⟩ := canonicalizeCopy_eq_some.1 hc
  exact .inl (by rw [hi]; rfl)

theorem copyCurvePoint_of_compress {type : KeyType} {point : EccCurvePoint}
  {α : Type} {wrap : EccCurvePoint → α}
  (h : ((compress point).map wrap).isSome ∨ isCompressed point = true) :
  ∃ key, copyCurvePoint type point = some key ∧ key.type = type := by
  cases point with
  | compressedY0 x | compressedY1 x | uncompressed x y => exact ⟨_, rfl, rfl⟩
  | nothing | xOnly x | fill => exact h.elim nofun nofun

theorem getPublicKey_of_hasCanonicalForm {cert : Certificate}
  (hf : hasCanonicalForm P cert = true) (ht : getVerificationKeyType cert ≠ .unspecified) :
  ∃ key, getPublicKey cert = some key ∧ key.type = getVerificationKeyType cert := by
  have hpt := compressIndicator_of_hasCanonicalForm hf
  unfold getVerificationKeyType at ht ⊢
  unfold getPublicKey
  split at ht
  iterate 3 next point hind =>
      rw [hind] at hpt
      exact copyCurvePoint_of_compress hpt
  · exact absurd rfl ht

theorem signature_setSignature (data : SignedData) {sig : Signature} (h : sig.type ≠ .unspecified) :
  (SecuredMessage.setSignature sig ⟨3, some data⟩).signature = some sig := by
  rcases sig with ⟨r, s, type⟩
  cases type with
  | unspecified => exact absurd rfl h
  | nistP256 | brainpoolP256r1 | brainpoolP384r1 => rfl

def hashIdOf : HashAlgorithm → HashId
  | .sha256 => .sha256
  | .sha384 => .sha384
  | .unspecified => .sm3

theorem unsignedMessage_eq (service : StraightSignService P) (request : SignRequest) : ∃ data,
  service.unsignedMessage request = ⟨3, some data⟩ ∧
  data.hashId = hashIdOf (specifiedHashAlgorithm (getVerificationKeyType
    service.certificates.ownCertificate)) ∧
  (service.packing.unpack data.tbsData.remaining).payload = request.plainMessage.bytes := by
  refine ⟨_, rfl, ?_, ?_⟩
  · cases getVerificationKeyType service.certificates.ownCertificate <;> rfl
  · exact congrArg RemainingData.payload (service.packing.unpack_pack _)

theorem exec_sign_success (h : (service.sign now fix request).exec policy =
    (.ok (.success msg), policy')) (hs : request.selfSigned = false)
  (hfo : hasCanonicalForm P service.certificates.ownCertificate = true)
  (ht : getVerificationKeyType service.certificates.ownCertificate ≠ .unspecified) :
  ∃ data pay digest signature, msg = SecuredMessage.setSignature signature ⟨3, some data⟩ ∧
    Fits service.packing (hashIdOf (specifiedHashAlgorithm (getVerificationKeyType
        service.certificates.ownCertificate))) request.itsAid request.plainMessage.bytes data ∧
    Names P service.certificates.ownCertificate data.signer ∧
    service.encodeTbsData data.tbsData = some pay ∧
    calculateMessageHash P service.backend (specifiedHashAlgorithm (getVerificationKeyType
        service.certificates.ownCertificate)) pay
      service.certificates.ownCertificate = some digest ∧
    service.signDigest digest = some signature := by
  obtain ⟨prepared, hp, hf | hsuc⟩ := exec_sign h
  · cases hf
  obtain ⟨pay, digest, signature, hpay, hd, hsi, hmsg⟩ := hsuc
  cases hmsg
  -- the hash rests on the canonical encoding, and so does the digest
  obtain ⟨encoded, henc, -⟩ := Option.bind_eq_some_iff.1 hd
  rw [encodedSigner_eq hfo] at henc
  obtain ⟨id, hid⟩ := Option.isSome_iff_exists.1 (calculateDigest_isSome.2 ⟨ht, by rw [henc]; rfl⟩)
  obtain ⟨data₀, hdata₀, hh, hbs⟩ := service.unsignedMessage_eq request
  rw [hdata₀] at hp
  obtain ⟨data, rfl, hfi, hn⟩ :=
    (prepares_prepareHeader hs hh hbs hid).returns trivial (congrArg Prod.fst hp)
  exact ⟨data, pay, digest, signature, rfl, hfi, hn, hpay, hd, hsi⟩

theorem Knows.lookupSigner {data : SignedData} (h : service.Knows verifier s request.itsAid)
  (hn : Names P service.certificates.ownCertificate data.signer) :
  StraightVerifyService.lookupSigner s.certCache (SecuredMessage.signerIdentifier ⟨3, some data⟩) =
    some service.certificates.ownCertificate := by
  unfold signerIdentifier
  dsimp only
  rcases hn with hcert | ⟨digest, hd, hs⟩
  · rw [hcert]
    rfl
  · obtain ⟨cache, hcc, hl⟩ := h.holds digest hd
    rw [hs, hcc]
    exact hl

theorem Knows.calculateMessageHash (h : service.Knows verifier s request.itsAid)
  (algorithm : HashAlgorithm) (pay : ByteBuffer) (cert : Certificate) :
  V3.calculateMessageHash P verifier.backend algorithm pay cert =
    V3.calculateMessageHash P service.backend algorithm pay cert := by
  unfold V3.calculateMessageHash Backend.layeredHash
  rw [h.hashes]

theorem Fits.getters {packing : Packing} {keyType : KeyType} {aid : ItsAid}
  {octets : ByteBuffer} {data : SignedData} (hty : keyType ≠ .unspecified)
  (h : Fits packing (hashIdOf (specifiedHashAlgorithm keyType)) aid octets data) (version : UInt8) :
  SecuredMessage.hashId ⟨version, some data⟩ = specifiedHashAlgorithm keyType ∧
    SecuredMessage.itsAid ⟨version, some data⟩ = aid ∧
    (SecuredMessage.generationTime ⟨version, some data⟩).isSome := by
  refine ⟨?_, ?_, ?_⟩
  · unfold hashId
    dsimp only
    rw [h.hashId]
    cases keyType with
    | unspecified => exact absurd rfl hty
    | nistP256 | brainpoolP256r1 | brainpoolP384r1 => rfl
  · unfold itsAid
    dsimp only
    rw [h.psid]
    exact UInt32.toUInt32_toUInt64 aid
  · obtain ⟨time, ht⟩ := h.time
    rw [generationTime, Option.bind_some, ht]
    simp [time.toNat_lt]

/-- A message that was signed is accepted after its way by whoever knows the
signer, for the application and with the payload it was signed for. -/
theorem signed_message_accepted {codec : MessageCodec} {bytes : ByteBuffer}
  (hsign : (service.sign now fix request).exec policy = (.ok (.success msg), policy'))
  (hself : request.selfSigned = false)
  (hform : hasCanonicalForm P service.certificates.ownCertificate = true)
  (htype : getVerificationKeyType service.certificates.ownCertificate ≠ .unspecified)
  (hkey : service.KeyMatches verifier.backend) (hknows : service.Knows verifier s request.itsAid)
  (hbytes : codec.encode msg = some bytes) :
  ∃ received, codec.decode bytes = some received ∧
    (verifier.verify s received).1.report = .success ∧
    (verifier.verify s received).1.itsAid = request.itsAid ∧
    (verifier.verify s received).1.permissions =
      getAppPermissions service.certificates.ownCertificate request.itsAid ∧
    (received.payload service.packing).buffer = request.plainMessage.bytes := by
  obtain ⟨data, payload, digest, sig, rfl, hf, hn, hpay,
    hd, hsig⟩ := exec_sign_success hsign hself hform htype
  obtain ⟨key, hp, hk⟩ := getPublicKey_of_hasCanonicalForm hform htype
  obtain ⟨hs, hv⟩ := hkey key digest sig hp hsig
  have hsgd := signature_setSignature data (by rw [hs, hk]; exact htype)
  -- the signature is not among what the other getters look at
  obtain ⟨hh, haid, ht⟩ := Fits.getters htype hf 3
  have ha : (verifier.verify s (setSignature sig ⟨3, some data⟩)).1 = _ :=
    StraightVerifyService.verify_eq_success rfl ht hsgd
      (hknows.lookupSigner hn) (haid.symm ▸ hknows.accepts) hp (hknows.encodes ▸ hpay)
      ((hknows.calculateMessageHash _ _ _).trans (hh.symm ▸ hd)) hv
  refine ⟨_, codec.decode_encode hbytes, ?_, ?_, ?_, hf.payload⟩
  · rw [ha]
  · rw [ha]
    exact haid
  · rw [ha]
    exact congrArg (getAppPermissions _) haid

end Way

def unary (n : Nat) : ByteBuffer := List.replicate n 1 ++ [0]

def readUnary (buffer : ByteBuffer) : Nat × ByteBuffer :=
  ((buffer.takeWhile (· = 1)).length, (buffer.dropWhile (· = 1)).tail)

theorem readUnary_unary (n : Nat) (rest : ByteBuffer) :
  readUnary (unary n ++ rest) = (n, rest) := by
  induction n with
  | zero => rfl
  | succ n ih =>
    obtain ⟨hn, hr⟩ := Prod.mk.inj ih
    have hc : unary (n + 1) ++ rest = 1 :: (unary n ++ rest) := rfl
    rw [hc, readUnary]
    simp only [List.takeWhile_cons, List.dropWhile_cons, decide_true, if_true,
      List.length_cons, hn, hr]

def unaryPacking : Packing where
  pack data := match data.generationLocation with
    | none => 0 :: data.payload
    | some location => 1 :: (unary (Equiv.intEquivNat location.latitude) ++
        (unary (Equiv.intEquivNat location.longitude) ++
          (unary (Equiv.intEquivNat location.elevation) ++ data.payload)))
  unpack
    | 1 :: buffer =>
      let (latitude, buffer) := readUnary buffer
      let (longitude, buffer) := readUnary buffer
      let (elevation, buffer) := readUnary buffer
      ⟨buffer, some ⟨Equiv.intEquivNat.symm latitude,
        Equiv.intEquivNat.symm longitude, Equiv.intEquivNat.symm elevation⟩⟩
    | buffer => ⟨buffer.tail, none⟩
  unpack_pack := by
    rintro ⟨payload, _ | location⟩
    · rfl
    · simp only [readUnary_unary, Equiv.symm_apply_apply]

def signingPlatform : Platform := Platform.ofTable [xOnlySigned] fits_signedWith

def signingStation (verdict : Verdict) : StraightSignService signingPlatform where
  certificates := ⟨xOnlySigned, .empty⟩
  backend := ⟨fun _ data => some data, fun _ digest signature => some (signature.r == digest)⟩
  signDigest digest := some ⟨digest, [2], .nistP256⟩
  encodeTbsData data := some data.remaining
  packing := unaryPacking
  validForSigning _ _ := verdict

def camRequest : SignRequest where
  plainMessage := ⟨fun layer => if layer = .network then ⟨1, [5]⟩ else ⟨0, []⟩⟩
  itsAid := aidCa
  selfSigned := false

def idlePolicy : DefaultSignHeaderPolicy := ⟨1, false, ⟨[], 16⟩, ⟨[], 16⟩⟩
def askedPolicy : DefaultSignHeaderPolicy := ⟨1, true, ⟨[], 16⟩, ⟨[], 16⟩⟩

def origin : PositionFixWithAltitude := ⟨⟨0, 0⟩, none⟩

theorem idlePolicy_kept_iff : ((signingStation .expired).sign 0 origin camRequest).exec idlePolicy =
      (.ok (.failure .noCertificate), idlePolicy) ∧
    (idlePolicy = idlePolicy ↔ camRequest.itsAid ≠ aidCa ∨ Idle 0 idlePolicy) := by
  have hr : ((signingStation .expired).sign 0 origin camRequest).exec
      idlePolicy = (.ok (.failure .noCertificate), idlePolicy) := rfl
  exact ⟨hr, failure_keeps_policy_iff hr⟩

/-- The peer gets no certificate: the message is refused, and the next one is
not due for a second. -/
theorem askedPolicy_lost : ((signingStation .expired).sign 0 origin camRequest).exec askedPolicy =
      (.ok (.failure .noCertificate),
        { askedPolicy with
          camNextCertificate := 950000
          certRequested := false }) ∧
    { askedPolicy with
      camNextCertificate := 950000
      certRequested := false } ≠ askedPolicy := by
  constructor
  · rfl
  · decide

def signedCam : SecuredMessage where
  protocolVersion := 3
  signedData := some
    { hashId := .sha256
      tbsData := ⟨36, some 0, none, none, [0, 5]⟩
      signer := .digest (digestAt 0)
      signature := .ecdsaNistP256Signature ⟨.xOnly [0, 5, 0], [2]⟩ }

def knowingService : StraightVerifyService where
  backend := (signingStation .valid).backend
  encodeTbsData := (signingStation .valid).encodeTbsData
  certValidator := some fun _ _ => .valid
  hasSignPolicy := true

def knowingState : VerifyState signingPlatform :=
  ⟨some (CertificateCache.empty.store xOnlySigned), []⟩

theorem knowingService_knows : (signingStation .valid).Knows knowingService knowingState aidCa where
  hashes := rfl
  encodes := rfl
  accepts := by
    rintro check ⟨⟩
    rfl
  holds := by
    rintro digest hd
    refine ⟨_, rfl, ?_⟩
    have heq : calculateDigest signingPlatform xOnlySigned =
        some (digestAt 0) := by decide +kernel
    cases heq.symm.trans hd
    decide +kernel

theorem signingStation_keyMatches : (signingStation .valid).KeyMatches knowingService.backend := by
  rintro key digest sig ⟨⟩ ⟨⟩
  exact ⟨rfl, congrArg some (beq_self_eq_true digest)⟩

theorem signedCam_accepted : ∃ received, (MessageCodec.only signedCam).decode [] = some received ∧
    (knowingService.verify knowingState received).1.report = .success ∧
    (knowingService.verify knowingState received).1.itsAid = aidCa ∧
    (knowingService.verify knowingState received).1.permissions =
      getAppPermissions xOnlySigned aidCa ∧ (received.payload unaryPacking).buffer =
      camRequest.plainMessage.bytes := by
  have hr : ((signingStation .valid).sign 0 origin camRequest).exec
      idlePolicy = (.ok (.success signedCam), idlePolicy) := rfl
  have hbs : (MessageCodec.only signedCam).encode signedCam = some [] := rfl
  exact signed_message_accepted hr rfl (by decide +kernel) (by decide)
    signingStation_keyMatches knowingService_knows hbs

end StraightSignService

end Vanetza.Security.V3
