import Vanetza.Security.V2.CertificateValidator

/-!
# Verification of v2 messages

`StraightVerifyService::verify` collects the certificates a message may have been signed with, looks
for the one whose key accepts the signature, and checks this certificate.
-/

namespace Vanetza.Security.V2

open InputArchive Lib Lib.Decoder

def convertTime32 (time : Int) : UInt32 := UInt32.ofNat (time.tdiv 1000000 % 2 ^ 32).toNat

def convertTime64 (time : Int) : UInt64 := UInt64.ofNat (time % 2 ^ 64).toNat

def SecuredMessage.isCam (message : SecuredMessage) : Bool :=
  match message.itsAid with
  | some id => id = aidCa.toUInt64
  | none => false

def checkGenerationTime (message : SecuredMessage) (now : Int) : Bool :=
  match message.generationTime with
  | none => false
  | some generationTime =>
    let generationTimePast : Int := if message.isCam then 2 * 1000000 else 600 * 1000000
    if generationTime > convertTime64 (now + 40 * 1000) then false
    else if generationTime < convertTime64 (now - generationTimePast) then
      false
    else true

def checkGenerationLocation (distance : Distance) (message : SecuredMessage)
  (cert : Certificate) : Bool :=
  if message.isCam then true
  else
    match message.generationLocation with
    | none => false
    | some location =>
      match cert.region with
      | none => true
      | some region =>
        if region.getType = .none then true
        else region.contains distance location.toTwoD

def checkCertificateTime (certificate : Certificate) (now : Int) : Bool :=
  match certificate.timeStartAndEnd with
  | none => false
  | some time =>
    let timeNow := convertTime32 now
    if time.startValidity > timeNow ∨ time.endValidity < timeNow then false
    else true

structure PositionFix where
  location : TwoDLocation
  confidence : Bool

def checkCertificateRegion (distance : Distance) (certificate : Certificate)
  (position : PositionFix) : Bool :=
  match certificate.region with
  | none => true
  | some region =>
    if region.getType = .none then true
    else if !position.confidence then false
    else region.contains distance position.location

def assignPermissions (certificate : Certificate) (itsAid : ItsAid) : Option ByteBuffer :=
  ((certificate.itsAidSspList.getD []).find? fun permission =>
    permission.itsAid = itsAid.toUInt64).map (·.serviceSpecificPermissions)

structure CertificateProvider where
  ownCertificate : Certificate
  ownChain : List Certificate
  encodable : ∀ cert ∈ ownCertificate :: ownChain, cert.Encodable

inductive PolicyCall where
  | requestUnrecognizedCertificate (id : HashedId8)
  | requestCertificate
  | requestCertificateChain
  deriving DecidableEq

structure VerifyState (backend : Backend) where
  certCache : Option (CertificateCache backend)
  policyCalls : List PolicyCall

structure StraightVerifyService (backend : Backend) where
  certProvider : Option CertificateProvider
  certValidator : Option (DefaultCertificateValidator backend)
  hasSignPolicy : Bool
  positionFix : Option PositionFix

structure Context (backend : Backend) where
  certProvider : CertificateProvider
  certValidator : DefaultCertificateValidator backend
  positionFix : PositionFix
  now : Int

def StraightVerifyService.context {backend : Backend}
  (service : StraightVerifyService backend) (now : Int) (s : VerifyState backend) :
  Option (Context backend × CertificateCache backend) := do
  let certProvider ← service.certProvider
  let certValidator ← service.certValidator
  let positionFix ← service.positionFix
  let certCache ← s.certCache
  if service.hasSignPolicy then
    return (⟨certProvider, certValidator, positionFix, now⟩, certCache)
  else none

namespace Context

variable {backend : Backend}

def answerRequests (ctx : Context backend) : List HashedId3 → Except Exception (List PolicyCall)
  | [] => return []
  | requested :: rest => do
      let own ← ctx.certProvider.ownCertificate.calculateHash backend
      let chain ← ctx.certProvider.ownChain.mapM fun cert => cert.calculateHash backend
      return (if truncate own = requested then [.requestCertificate] else []) ++
        (chain.filter fun hash => truncate hash = requested).map
          (fun _ => .requestCertificateChain) ++
        (← ctx.answerRequests rest)

def inForce (ctx : Context backend) (cert : Certificate) : Bool :=
  checkCertificateTime cert ctx.now &&
    checkCertificateRegion ctx.certValidator.distance cert ctx.positionFix

def admitAuthorities (ctx : Context backend) (itsAid : ItsAid) :
  List Certificate → CertificateCache backend →
  Except Exception (Option VerifyConfirm × CertificateCache backend)
  | [], cache => return (none, cache)
  | cert :: rest, cache =>
    if cert.subjectInfo.subjectType = .authorizationAuthority then do
      let checked ← ctx.certValidator.checkCertificate ctx.now cache cert
      if checked.1.isSome then
        return (some { report := .invalidCertificate, itsAid,
                       certificateValidity := checked.1 }, checked.2)
      else if !ctx.inForce cert then
        return (some { report := .invalidCertificate, itsAid }, checked.2)
      else
        let cache ← checked.2.insert ctx.now cert
        ctx.admitAuthorities itsAid rest cache
    else ctx.admitAuthorities itsAid rest cache

structure Candidates where
  certificates : List Certificate
  fromCache : Bool
  signerHash : HashedId8

def collectCandidates (ctx : Context backend) (itsAid : ItsAid) (cache : CertificateCache backend) :
  Option SignerInfo → Except Exception ((VerifyConfirm ⊕ Candidates) × CertificateCache backend ×
      List PolicyCall)
  | none => return (.inr ⟨[], false, .replicate 8 0⟩, cache, [])
  | some (.certificate cert) => do
      let signerHash ← cert.calculateHash backend
      let candidates : Candidates := ⟨[cert], false, signerHash⟩
      if itsAid = aidCa then
        let known := cache.lookup ctx.now signerHash .authorizationTicket
        -- previously unknown certificate, send own certificate in next CAM
        return (.inr candidates, known.2,
          if known.1 = [] then [.requestCertificate] else [])
      else return (.inr candidates, cache, [])
  | some (.certificateDigestWithSha256 signerHash) =>
    let found := cache.lookup ctx.now signerHash .authorizationTicket
    return (.inr ⟨found.1, true, signerHash⟩, found.2, [])
  | some (.certificateChain chain) =>
    match chain.getLast? with
    | none => return (.inl { report := .signerCertificateNotFound, itsAid }, cache, [])
    | some last =>
      if 3 < chain.length then
        return (.inl { report := .invalidCertificate, itsAid }, cache, [])
      else do
        let admitted ← ctx.admitAuthorities itsAid chain cache
        match admitted.1 with
        | some confirm => return (.inl confirm, admitted.2, [])
        | none =>
          -- last certificate must be the authorization ticket
          let signerHash ← last.calculateHash backend
          return (.inr ⟨[last], false, signerHash⟩, admitted.2, [])
  | some _ => return (.inl { report := .unsupportedSignerIdentifierType, itsAid }, cache, [])

end Context

inductive SignerSearch where
  | found (signer : Certificate)
  | notFound
  | invalid (reason : CertificateInvalidReason)

def searchSigner (backend : Backend) (payload : ByteBuffer) (ecdsa : EcdsaSignature) :
  List Certificate → Except Exception SignerSearch
  | [] => return .notFound
  | cert :: rest =>
    if cert.subjectInfo.subjectType ≠ .authorizationTicket then
      return .invalid .invalidSigner
    else do
      match ← cert.getPublicKey backend with
      | none => return .invalid .missingPublicKey
      | some publicKey =>
        if backend.verifyData publicKey payload ecdsa then
          return .found cert
        else searchSigner backend payload ecdsa rest

def SecuredMessage.ecdsaSignature (message : SecuredMessage) :
  Except VerificationReport EcdsaSignature :=
  match message.signature with
  | none => .error .unsignedMessage
  | some signature =>
    if signature.getType ≠ .ecdsaNistp256WithSha256 then
      .error .falseSignature
    else
      match signature.extractEcdsaSignature with
      | none => .error .falseSignature
      | some ecdsa =>
        if ecdsa.s.length ≠ PublicKeyAlgorithm.ecdsaNistp256WithSha256.fieldSize then
          .error .falseSignature
        else .ok ecdsa

namespace Context

variable {backend : Backend}

def confirmSigner (ctx : Context backend) (itsAid : ItsAid)
  (signer : Certificate) (certValidity : CertificateValidity)
  (cache : CertificateCache backend) : Except Exception
    (VerifyConfirm × CertificateCache backend × List PolicyCall) :=
  match certValidity with
  | some reason =>
    match reason, signer.signerInfo with
    | .unknownSigner, .certificateDigestWithSha256 signerHash =>
      return ({ report := .invalidCertificate, itsAid,
                certificateValidity := some reason,
                certificateId := some signerHash },
        cache, [.requestUnrecognizedCertificate signerHash])
    | _, _ =>
      return ({ report := .invalidCertificate, itsAid,
                certificateValidity := some reason }, cache, [])
  | none =>
    if !checkCertificateTime signer ctx.now then
      return ({ report := .invalidCertificate, itsAid,
                certificateValidity := some .offTimePeriod }, cache, [])
    else if !checkCertificateRegion ctx.certValidator.distance signer ctx.positionFix then
      return ({ report := .invalidCertificate, itsAid,
                certificateValidity := some .offRegion }, cache, [])
    else
      match assignPermissions signer itsAid with
      | none =>
        return ({ report := .invalidCertificate, itsAid,
                  certificateValidity := some .insufficientItsAid },
          cache, [])
      | some permissions => do
          -- cache only certificates that are useful
          let cache ← cache.insert ctx.now signer
          return ({ report := .success, itsAid, permissions }, cache, [])

def checkSigner (ctx : Context backend) (itsAid : ItsAid)
  (message : SecuredMessage) (fromCache : Bool) (signer : Certificate)
  (cache : CertificateCache backend) : Except Exception
    (VerifyConfirm × CertificateCache backend × List PolicyCall) :=
  if !checkGenerationLocation ctx.certValidator.distance message signer then
    return ({ report := .invalidCertificate, itsAid,
              certificateValidity := some .offRegion }, cache, [])
  else if fromCache then
    -- certificates from cache are already verified as trusted
    ctx.confirmSigner itsAid signer none cache
  else do
    let checked ← ctx.certValidator.checkCertificate ctx.now cache signer
    ctx.confirmSigner itsAid signer checked.1 checked.2

def checkCandidates (ctx : Context backend) (itsAid : ItsAid)
  (message : SecuredMessage) (candidates : Candidates)
  (cache : CertificateCache backend) : Except Exception
    (VerifyConfirm × CertificateCache backend × List PolicyCall) :=
  if candidates.certificates = [] then
    return ({ report := .signerCertificateNotFound, itsAid,
              certificateId := some candidates.signerHash },
      cache, [.requestUnrecognizedCertificate candidates.signerHash])
  else if !checkGenerationTime message ctx.now then
    return ({ report := .invalidTimestamp, itsAid }, cache, [])
  else
    match message.ecdsaSignature with
    | .error report => return ({ report, itsAid }, cache, [])
    | .ok ecdsa => do
        let payload ← message.convertForSigning message.trailerFields
        match ← searchSigner backend payload ecdsa candidates.certificates with
        | .invalid reason =>
          return ({ report := .invalidCertificate, itsAid,
                    certificateValidity := some reason }, cache, [])
        | .notFound =>
          -- a digest alone may collide with that of another ticket
          return ({ report := if candidates.fromCache then
                      .signerCertificateNotFound else .falseSignature,
                    itsAid, certificateId := some candidates.signerHash },
            cache, [.requestUnrecognizedCertificate candidates.signerHash])
        | .found signer => ctx.checkSigner itsAid message candidates.fromCache signer cache

def verify (ctx : Context backend) (cache : CertificateCache backend)
  (message : SecuredMessage) : Except Exception
    (VerifyConfirm × CertificateCache backend × List PolicyCall) := do
  let requests ← ctx.answerRequests (message.requestUnrecognizedCertificate.getD [])
  match message.itsAid with
  | none => return ({ report := .incompatibleProtocol }, cache, requests)
  | some id =>
    let itsAid := id.toUInt32
    let collected ← ctx.collectCandidates itsAid cache message.signerInfo
    match collected.1 with
    | .inl confirm => return (confirm, collected.2.1, requests ++ collected.2.2)
    | .inr candidates =>
      let answer ← ctx.checkCandidates itsAid message candidates collected.2.1
      return (answer.1, answer.2.1, requests ++ collected.2.2 ++ answer.2.2)

end Context

/-- `StraightVerifyService::verify` of a v2 message -/
def StraightVerifyService.verify {backend : Backend}
  (service : StraightVerifyService backend) (now : Int)
  (s : VerifyState backend) (message : SecuredMessage) :
  Except Exception (VerifyConfirm × VerifyState backend) :=
  if message.payload.type ≠ .signed then
    return ({ report := .unsignedMessage }, s)
  else
    match service.context now s with
    | none => return ({ report := .configurationProblem }, s)
    | some (ctx, cache) => do
        let answer ← ctx.verify cache message
        return (answer.1, ⟨some answer.2.1, s.policyCalls ++ answer.2.2⟩)

end Vanetza.Security.V2
