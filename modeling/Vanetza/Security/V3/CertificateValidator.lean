import Vanetza.Lib.Walk
import Vanetza.Security.V3.Stores
import Vanetza.Security.V3.Validity

/-!
# The default certificate validator

`DefaultCertificateValidator::valid_for_signing` decides whether a certificate may sign for an
application. It walks up the issuer chain three times: to find a trusted root, to compare every
subject with its issuer, to ask for revocations.
-/

namespace Vanetza.Security.V3

open Asn1 Lib

structure PositionFix where
  latitude : ℚ
  longitude : ℚ

inductive Verdict where
  | unknown
  | valid
  | expired
  | revoked
  | untrusted
  | inconsistentChain
  | outsideRegion
  | insufficientPermission
  | misconfiguration
  deriving DecidableEq

abbrev IssuerLookup := HashedId8 → Option Certificate

/-- `RevocationLookup::is_revoked`, asked with the issuer's digest and the
certificate's. -/
abbrev RevocationLookup := HashedId8 → HashedId8 → Bool

structure DefaultCertificateValidator (P : Platform) where
  runtime : Option Int
  positionProvider : Option PositionFix
  locationChecker : Option (Certificate → PositionFix → Bool)
  issuerLookup : Option IssuerLookup
  revocationLookup : Option RevocationLookup
  trustStore : Option (TrustStore P)
  disableTimeChecks : Bool
  disableLocationChecks : Bool
  disableChainConsistencyChecks : Bool
  disableRegionConsistencyChecks : Bool

def checkPermissionConsistency (subject issuer : Certificate) (aid : ItsAid) : Bool :=
  if isCaCertificate subject && !isAllowedToIssue subject aid then false
  else if isAtCertificate subject && !validForApplication subject aid then false
  else isAllowedToIssue issuer aid

def assuranceClass (value : UInt8) : UInt8 := (value >>> 5) &&& 7

def assuranceConfidence (value : UInt8) : UInt8 := (value >>> 2) &&& 7

def checkAssuranceConsistency (subject issuer : Certificate) : Bool :=
  match assuranceLevel subject, assuranceLevel issuer with
  | none, _ => true
  | some _, none => false
  | some s, some i =>
    decide (assuranceClass s < assuranceClass i) || (assuranceClass s == assuranceClass i &&
        decide (assuranceConfidence s ≤ assuranceConfidence i))

def checkRegionConsistency (P : Platform) (subject issuer : Certificate) : Bool :=
  regionIsWithin P subject issuer

namespace DefaultCertificateValidator

variable {P : Platform}

def checkConsistency (v : DefaultCertificateValidator P)
  (subject issuer : Certificate) (aid : ItsAid) : Bool :=
  checkTimeConsistency subject issuer && checkPermissionConsistency subject issuer aid &&
    checkAssuranceConsistency subject issuer &&
    (v.disableRegionConsistencyChecks || checkRegionConsistency P subject issuer)

def maxChainDepth : Nat := 8

def findIssuerCertificate (v : DefaultCertificateValidator P)
  (cert : Certificate) : Option Certificate :=
  v.issuerLookup.bind fun lookup => (issuerDigest cert).bind lookup

def anchorStep (store : TrustStore P) (lookup : IssuerLookup)
  (cert : Certificate) : Move Certificate Bool :=
  if issuerIsSelf cert then
    .stop ((calculateDigest P cert).any fun digest =>
      !(store.lookup digest).isEmpty)
  else match (issuerDigest cert).bind lookup with
    | none => .stop false
    | some issuer => .go issuer

def isChainAnchored (v : DefaultCertificateValidator P) (cert : Certificate) : Bool :=
  match v.trustStore, v.issuerLookup with
  | some store, some lookup => walk (anchorStep store lookup) false maxChainDepth cert
  -- no anchoring policy configured: fail open
  | _, _ => true

def consistencyStep (v : DefaultCertificateValidator P) (aid : ItsAid)
  (subject : Certificate) : Move Certificate Bool :=
  if issuerIsSelf subject then .stop true
  else match v.findIssuerCertificate subject with
    | none => .stop true
    | some issuer =>
      if v.checkConsistency subject issuer aid then .go issuer
      else .stop false

def chainIsConsistent (v : DefaultCertificateValidator P) (cert : Certificate)
  (aid : ItsAid) : Bool :=
  if v.disableChainConsistencyChecks then true
  else if v.issuerLookup.isNone then true
  else walk (v.consistencyStep aid) true maxChainDepth cert

def revocationStep (P : Platform) (lookup : IssuerLookup)
  (isRevoked : RevocationLookup) (cert : Certificate) : Move Certificate Bool :=
  match calculateDigest P cert, issuerDigest cert with
  | some certDigest, some issuerDigest =>
    if isRevoked issuerDigest certDigest then .stop true
    else match lookup issuerDigest with
      | none => .stop false
      | some issuer => if issuerIsSelf issuer then .stop false else .go issuer
  -- a missing digest ends the walk
  | _, _ => .stop false

def chainIsRevoked (v : DefaultCertificateValidator P) (cert : Certificate) : Bool :=
  match v.revocationLookup, v.issuerLookup with
  | some isRevoked, some lookup => walk (revocationStep P lookup isRevoked) false maxChainDepth cert
  | _, _ => false

def validAtLocation (v : DefaultCertificateValidator P) (cert : Certificate)
  (location : PositionFix) : Bool :=
  match v.locationChecker with
  | some checker => checker cert location
  | none => false

def locationVerdict (v : DefaultCertificateValidator P) (cert : Certificate) : Verdict :=
  if v.disableLocationChecks then .valid
  else match v.positionProvider with
    | none => .valid
    | some location =>
      if hasRegionRestriction cert then
        if v.validAtLocation cert location then .valid else .outsideRegion
      else match v.findIssuerCertificate cert with
        | none => .valid
        | some issuer =>
          if v.validAtLocation issuer location then .valid
          else .outsideRegion

def validForSigning (v : DefaultCertificateValidator P) (cert : Certificate)
  (aid : ItsAid) : Verdict :=
  if !v.disableTimeChecks && v.runtime.isNone then .misconfiguration
  else if !v.disableLocationChecks && (v.positionProvider.isNone || v.locationChecker.isNone) then
    .misconfiguration
  else if !validForApplication cert aid then .insufficientPermission
  else if v.runtime.any fun now => !validAtTimepoint cert now then .expired
  else if !v.isChainAnchored cert then .untrusted
  else if !v.chainIsConsistent cert aid then .inconsistentChain
  else if v.chainIsRevoked cert then .revoked
  else v.locationVerdict cert

theorem validForSigning_eq_valid {v : DefaultCertificateValidator P}
  {cert : Certificate} {aid : ItsAid} (h : v.validForSigning cert aid = .valid) :
  validForApplication cert aid = true ∧
  (∀ now ∈ v.runtime, validAtTimepoint cert now = true) ∧
  v.isChainAnchored cert = true ∧ v.chainIsConsistent cert aid = true ∧
  v.chainIsRevoked cert = false ∧ v.locationVerdict cert = .valid := by
  unfold validForSigning at h
  repeat' split at h
  all_goals try cases h
  rename_i happ htime ha hc hr
  simp only [Bool.not_eq_true, Bool.not_eq_false'] at happ ha hc hr
  refine ⟨happ, ?_, ha, hc, hr, h⟩
  intro now hn
  rw [Option.mem_def.1 hn] at htime
  simpa using htime

end DefaultCertificateValidator

end Vanetza.Security.V3
