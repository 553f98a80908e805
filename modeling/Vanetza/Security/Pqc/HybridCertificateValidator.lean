import Vanetza.Security.Pqc.HybridCertificate
import Vanetza.Security.V3.CertificateValidator

/-!
# The hybrid certificate validator

On top of the checks of the default validator, the hybrid validator verifies the signatures of the
whole chain: the ECC signature of every certificate, and the FN-DSA signatures as its policy
demands.
-/

namespace Vanetza.Security.Pqc

open V3 V3.Asn1 Lib

inductive VerificationPolicy where
  | classicalOnly
  | hybridIfPresent
  | hybridRequired
  deriving DecidableEq

structure HybridCertificateValidator (P : Platform) where
  policyValidator : DefaultCertificateValidator P
  issuerLookup : Option IssuerLookup
  trustStore : Option (TrustStore P)
  eccBackend : Option Security.Backend
  pqcBackend : Option Backend
  verificationPolicy : VerificationPolicy
  sharedLookup : policyValidator.issuerLookup = issuerLookup
  sharedStore : policyValidator.trustStore = trustStore

namespace HybridCertificateValidator

variable {P : Platform}

/-- `alternative_signature_is_accepted`; by the time it is called the ECC
backend is known to be there. -/
def alternativeSignatureIsAccepted (v : HybridCertificateValidator P)
  (ecc : Security.Backend) (subject : Certificate) (issuer : Option Certificate) : Bool :=
  if v.verificationPolicy = .classicalOnly then true
  else match alternativeMaterialState P subject with
    | .inconsistent => false
    | .none => v.verificationPolicy = .hybridIfPresent
    | _ => match v.pqcBackend with
      | some pqc => verifyAlternativeCertificate P subject issuer ecc pqc
      | none => false

def signaturesAreAccepted (v : HybridCertificateValidator P)
  (ecc : Security.Backend) (subject : Certificate) (issuer : Option Certificate) : Bool :=
  verifyPrimaryCertificate P subject issuer ecc &&
    v.alternativeSignatureIsAccepted ecc subject issuer

def authenticStep (v : HybridCertificateValidator P) (lookup : IssuerLookup)
  (store : TrustStore P) (ecc : Security.Backend) (subject : Certificate) : Move Certificate Bool :=
  if issuerIsSelf subject then
    match calculateDigest P subject with
    | none => .stop false
    | some rootDigest =>
      if (store.lookup rootDigest).isEmpty then .stop false
      else .stop (v.signaturesAreAccepted ecc subject none)
  else match issuerDigest subject with
    | none => .stop false
    | some expected => match lookup expected with
      | none => .stop false
      | some issuer =>
        if calculateDigest P issuer ≠ some expected then .stop false
        else if v.signaturesAreAccepted ecc subject (some issuer) then
          .go issuer
        else .stop false

def maximumChainDepth : Nat := 8

def chainIsAuthentic (v : HybridCertificateValidator P) (lookup : IssuerLookup)
  (store : TrustStore P) (ecc : Security.Backend) (cert : Certificate) : Bool :=
  walk (v.authenticStep lookup store ecc) false maximumChainDepth cert

def validForSigning (v : HybridCertificateValidator P) (cert : Certificate)
  (aid : ItsAid) : Verdict :=
  let policyVerdict := v.policyValidator.validForSigning cert aid
  if policyVerdict ≠ .valid then policyVerdict
  else match v.issuerLookup, v.trustStore, v.eccBackend with
    | some lookup, some store, some ecc =>
      if v.verificationPolicy ≠ .classicalOnly && v.pqcBackend.isNone then
        .misconfiguration
      else if v.chainIsAuthentic lookup store ecc cert then .valid
      else .untrusted
    | _, _, _ => .misconfiguration

structure Signed (v : HybridCertificateValidator P) (ecc : Security.Backend)
  (subject : Certificate) (issuer : Option Certificate) : Prop where
  primary : PrimarySigned P ecc subject issuer
  required : v.verificationPolicy = .hybridRequired → ∃ pqc, v.pqcBackend = some pqc ∧
      AlternativeSigned P ecc pqc subject issuer
  ifPresent : v.verificationPolicy = .hybridIfPresent → CarriesAlternative subject →
    ∃ pqc, v.pqcBackend = some pqc ∧ AlternativeSigned P ecc pqc subject issuer

/-- A link of the chain: `issuer` has exactly the digest `subject` names, and
`subject` bears the signatures of `issuer`. -/
structure AuthenticLink (v : HybridCertificateValidator P)
  (ecc : Security.Backend) (subject issuer : Certificate) : Prop where
  notSelf : issuerIsSelf subject = false
  digest : ∃ digest, issuerDigest subject = some digest ∧ calculateDigest P issuer = some digest
  signed : v.Signed ecc subject (some issuer)

variable {v : HybridCertificateValidator P} {ecc : Security.Backend}
  {lookup : IssuerLookup} {store : TrustStore P}

variable {v' : HybridCertificateValidator P} {issuer : Option Certificate}
  {a subject cert b : Certificate}

theorem alternativeSignatureIsAccepted_spec (hs : issuerIsSelf subject = issuer.isNone)
  (hp : v.verificationPolicy ≠ .classicalOnly)
  (h : v.alternativeSignatureIsAccepted ecc subject issuer = true) :
  (v.verificationPolicy = .hybridIfPresent ∧ ¬ CarriesAlternative subject) ∨
    ∃ pqc, v.pqcBackend = some pqc ∧ AlternativeSigned P ecc pqc subject issuer := by
  unfold alternativeSignatureIsAccepted at h
  rw [if_neg hp] at h
  split at h
  · cases h
  · next hn =>
    exact .inl ⟨of_decide_eq_true h, not_carriesAlternative_of_none hn⟩
  split at h
  · next pqc hpqc =>
    exact .inr ⟨pqc, hpqc, verifyAlternativeCertificate_spec hs h⟩
  · cases h

theorem signed_of_accepted (hs : issuerIsSelf subject = issuer.isNone)
  (h : v.signaturesAreAccepted ecc subject issuer = true) :
  v.Signed ecc subject issuer := by
  obtain ⟨hpr, ha⟩ := Bool.and_eq_true_iff.1 h
  refine ⟨verifyPrimaryCertificate_spec hs hpr, ?_, ?_⟩
  · intro hr
    rcases alternativeSignatureIsAccepted_spec hs (by simp [hr]) ha with
      ⟨hpol, -⟩ | hsig
    · rw [hr] at hpol
      cases hpol
    · exact hsig
  · intro hp hcar
    rcases alternativeSignatureIsAccepted_spec hs (by simp [hp]) ha with
      ⟨-, hn⟩ | hsig
    · exact absurd hcar hn
    · exact hsig

theorem authenticStep_eq_go (h : v.authenticStep lookup store ecc a = .go b) :
  v.AuthenticLink ecc a b := by
  unfold authenticStep at h
  split at h
  · split at h
    · cases h
    · split at h <;> cases h
  next hs =>
  rw [Bool.not_eq_true] at hs
  split at h
  · cases h
  next expected hexp =>
  split at h
  · cases h
  split at h
  · cases h
  next ha =>
  split at h
  · next hsig =>
    cases h
    exact ⟨hs, ⟨expected, hexp, not_not.1 ha⟩, signed_of_accepted (by rw [hs]; rfl) hsig⟩
  · cases h

theorem authenticStep_eq_stop_true (h : v.authenticStep lookup store ecc a = .stop true) :
  issuerIsSelf a = true ∧ (∃ digest, calculateDigest P a = some digest ∧ store.lookup digest ≠ []) ∧
    v.Signed ecc a none := by
  unfold authenticStep at h
  split at h
  · next hs =>
    split at h
    · cases h
    next digest hd =>
    split at h
    · cases h
    · next hne =>
      refine ⟨hs, ⟨digest, hd, ?_⟩, signed_of_accepted (by rw [hs]; rfl) (Move.stop.inj h)⟩
      rwa [List.isEmpty_iff] at hne
  · repeat' split at h
    all_goals cases h

/-- A valid verdict rests on a complete chain of at most eight certificates,
from the given one to a trusted root, of which every link and the root bear
the signatures the policy demands. -/
theorem valid_chain_authentic {cert : Certificate} {aid : ItsAid}
  (hvalid : v.validForSigning cert aid = .valid) :
  ∃ store ecc, v.trustStore = some store ∧ v.eccBackend = some ecc ∧
    ∃ chain : List Certificate, chain.head? = some cert ∧
      chain.length ≤ 8 ∧ chain.IsChain (v.AuthenticLink ecc) ∧
      ∃ root, chain.getLast? = some root ∧ issuerIsSelf root = true ∧
        (∃ digest, calculateDigest P root = some digest ∧ store.lookup digest ≠ []) ∧
        v.Signed ecc root none := by
  unfold validForSigning at hvalid
  simp only at hvalid
  split at hvalid
  · next hp => exact absurd hvalid hp
  split at hvalid
  · next lookup store ecc hlkp hsto hecc =>
    split at hvalid
    · cases hvalid
    split at hvalid
    · next hw =>
      obtain ⟨chain, ht, hlen⟩ := Walk.exists_trail hw (by decide)
      obtain ⟨rest, hh⟩ := ht.head
      obtain ⟨root, hl, hs⟩ := ht.last_stops
      refine ⟨store, ecc, hsto, hecc, chain, by rw [hh]; rfl, hlen,
        ?_, root, hl, authenticStep_eq_stop_true hs⟩
      exact ht.links.imp fun a b => authenticStep_eq_go
    · cases hvalid
  · cases hvalid

/-! ## Policies in order

A policy that accepts fewer signatures at each certificate accepts fewer
chains. -/

def withPolicy (v : HybridCertificateValidator P)
  (policy : VerificationPolicy) : HybridCertificateValidator P :=
  { v with verificationPolicy := policy }

def withPqcBackend (v : HybridCertificateValidator P)
  (pqc : Option Backend) : HybridCertificateValidator P :=
  { v with pqcBackend := pqc }

theorem validForSigning_eq_valid {aid : ItsAid} : v.validForSigning cert aid = .valid ↔
    v.policyValidator.validForSigning cert aid = .valid ∧
    ∃ lookup store ecc, v.issuerLookup = some lookup ∧
      v.trustStore = some store ∧ v.eccBackend = some ecc ∧
      (v.verificationPolicy = .classicalOnly ∨ v.pqcBackend.isSome) ∧
      v.chainIsAuthentic lookup store ecc cert = true := by
  unfold validForSigning
  dsimp only
  split
  · next hp => exact ⟨fun h => absurd h hp, fun h => absurd h.1 hp⟩
  next hp =>
  rw [not_not] at hp
  split
  · next lookup store ecc hl hs hecc =>
    have hpqc : (v.verificationPolicy ≠ .classicalOnly && v.pqcBackend.isNone) = true ↔
        ¬ (v.verificationPolicy = .classicalOnly ∨ v.pqcBackend.isSome) := by
      simp [not_or]
    split
    · next hm =>
      constructor
      · rintro ⟨⟩
      · rintro ⟨-, _, _, _, -, -, -, hprs, -⟩
        exact absurd hprs (hpqc.1 hm)
    · next hprs =>
      rw [hpqc, not_not] at hprs
      constructor
      · intro h
        split at h
        · next hc =>
          exact ⟨hp, lookup, store, ecc, hl, hs, hecc, hprs, hc⟩
        · cases h
      · rintro ⟨-, lookup', store', ecc', hl', hs', he', -, hc⟩
        obtain rfl : lookup = lookup' := Option.some.inj (hl.symm.trans hl')
        obtain rfl : store = store' := Option.some.inj (hs.symm.trans hs')
        obtain rfl : ecc = ecc' := Option.some.inj (hecc.symm.trans he')
        exact if_pos hc
  · next hm =>
    constructor
    · rintro ⟨⟩
    · rintro ⟨-, lookup, store, ecc, hl, hs, hecc, -⟩
      exact absurd hecc (hm lookup store ecc hl hs)

def AcceptsLess (v v' : HybridCertificateValidator P) (ecc : Security.Backend) : Prop :=
  ∀ subject issuer, v.alternativeSignatureIsAccepted ecc subject issuer = true →
    v'.alternativeSignatureIsAccepted ecc subject issuer = true

theorem AcceptsLess.signatures (h : v.AcceptsLess v' ecc)
  (hacc : v.signaturesAreAccepted ecc subject issuer = true) :
  v'.signaturesAreAccepted ecc subject issuer = true := by
  obtain ⟨hp, ha⟩ := Bool.and_eq_true_iff.1 hacc
  exact Bool.and_eq_true_iff.2 ⟨hp, h subject issuer ha⟩

theorem AcceptsLess.go (h : v.AcceptsLess v' ecc)
  (hstep : v.authenticStep lookup store ecc a = .go b) :
  v'.authenticStep lookup store ecc a = .go b := by
  unfold authenticStep at hstep ⊢
  split at hstep
  · split at hstep
    · cases hstep
    · split at hstep <;> cases hstep
  next hs =>
  rw [if_neg hs]
  split at hstep
  · cases hstep
  split at hstep
  · cases hstep
  split at hstep
  · cases hstep
  next hd =>
  split at hstep
  · next hsig =>
    rw [if_neg hd, if_pos (h.signatures hsig)]
    exact hstep
  · cases hstep

theorem AcceptsLess.stop (h : v.AcceptsLess v' ecc)
  (hstep : v.authenticStep lookup store ecc a = .stop true) :
  v'.authenticStep lookup store ecc a = .stop true := by
  unfold authenticStep at hstep ⊢
  split at hstep
  · next hs =>
    rw [if_pos hs]
    split at hstep
    · cases hstep
    split at hstep
    · cases hstep
    · next hr =>
      rw [if_neg hr, h.signatures (Move.stop.inj hstep)]
  · repeat' split at hstep
    all_goals cases hstep

theorem AcceptsLess.chain (h : v.AcceptsLess v' ecc)
  (hc : v.chainIsAuthentic lookup store ecc cert = true) :
  v'.chainIsAuthentic lookup store ecc cert = true :=
  Walk.walk_imp (fun _ _ => h.go) (fun _ => h.stop) hc Bool.noConfusion

theorem classicalOnly_accepts (hp : v.verificationPolicy = .classicalOnly)
  (subject : Certificate) (issuer : Option Certificate) :
  v.alternativeSignatureIsAccepted ecc subject issuer = true :=
  if_pos hp

theorem required_accepts_less : (v.withPolicy .hybridRequired).AcceptsLess
    (v.withPolicy .hybridIfPresent) ecc := by
  intro subject issuer h
  unfold alternativeSignatureIsAccepted withPolicy at h ⊢
  rw [if_neg (by simp)] at h ⊢
  split at h
  · cases h
  · cases h
  · exact h

/-- Whatever is valid under a policy is valid under the next weaker one, and
without FN-DSA signatures their backend does not matter. -/
theorem weaker_policy_valid (v : HybridCertificateValidator P) (cert : Certificate) (aid : ItsAid) :
  ((v.withPolicy .hybridRequired).validForSigning cert aid = .valid →
    (v.withPolicy .hybridIfPresent).validForSigning cert aid = .valid) ∧
  ((v.withPolicy .hybridIfPresent).validForSigning cert aid = .valid →
    (v.withPolicy .classicalOnly).validForSigning cert aid = .valid) ∧
  ∀ pqc pqc' : Option Backend,
    ((v.withPolicy .classicalOnly).withPqcBackend pqc).validForSigning cert aid =
      ((v.withPolicy .classicalOnly).withPqcBackend pqc').validForSigning
        cert aid := by
  refine ⟨fun h => ?_, fun h => ?_, fun pqc pqc' => ?_⟩
  · obtain ⟨hp, lookup, store, ecc, hlkp, hs, hecc, hpqc, hc⟩ :=
      validForSigning_eq_valid.1 h
    have hprs : v.pqcBackend.isSome := hpqc.resolve_left nofun
    exact validForSigning_eq_valid.2 ⟨hp, lookup, store, ecc, hlkp,
      hs, hecc, .inr hprs, required_accepts_less.chain hc⟩
  · obtain ⟨hp, lookup, store, ecc, hlkp, hs, hecc, -, hc⟩ :=
      validForSigning_eq_valid.1 h
    have hl : (v.withPolicy .hybridIfPresent).AcceptsLess (v.withPolicy .classicalOnly) ecc :=
      fun subject issuer _ => classicalOnly_accepts rfl subject issuer
    exact validForSigning_eq_valid.2 ⟨hp, lookup, store, ecc, hlkp, hs, hecc, .inl rfl, hl.chain hc⟩
  · -- neither verdict looks at the backend
    rfl

def sampleSignature : Option Asn1.Signature :=
  some (.ecdsaNistP256Signature ⟨.xOnly (coord 1), coord 2⟩)

def hybridRoot : Certificate :=
  { fakeCertificate with
    toBeSigned := { fakeCertificate.toBeSigned with
      appPermissions := none
      certIssuePermissions := some [⟨.all, 1, 0, [0]⟩]
      altVerificationKey := some (.fnDsa512 (List.replicate fndsa512PublicKeySize 0))
      altSignatureValue := some (.fnDsa512Signature (List.replicate fndsa512SignatureSize 0)) }
    signature := sampleSignature }

def hybridTicket : Certificate :=
  { fakeCertificate with
    issuer := .sha256AndDigest (digestAt 0)
    toBeSigned := { fakeCertificate.toBeSigned with
      altSignatureValue := some (.fnDsa512Signature (List.replicate fndsa512SignatureSize 0)) }
    signature := sampleSignature }

def hybridPlatform : Platform :=
  Platform.ofTable [hybridRoot, hybridTicket, clearAlternativeSignature hybridRoot,
    clearAlternativeSignature hybridTicket] (by decide)

def hybridStore : TrustStore hybridPlatform where
  certificates := [(digestAt 0, hybridRoot)]
  rooted := by decide +kernel

def hybridValidator : HybridCertificateValidator hybridPlatform where
  policyValidator :=
    { runtime := none
      positionProvider := none
      locationChecker := none
      issuerLookup := some fun digest =>
        if digest = digestAt 0 then some hybridRoot else none
      revocationLookup := none
      trustStore := some hybridStore
      disableTimeChecks := true
      disableLocationChecks := true
      disableChainConsistencyChecks := false
      disableRegionConsistencyChecks := false }
  issuerLookup := some fun digest =>
    if digest = digestAt 0 then some hybridRoot else none
  trustStore := some hybridStore
  eccBackend := some ⟨fun _ data => some data, fun _ _ _ => some true⟩
  pqcBackend := some ⟨fun _ _ _ => some true⟩
  verificationPolicy := .hybridRequired
  sharedLookup := rfl
  sharedStore := rfl

theorem hybridTicket_chain_authentic : ∃ store ecc, hybridValidator.trustStore = some store ∧
    hybridValidator.eccBackend = some ecc ∧
    ∃ chain : List Certificate, chain.head? = some hybridTicket ∧
      chain.length ≤ 8 ∧ chain.IsChain (hybridValidator.AuthenticLink ecc) ∧
      ∃ root, chain.getLast? = some root ∧ issuerIsSelf root = true ∧
        (∃ digest, calculateDigest hybridPlatform root = some digest ∧ store.lookup digest ≠ []) ∧
        hybridValidator.Signed ecc root none :=
  have hv : hybridValidator.validForSigning hybridTicket 36 = .valid := by decide +kernel
  valid_chain_authentic hv

theorem hybridTicket_weaker_valid :
  (hybridValidator.withPolicy .hybridIfPresent).validForSigning hybridTicket 36 = .valid ∧
    (hybridValidator.withPolicy .classicalOnly).validForSigning hybridTicket 36 = .valid := by
  obtain ⟨hw, hwe, -⟩ := weaker_policy_valid hybridValidator hybridTicket 36
  have hr : (hybridValidator.withPolicy .hybridRequired).validForSigning
      hybridTicket 36 = .valid := by
    decide +kernel
  exact ⟨hw hr, hwe (hw hr)⟩

end HybridCertificateValidator

end Vanetza.Security.Pqc
