import Vanetza.Security.Pqc.CertificateBuilder
import Vanetza.Security.Pqc.HybridCertificateValidator

/-!
# Chains of built certificates

A chain is built top down: a root, an authority with the keys of the root, and a ticket with those
of the authority.
-/

namespace Vanetza.Security.Pqc

open V3 V3.Asn1 Lib HybridCertificateValidator

namespace CertificateBuilder

structure ChainPlan where
  rootKey : EccKeyPair
  rootPqcKey : KeyPair
  root : CertificateParameters
  rootTime : Int
  authorityKey : EccKeyPair
  authorityPqcKey : KeyPair
  authority : CertificateParameters
  authorityTime : Int
  ticketKey : EccPublicKey
  ticket : CertificateParameters
  ticketTime : Int

structure Chain where
  root : Certificate
  authority : Certificate
  ticket : Certificate
  deriving DecidableEq

namespace ChainPlan

def buildEcc (P : Platform) (tool : Tool) (plan : ChainPlan) : Option Chain := do
  let root ← buildEccRootCertificate P tool plan.rootKey plan.root plan.rootTime
  let authority ← buildEccAuthorizationAuthorityCertificate P tool plan.rootKey
    root plan.authorityKey.publicKey plan.authority plan.authorityTime
  let ticket ← buildEccAuthorizationTicket P tool plan.authorityKey authority
    plan.ticketKey plan.ticket plan.ticketTime
  return ⟨root, authority, ticket⟩

def buildHybrid (P : Platform) (tool : Tool) (plan : ChainPlan) : Option Chain := do
  let root ← buildHybridRootCertificate P tool plan.rootKey plan.rootPqcKey plan.root plan.rootTime
  let authority ← buildHybridAuthorizationAuthorityCertificate P tool
    plan.rootKey plan.rootPqcKey.privateKey root plan.authorityKey.publicKey
    plan.authorityPqcKey.publicKey plan.authority plan.authorityTime
  let ticket ← buildHybridAuthorizationTicket P tool plan.authorityKey
    plan.authorityPqcKey.privateKey authority plan.ticketKey plan.ticket
    plan.ticketTime
  return ⟨root, authority, ticket⟩

end ChainPlan

structure Chain.Installed {P : Platform} (chain : Chain)
  (lookup : IssuerLookup) (store : TrustStore P) : Prop where
  authority : ∀ digest, calculateDigest P chain.authority = some digest →
    lookup digest = some chain.authority
  root : ∀ digest, calculateDigest P chain.root = some digest → lookup digest = some chain.root
  trusted : ∀ digest, calculateDigest P chain.root = some digest → store.lookup digest ≠ []

section Chains

variable {P : Platform} {tool : Tool} {plan : ChainPlan} {chain : Chain}

theorem classical_of_buildEcc (htyp : tool.signers.Typed) (hc : tool.ChecksConstraints P)
  (h : plan.buildEcc P tool = some chain) :
  Classical P tool.signers chain.root none ∧
    Classical P tool.signers chain.authority (some chain.root) ∧
    Classical P tool.signers chain.ticket (some chain.authority) := by
  simp only [ChainPlan.buildEcc, buildEccRootCertificate,
    buildEccAuthorizationAuthorityCertificate, buildEccAuthorizationTicket,
    Option.bind_eq_bind, Option.bind_eq_some_iff] at h
  obtain ⟨root, ⟨rootContent, hro, rootSigned, hroo, hr⟩, auth, ⟨content, hcon, signed, hs, ha⟩,
    ticket, ⟨ticketContent, ht, ticketSigned, hti, htic⟩, hchn⟩ := h
  cases hchn
  exact ⟨classical_of_built htyp hc (rootContent_spec hro).1 hroo hr,
    classical_of_built htyp hc (authorityContent_spec hcon).1 hs ha,
    classical_of_built htyp hc (ticketContent_spec ht).1 hti htic⟩

theorem hybrid_of_buildHybrid (htyp : tool.signers.Typed) (hc : tool.ChecksConstraints P)
  (h : plan.buildHybrid P tool = some chain) :
  Hybrid P tool.signers chain.root none ∧ Hybrid P tool.signers chain.authority (some chain.root) ∧
    Hybrid P tool.signers chain.ticket (some chain.authority) := by
  simp only [ChainPlan.buildHybrid, buildHybridRootCertificate,
    buildHybridAuthorizationAuthorityCertificate,
    buildHybridAuthorizationTicket, Option.bind_eq_bind, Option.bind_eq_some_iff] at h
  obtain ⟨root, ⟨rootContent, hr, rootKeyed, hrootK, rootInner, hrootI, rootSigned, hrootS, hro⟩,
    auth, ⟨content, hcon, keyed, hk, inner, hinn, signed, hs, ha⟩,
    ticket, ⟨ticketContent, hti, ticketInner, hticketI, ticketSigned, hticketS, htic⟩, hchn⟩ := h
  cases hchn
  obtain ⟨hrootN, hroo, hrootP⟩ :=
    prepared_setAlternativePublicKey (rootContent_spec hr).1 (rootContent_spec hr).2 hrootK
  obtain ⟨hn, hcom, hp⟩ :=
    prepared_setAlternativePublicKey (authorityContent_spec hcon).1
      (authorityContent_spec hcon).2 hk
  obtain ⟨ht, hat⟩ := ticketContent_spec hti
  exact ⟨hybrid_of_built htyp hc hrootN hroo hrootP hrootI hrootS hro,
    hybrid_of_built htyp hc hn hcom hp hinn hs ha,
    hybrid_of_built htyp hc ht.names ht.compressed (.inr ⟨hat, ht.altKey⟩) hticketI hticketS htic⟩

variable {v : HybridCertificateValidator P} {lookup : IssuerLookup}
  {store : TrustStore P} {ecc : Security.Backend}

variable {cert : Certificate} {issuer : Option Certificate} {signers : Signers}

theorem authenticStep_issued {issuer : Certificate} (hn : NamesIssuer P cert (some issuer))
  (hf : ∀ digest, calculateDigest P issuer = some digest → lookup digest = some issuer) :
  v.authenticStep lookup store ecc cert =
    if v.signaturesAreAccepted ecc cert (some issuer) then .go issuer
    else .stop false := by
  obtain ⟨hs, digest, hexp, ha⟩ := hn
  simp [authenticStep, hs, hexp, hf digest ha, ha]

theorem chainIsAuthentic_of_accepted (hins : chain.Installed lookup store)
  (hr : NamesIssuer P chain.root none) (haut : NamesIssuer P chain.authority (some chain.root))
  (ht : NamesIssuer P chain.ticket (some chain.authority))
  (ha : v.signaturesAreAccepted ecc chain.root none = true ∧
    v.signaturesAreAccepted ecc chain.authority (some chain.root) = true ∧
    v.signaturesAreAccepted ecc chain.ticket (some chain.authority) = true) :
  v.chainIsAuthentic lookup store ecc chain.ticket = true := by
  have hf : v.authenticStep lookup store ecc chain.ticket = .go chain.authority := by
    rw [authenticStep_issued ht hins.authority, if_pos ha.2.2]
  have hsec : v.authenticStep lookup store ecc chain.authority = .go chain.root := by
    rw [authenticStep_issued haut hins.root, if_pos ha.2.1]
  have hst : v.authenticStep lookup store ecc chain.root = .stop true := by
    obtain ⟨-, digest, -, hd⟩ := haut
    have hs : issuerIsSelf chain.root = true := hr
    simp [authenticStep, hs, hd, hins.trusted digest hd, ha.1]
  rw [chainIsAuthentic, maximumChainDepth, Walk.walk_go hf, Walk.walk_go hsec, Walk.walk_stop hst]

theorem accepted_of_chainIsAuthentic (hins : chain.Installed lookup store)
  (ht : NamesIssuer P chain.ticket (some chain.authority))
  (h : v.chainIsAuthentic lookup store ecc chain.ticket = true) :
  v.signaturesAreAccepted ecc chain.ticket (some chain.authority) = true := by
  by_contra hrej
  have hs : v.authenticStep lookup store ecc chain.ticket = .stop false := by
    rw [authenticStep_issued ht hins.authority, if_neg hrej]
  rw [chainIsAuthentic, maximumChainDepth, Walk.walk_stop hs] at h
  cases h

theorem Hybrid.accepted (h : Hybrid P signers cert issuer) (hp : v.pqcBackend = some signers.pqc) :
  v.signaturesAreAccepted signers.ecc cert issuer = true := by
  refine Bool.and_eq_true_iff.2 ⟨h.primary, ?_⟩
  unfold alternativeSignatureIsAccepted
  split
  · rfl
  rcases h.material with hm | hm
  · simp only [hm, hp]
    exact h.alternative
  · simp only [hm, hp]
    exact h.alternative

theorem Classical.accepted_iff (h : Classical P signers cert issuer) :
  v.signaturesAreAccepted signers.ecc cert issuer = true ↔
    v.verificationPolicy ≠ .hybridRequired := by
  rw [signaturesAreAccepted, h.primary, Bool.true_and, alternativeSignatureIsAccepted, h.material]
  cases v.verificationPolicy <;> simp

/-- A chain of hybrid certificates is accepted under every policy, a chain of
classical ones exactly where no hybrid certificates are required. -/
theorem built_chain_accepted (htyped : tool.signers.Typed) (hchecks : tool.ChecksConstraints P)
  (v : HybridCertificateValidator P)
  (hpqc : v.pqcBackend = some tool.signers.pqc) (plan : ChainPlan)
  (chain : Chain) (hinstalled : chain.Installed lookup store) :
  (plan.buildHybrid P tool = some chain → ∀ policy,
    (v.withPolicy policy).chainIsAuthentic lookup store tool.signers.ecc chain.ticket = true) ∧
  (plan.buildEcc P tool = some chain → ∀ policy,
    ((v.withPolicy policy).chainIsAuthentic lookup store tool.signers.ecc
      chain.ticket = true ↔ policy ≠ .hybridRequired)) := by
  constructor
  · intro hb policy
    obtain ⟨hr, ha, ht⟩ := hybrid_of_buildHybrid htyped hchecks hb
    have hp' : (v.withPolicy policy).pqcBackend = some tool.signers.pqc := hpqc
    exact chainIsAuthentic_of_accepted hinstalled hr.names ha.names
      ht.names ⟨hr.accepted hp', ha.accepted hp', ht.accepted hp'⟩
  · intro hb policy
    obtain ⟨hr, ha, ht⟩ := classical_of_buildEcc htyped hchecks hb
    constructor
    · intro hc
      exact ht.accepted_iff.1 (accepted_of_chainIsAuthentic hinstalled ht.names hc)
    intro hp
    have hacc : ∀ {cert : Certificate} {issuer : Option Certificate},
        Classical P tool.signers cert issuer →
        (v.withPolicy policy).signaturesAreAccepted tool.signers.ecc cert
          issuer = true := fun h => h.accepted_iff.2 hp
    exact chainIsAuthentic_of_accepted hinstalled hr.names ha.names ht.names
      ⟨hacc hr, hacc ha, hacc ht⟩

end Chains

/-! ### Two chains built from one plan

The signatures are zeros, and the backends accept them. The platform knows the
six certificates and all that they have been on the way. -/

def sampleKeyPair : EccKeyPair where
  privateKey := List.Vector.replicate 32 1
  publicKey := ⟨List.Vector.replicate 32 2, List.Vector.replicate 32 3⟩

def samplePqcKeyPair : KeyPair where
  publicKey := ⟨List.replicate fndsa512PublicKeySize 0⟩
  privateKey := ⟨[]⟩

def samplePlan : ChainPlan where
  rootKey := sampleKeyPair
  rootPqcKey := samplePqcKeyPair
  root := ⟨[82], 1, []⟩
  rootTime := 3600000000
  authorityKey := sampleKeyPair
  authorityPqcKey := samplePqcKeyPair
  authority := ⟨[65], 1, []⟩
  authorityTime := 3600000000
  ticketKey := sampleKeyPair.publicKey
  ticket := ⟨[], 1, []⟩
  ticketTime := 3600000000

def sampleTool (table : List Certificate) : Tool where
  signers :=
    { ecc := ⟨fun _ data => some data, fun _ _ _ => some true⟩
      signDigest := fun key _ =>
        some ⟨List.replicate 32 0, List.replicate 32 0, key.type⟩
      pqc := ⟨fun _ _ _ => some true⟩
      sign := fun _ _ => some ⟨List.replicate fndsa512SignatureSize 0⟩ }
  validate cert := decide (cert ∈ table ∧ clearAlternativeSignature cert ∈ table)
  remaining
    | .name octets, _, _ => octets
    | .none, _, _ => []

def sampleStart (issuer : IssuerIdentifier) : Certificate :=
  setVerificationKey sampleKeyPair.publicKey
    (modifyTbs (fun tbs => { tbs with validityPeriod := ⟨0, .hours 24⟩ })
      { emptyCertificate with version := 3, issuer })

def sampleRoot : Certificate :=
  addAppPermission aidCtl [0x18] (addAppPermission aidCrl [1] (addIssuePermissions []
      (setId (sampleTool []) (.name [82]) (sampleStart (.self 0)))))

def sampleAuthority (root : HashedId8) : Certificate :=
  setEncryptionKey sampleKeyPair.publicKey (addIssuePermissions []
    (setId (sampleTool []) (.name [65]) (sampleStart (.sha256AndDigest root))))

def sampleTicket (authority : HashedId8) : Certificate :=
  addApplicationPermissions []
    (setId (sampleTool []) .none (sampleStart (.sha256AndDigest authority)))

def withKey : Certificate → Certificate :=
  modifyTbs fun tbs => { tbs with
    altVerificationKey := some (.fnDsa512 (List.replicate fndsa512PublicKeySize 0)) }

def withInner : Certificate → Certificate :=
  modifyTbs fun tbs => { tbs with
    altSignatureValue := some (.fnDsa512Signature (List.replicate fndsa512SignatureSize 0)) }

def withOuter (cert : Certificate) : Certificate :=
  { cert with
    signature := some (.ecdsaNistP256Signature
      ⟨.xOnly (List.replicate 32 0), List.replicate 32 0⟩) }

def sampleHybrid : Chain where
  root := withOuter (withInner (withKey sampleRoot))
  authority := withOuter (withInner (withKey (sampleAuthority (digestAt 0))))
  ticket := withOuter (withInner (sampleTicket (digestAt 1)))

def sampleEcc : Chain where
  root := withOuter sampleRoot
  authority := withOuter (sampleAuthority (digestAt 3))
  ticket := withOuter (sampleTicket (digestAt 4))

def sampleTable : List Certificate :=
  [sampleHybrid.root, sampleHybrid.authority, sampleHybrid.ticket,
    sampleEcc.root, sampleEcc.authority, sampleEcc.ticket,
    sampleRoot, sampleAuthority (digestAt 3), sampleTicket (digestAt 4)] ++
  [withKey sampleRoot, withKey (sampleAuthority (digestAt 0)),
    sampleTicket (digestAt 1)].flatMap fun cert =>
      [cert, withInner cert, withOuter cert]

def samplePlatform : Platform := Platform.ofTable sampleTable (by decide)

def sampleStore : TrustStore samplePlatform where
  certificates := [(digestAt 0, sampleHybrid.root), (digestAt 3, sampleEcc.root)]
  rooted := by decide +kernel

def sampleLookup : IssuerLookup := fun digest =>
  [(digestAt 0, sampleHybrid.root), (digestAt 1, sampleHybrid.authority),
    (digestAt 3, sampleEcc.root), (digestAt 4, sampleEcc.authority)].lookup digest

def sampleValidator : HybridCertificateValidator samplePlatform where
  policyValidator :=
    { HybridCertificateValidator.hybridValidator.policyValidator with
      issuerLookup := some sampleLookup
      trustStore := some sampleStore }
  issuerLookup := some sampleLookup
  trustStore := some sampleStore
  eccBackend := some (sampleTool sampleTable).signers.ecc
  pqcBackend := some (sampleTool sampleTable).signers.pqc
  verificationPolicy := .hybridRequired
  sharedLookup := rfl
  sharedStore := rfl

theorem sampleTool_checks : (sampleTool sampleTable).ChecksConstraints samplePlatform where
  encodes cert h := (Codec.ofTable_encode_isSome (by decide)).2 (of_decide_eq_true h).1
  clears cert h := (Codec.ofTable_encode_isSome (by decide)).2 (of_decide_eq_true h).2

theorem sampleBuilt : samplePlan.buildHybrid samplePlatform (sampleTool sampleTable) =
      some sampleHybrid ∧ samplePlan.buildEcc samplePlatform (sampleTool sampleTable) =
      some sampleEcc := by
  decide +kernel

theorem installed_of_digests {chain : Chain} (root authority : HashedId8)
  (hr : calculateDigest samplePlatform chain.root = some root)
  (ha : calculateDigest samplePlatform chain.authority = some authority)
  (hf : sampleLookup authority = some chain.authority ∧
    sampleLookup root = some chain.root ∧ sampleStore.lookup root ≠ []) :
  chain.Installed sampleLookup sampleStore where
  authority := by
    rintro digest hd
    cases ha.symm.trans hd
    exact hf.1
  root := by
    rintro digest hd
    cases hr.symm.trans hd
    exact hf.2.1
  trusted := by
    rintro digest hd
    cases hr.symm.trans hd
    exact hf.2.2

theorem sample_chains_accepted :
  (sampleValidator.withPolicy .hybridRequired).chainIsAuthentic sampleLookup
      sampleStore (sampleTool sampleTable).signers.ecc sampleHybrid.ticket = true ∧
    (sampleValidator.withPolicy .hybridIfPresent).chainIsAuthentic
      sampleLookup sampleStore (sampleTool sampleTable).signers.ecc sampleEcc.ticket = true ∧
    ¬(sampleValidator.withPolicy .hybridRequired).chainIsAuthentic
      sampleLookup sampleStore (sampleTool sampleTable).signers.ecc
      sampleEcc.ticket = true := by
  have ht : (sampleTool sampleTable).signers.Typed := by
    rintro key digest sig ⟨⟩
    rfl
  have hh : sampleHybrid.Installed sampleLookup sampleStore :=
    installed_of_digests (digestAt 0) (digestAt 1)
      (by decide +kernel) (by decide +kernel) (by decide +kernel)
  have hecc : sampleEcc.Installed sampleLookup sampleStore :=
    installed_of_digests (digestAt 3) (digestAt 4)
      (by decide +kernel) (by decide +kernel) (by decide +kernel)
  have ha := (built_chain_accepted ht sampleTool_checks
    sampleValidator rfl samplePlan sampleEcc hecc).2 sampleBuilt.2
  exact ⟨(built_chain_accepted ht sampleTool_checks sampleValidator rfl
      samplePlan sampleHybrid hh).1 sampleBuilt.1 .hybridRequired,
    (ha .hybridIfPresent).2 (by decide), fun h => (ha .hybridRequired).1 h rfl⟩

end CertificateBuilder

end Vanetza.Security.Pqc
