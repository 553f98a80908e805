import Vanetza.Security.V3.CertificateValidator

/-!
# What a valid verdict says about the issuer chain

The chain of a certificate goes from each one to the one found under the digest
it names, and ends at a self-issued one.
-/

namespace Vanetza.Security.V3

open Asn1 Lib Lib.Walk List

/-- Up to the issuer; `true` at a self-issued certificate, `false` where the
issuer cannot be found. -/
def chainStep (lookup : IssuerLookup) (cert : Certificate) : Move Certificate Bool :=
  if issuerIsSelf cert then .stop true
  else match (issuerDigest cert).bind lookup with
    | none => .stop false
    | some issuer => .go issuer

/-- `chain` leads from `cert` to a self-issued certificate. -/
def IssuerChain (lookup : IssuerLookup) (cert : Certificate) (chain : List Certificate) : Prop :=
  Trail (chainStep lookup) true cert chain

/-- `issuer` is what the lookup has under the digest `subject` names. -/
def IssuedBy (lookup : IssuerLookup) (subject issuer : Certificate) : Prop :=
  issuerIsSelf subject = false ∧
    ∃ digest, issuerDigest subject = some digest ∧ lookup digest = some issuer

variable {cert subject issuer a b : Certificate} {chain : List Certificate}
  {lookup : IssuerLookup} {aid : ItsAid}

theorem chainStep_eq_go :
  chainStep lookup subject = .go issuer ↔ IssuedBy lookup subject issuer := by
  unfold chainStep IssuedBy
  cases hs : issuerIsSelf subject with
  | true => simp
  | false =>
    cases hd : issuerDigest subject with
    | none => simp
    | some digest => cases hl : lookup digest <;> simp [hl]

theorem chainStep_eq_stop_true : chainStep lookup cert = .stop true ↔ issuerIsSelf cert = true := by
  unfold chainStep
  split
  · simp_all
  · split <;> simp_all

theorem IssuerChain.issuedBy (h : IssuerChain lookup cert chain) :
  chain.IsChain (IssuedBy lookup) :=
  (Trail.links h).imp fun _ _ => chainStep_eq_go.1

section Anchor

variable {P : Platform} {store : TrustStore P} {lookup : IssuerLookup}

def Anchored (store : TrustStore P) (root : Certificate) : Prop :=
  issuerIsSelf root = true ∧
    ∃ digest, calculateDigest P root = some digest ∧ store.lookup digest ≠ []

theorem anchorStep_eq_go : DefaultCertificateValidator.anchorStep store lookup a = .go b ↔
    chainStep lookup a = .go b := by
  unfold DefaultCertificateValidator.anchorStep chainStep
  split
  · simp
  · exact Iff.rfl

theorem anchorStep_eq_stop_true :
  DefaultCertificateValidator.anchorStep store lookup a = .stop true ↔ Anchored store a := by
  unfold DefaultCertificateValidator.anchorStep Anchored
  split
  · next hs =>
    simp only [hs, true_and, Move.stop.injEq, Option.any_eq_true,
      Bool.not_eq_true', isEmpty_eq_false_iff]
  · next hs =>
    split <;> simp_all

theorem anchored_chain (h : walk (DefaultCertificateValidator.anchorStep store lookup) false
    DefaultCertificateValidator.maxChainDepth cert = true) :
  ∃ chain, IssuerChain lookup cert chain ∧ chain.length ≤ 8 ∧
    ∃ root, chain.getLast? = some root ∧ Anchored store root := by
  obtain ⟨chain, ht, hlen⟩ := exists_trail h (by decide)
  obtain ⟨root, hl, hs⟩ := ht.last_stops
  refine ⟨chain, ?_, hlen, root, hl, anchorStep_eq_stop_true.1 hs⟩
  exact ht.imp (fun a b => anchorStep_eq_go.1)
    fun a ha => chainStep_eq_stop_true.2 (anchorStep_eq_stop_true.1 ha).1

end Anchor

def MayIssue (cert : Certificate) (aid : ItsAid) : Prop :=
  ∃ groups, cert.toBeSigned.certIssuePermissions = some groups ∧
    ∃ group ∈ groups, group.subjectPermissions = .all ∨
      ∃ ranges, group.subjectPermissions = .explicit ranges ∧
        ∃ range ∈ ranges, range.psid = aid.toUInt64

def HasApplication (cert : Certificate) (aid : ItsAid) : Prop :=
  ∃ entries, cert.toBeSigned.appPermissions = some entries ∧
    ∃ entry ∈ entries, entry.psid = aid.toUInt64

def AssuranceAtMost (subject issuer : Certificate) : Prop :=
  ∀ s, assuranceLevel subject = some s → ∃ i, assuranceLevel issuer = some i ∧
      (assuranceClass s < assuranceClass i ∨ assuranceClass s = assuranceClass i ∧
          assuranceConfidence s ≤ assuranceConfidence i)

def RegionWithin (P : Platform) (subject issuer : Certificate) : Prop :=
  issuer.toBeSigned.region = none ∨
  ∃ inner outer, subject.toBeSigned.region = some inner ∧ issuer.toBeSigned.region = some outer ∧
    (outer = .nothing ∨ (∃ rectangles, inner = .rectangularRegion rectangles ∧
        outer = .rectangularRegion rectangles) ∨
      ∃ c d, inner = .circularRegion c ∧ outer = .circularRegion d ∧ 0 ≤ c.radius ∧
        P.distance c.center d.center + c.radius ≤ d.radius)

structure ConsistentLink (P : Platform) (aid : ItsAid) (subject issuer : Certificate) : Prop where
  issuerAllowed : MayIssue issuer aid
  subjectPermitted : MayIssue subject aid ∨ HasApplication subject aid
  assurance : AssuranceAtMost subject issuer
  windowStart : (getStartAndEndValidity issuer).startValidity ≤
    (getStartAndEndValidity subject).startValidity
  windowEnd : (getStartAndEndValidity subject).endValidity ≤
    (getStartAndEndValidity issuer).endValidity
  region : RegionWithin P subject issuer

theorem mayIssue_of_isAllowedToIssue (h : isAllowedToIssue cert aid = true) :
  MayIssue cert aid := by
  unfold isAllowedToIssue at h
  split at h
  · next groups hg =>
    obtain ⟨group, hm, ha⟩ := any_eq_true.1 h
    refine ⟨groups, hg, group, hm, ?_⟩
    unfold groupAllows at ha
    split at ha
    · next hall => exact .inl hall
    · next ranges hran =>
      obtain ⟨range, hr, hp⟩ := any_eq_true.1 ha
      exact .inr ⟨ranges, hran, range, hr, LawfulBEq.eq_of_beq hp⟩
    · cases ha
  · cases h

theorem hasApplication_of_validForApplication (h : validForApplication cert aid = true) :
  HasApplication cert aid := by
  unfold validForApplication at h
  split at h
  · next entries hen =>
    obtain ⟨entry, hm, hp⟩ := any_eq_true.1 h
    exact ⟨entries, hen, entry, hm, LawfulBEq.eq_of_beq hp⟩
  · cases h

theorem assuranceAtMost_of_check (h : checkAssuranceConsistency subject issuer = true) :
  AssuranceAtMost subject issuer := by
  intro s hs
  unfold checkAssuranceConsistency at h
  rw [hs] at h
  cases hi : assuranceLevel issuer with
  | none => rw [hi] at h; cases h
  | some i =>
    rw [hi] at h
    refine ⟨i, rfl, ?_⟩
    simpa [decide_eq_true_iff] using h

theorem regionWithin_of_check {P : Platform} (h : regionIsWithin P subject issuer = true) :
  RegionWithin P subject issuer := by
  unfold regionIsWithin at h
  split at h
  · next hiss => exact .inl hiss
  · cases h
  next outer inner ho hinn =>
  refine .inr ⟨inner, outer, hinn, ho, ?_⟩
  unfold isWithin at h
  split at h
  · next d =>
    unfold isWithinCircle at h
    split at h
    · next c =>
      split at h
      · cases h
      next hb =>
      refine .inr (.inr ⟨c, d, rfl, rfl, ?_, of_decide_eq_true h⟩)
      simp only [Bool.or_eq_true, decide_eq_true_iff, not_or] at hb
      omega
    · cases h
  · next rectangles =>
    exact .inr (.inl ⟨rectangles, of_decide_eq_true h, rfl⟩)
  · cases h
  · exact .inl rfl
  · cases h

namespace DefaultCertificateValidator

variable {P : Platform} {v : DefaultCertificateValidator P} {lookup : IssuerLookup}

structure LinkChecked (P : Platform) (aid : ItsAid) (subject issuer : Certificate) : Prop where
  time : checkTimeConsistency subject issuer = true
  issuerAllowed : MayIssue issuer aid
  assurance : AssuranceAtMost subject issuer
  region : RegionWithin P subject issuer

theorem linkChecked_of_checkConsistency (hrgn : v.disableRegionConsistencyChecks = false)
  (h : v.checkConsistency subject issuer aid = true) :
  LinkChecked P aid subject issuer := by
  unfold checkConsistency checkPermissionConsistency at h
  simp only [Bool.and_eq_true, hrgn, Bool.false_or] at h
  obtain ⟨⟨⟨ht, hp⟩, ha⟩, hr⟩ := h
  refine ⟨ht, ?_, assuranceAtMost_of_check ha, regionWithin_of_check hr⟩
  split at hp
  · cases hp
  · split at hp
    · cases hp
    · exact mayIssue_of_isAllowedToIssue hp

theorem consistencyStep_of_go (hlkp : v.issuerLookup = some lookup)
  (h : chainStep lookup a = .go b) :
  v.consistencyStep aid a = .stop false ∨
    (v.consistencyStep aid a = .go b ∧ v.checkConsistency a b aid = true) := by
  obtain ⟨hs, digest, hd, hl⟩ := chainStep_eq_go.1 h
  have hf : v.findIssuerCertificate a = some b := by
    rw [findIssuerCertificate, hlkp, Option.bind_some, hd, Option.bind_some, hl]
  cases hc : v.checkConsistency a b aid with
  | false => exact .inl (by simp [consistencyStep, hs, hf, hc])
  | true => exact .inr ⟨by simp [consistencyStep, hs, hf, hc], rfl⟩

theorem checkConsistency_of_consistent (hl : v.issuerLookup = some lookup)
  (hc : v.disableChainConsistencyChecks = false)
  (ht : IssuerChain lookup cert chain) (hlen : chain.length ≤ 8)
  (h : v.chainIsConsistent cert aid = true) :
  chain.IsChain fun a b => v.checkConsistency a b aid = true := by
  have hw : walk (v.consistencyStep aid) true maxChainDepth cert = true := by
    unfold chainIsConsistent at h
    rwa [hc, hl] at h
  exact all_links_of_walk ht (fun a b => consistencyStep_of_go hl) hlen
    (ne_of_eq_of_ne hw (by decide))

theorem linkChecked_of_consistent (hlkp : v.issuerLookup = some lookup)
  (hc : v.disableChainConsistencyChecks = false) (hr : v.disableRegionConsistencyChecks = false)
  (ht : IssuerChain lookup cert chain) (hl : chain.length ≤ 8)
  (h : v.chainIsConsistent cert aid = true) :
  chain.IsChain (LinkChecked P aid) :=
  (checkConsistency_of_consistent hlkp hc ht hl h).imp fun _ _ => linkChecked_of_checkConsistency hr

theorem consistentLinks {rest : List Certificate} (h : (cert :: rest).IsChain (LinkChecked P aid))
  (hf : MayIssue cert aid ∨ HasApplication cert aid) :
  (cert :: rest).IsChain (ConsistentLink P aid) := by
  induction rest generalizing cert with
  | nil => exact isChain_singleton _
  | cons issuer rest ih =>
    obtain ⟨hl, hr⟩ := isChain_cons_cons.1 h
    obtain ⟨hst, hend⟩ := checkTimeConsistency_iff.1 hl.time
    exact isChain_cons_cons.2 ⟨⟨hl.issuerAllowed, hf, hl.assurance, hst, hend,
        hl.region⟩, ih hr (.inl hl.issuerAllowed)⟩

/-- A valid verdict of a fully configured validator: the issuer chain reaches
a trusted root within eight certificates, and every link of it is
consistent. -/
theorem valid_chain_consistent {store : TrustStore P} (hstore : v.trustStore = some store)
  (hlookup : v.issuerLookup = some lookup) (hchain : v.disableChainConsistencyChecks = false)
  (hregion : v.disableRegionConsistencyChecks = false) {cert : Certificate} {aid : ItsAid}
  (hvalid : v.validForSigning cert aid = .valid) :
  ∃ chain : List Certificate, chain.head? = some cert ∧ chain.length ≤ 8 ∧
    (∃ root, chain.getLast? = some root ∧ issuerIsSelf root = true ∧
      ∃ digest, calculateDigest P root = some digest ∧ store.lookup digest ≠ []) ∧
    chain.IsChain fun subject issuer =>
      IssuedBy lookup subject issuer ∧
      ConsistentLink P aid subject issuer := by
  obtain ⟨happ, -, ha, hc, -, -⟩ := validForSigning_eq_valid hvalid
  rw [isChainAnchored, hstore, hlookup] at ha
  obtain ⟨chain, ht, hlen, root, hl, hr⟩ := anchored_chain ha
  have hlin := linkChecked_of_consistent hlookup hchain hregion ht hlen hc
  obtain ⟨rest, rfl⟩ := Trail.head ht
  have hcon := consistentLinks hlin (.inr (hasApplication_of_validForApplication happ))
  refine ⟨cert :: rest, rfl, hlen, ⟨root, hl, hr.1, hr.2⟩, ?_⟩
  have hiss := isChain_iff_getElem.1 ht.issuedBy
  exact isChain_iff_getElem.2 fun i hi =>
    ⟨hiss i hi, isChain_iff_getElem.1 hcon i hi⟩

/-- The lookup reports `cert` as revoked by the issuer it names. -/
def ReportedRevoked (P : Platform) (isRevoked : RevocationLookup) (cert : Certificate) : Prop :=
  ∃ issuer digest, issuerDigest cert = some issuer ∧
    calculateDigest P cert = some digest ∧ isRevoked issuer digest = true

variable {isRevoked : RevocationLookup}

theorem revocationStep_of_revoked (h : ReportedRevoked P isRevoked cert) :
  revocationStep P lookup isRevoked cert = .stop true := by
  obtain ⟨issuer, digest, hi, hd, hr⟩ := h
  simp [revocationStep, hi, hd, hr]

theorem revocationStep_of_go (h : chainStep lookup a = .go b)
  (hd : (calculateDigest P a).isSome) (hr : ¬ ReportedRevoked P isRevoked a)
  (hb : issuerIsSelf b = false) :
  revocationStep P lookup isRevoked a = .go b := by
  obtain ⟨-, issuer, hi, hl⟩ := chainStep_eq_go.1 h
  obtain ⟨digest, hdig⟩ := Option.isSome_iff_exists.1 hd
  have hn : ¬ isRevoked issuer digest = true := fun hrev => hr ⟨issuer, digest, hi, hdig, hrev⟩
  simp [revocationStep, hi, hdig, hn, hl, hb]

theorem revocation_covers (ht : IssuerChain lookup cert chain) {fuel : Nat}
  (hlen : chain.length ≤ fuel)
  (h : walk (revocationStep P lookup isRevoked) false fuel cert = false)
  {below above : List Certificate} {c : Certificate} (hs : chain.dropLast = below ++ c :: above)
  (hbel : ∀ b ∈ below, (calculateDigest P b).isSome) :
  ¬ ReportedRevoked P isRevoked c := by
  induction ht generalizing fuel below with
  | last _ => simp at hs
  | @cons x y rest hgo tail ih =>
    obtain ⟨f, rfl⟩ : ∃ f, fuel = f + 1 := ⟨fuel - 1, by simp at hlen; omega⟩
    obtain ⟨rest', rfl⟩ := Trail.head tail
    have hx : ¬ ReportedRevoked P isRevoked x := by
      intro hrev
      rw [walk_stop (revocationStep_of_revoked hrev)] at h
      cases h
    rw [dropLast_cons_cons] at hs
    cases below with
    | nil =>
      obtain ⟨rfl, -⟩ := cons.inj hs
      exact hx
    | cons b below =>
      obtain ⟨rfl, hr⟩ := cons.inj hs
      cases hy : issuerIsSelf y with
      | true =>
        -- the root ends the chain, so nothing is left above `x`
        have hl : IssuerChain lookup y [y] := .last (chainStep_eq_stop_true.2 hy)
        rw [← Trail.unique hl tail] at hr
        simp at hr
      | false =>
        have hstep := revocationStep_of_go hgo (hbel x mem_cons_self) hx hy
        rw [walk_go hstep] at h
        exact ih (by simpa using hlen) h hr fun b hb => hbel b (mem_cons_of_mem _ hb)

/-- Under a valid verdict, no certificate of the chain below the root is
reported as revoked exactly when no revoked one stands above a certificate
without a digest. -/
theorem valid_chain_not_revoked_iff {store : TrustStore P}
  {isRevoked : RevocationLookup} (hstore : v.trustStore = some store)
  (hlookup : v.issuerLookup = some lookup) (hrevocation : v.revocationLookup = some isRevoked)
  {cert : Certificate} {aid : ItsAid} (hvalid : v.validForSigning cert aid = .valid) :
  ∃ chain, IssuerChain lookup cert chain ∧
    ((∀ c ∈ chain.dropLast, ¬ ReportedRevoked P isRevoked c) ↔
      ∀ below c above, chain.dropLast = below ++ c :: above → ReportedRevoked P isRevoked c →
        ∀ b ∈ below, (calculateDigest P b).isSome) := by
  obtain ⟨-, -, ha, -, hr, -⟩ := validForSigning_eq_valid hvalid
  rw [isChainAnchored, hstore, hlookup] at ha
  rw [chainIsRevoked, hrevocation, hlookup] at hr
  obtain ⟨chain, ht, hl, -⟩ := anchored_chain ha
  refine ⟨chain, ht, ?_⟩
  constructor
  · intro hn below c above hs hc
    exact absurd hc (hn c (by rw [hs]; simp))
  · intro hd c hmem hc
    obtain ⟨below, above, hs⟩ := append_of_mem hmem
    exact revocation_covers ht hl hr hs (hd below c above hs hc) hc

def issueAll : Option (List PsidGroupPermissions) := some [⟨.all, 1, 0, [0]⟩]

def sampleRoot : Certificate :=
  { fakeCertificate with
    toBeSigned := { fakeCertificate.toBeSigned with
      appPermissions := none
      certIssuePermissions := issueAll } }

def sampleAuthority : Certificate :=
  { sampleRoot with issuer := .sha256AndDigest (digestAt 0) }

/-- A ticket with a signature whose `R` is written as given. -/
def sampleTicket (r : EccCurvePoint) : Certificate :=
  { fakeCertificate with
    issuer := .sha256AndDigest (digestAt 1)
    signature := some (.ecdsaNistP256Signature ⟨r, coord 2⟩) }

def samplePlatform : Platform :=
  Platform.ofTable [sampleRoot, sampleAuthority, sampleTicket (.xOnly (coord 1)),
    sampleTicket (.compressedY0 (coord 1))] (by decide)

def sampleStore : TrustStore samplePlatform where
  certificates := [(digestAt 0, sampleRoot)]
  rooted := by decide +kernel

def sampleLookup : IssuerLookup := fun digest =>
  if digest = digestAt 0 then some sampleRoot
  else if digest = digestAt 1 then some sampleAuthority
  else none

def authorityRevoked : RevocationLookup := fun issuer cert =>
  issuer = digestAt 0 && cert = digestAt 1

def sampleValidator (isRevoked : RevocationLookup) :
  DefaultCertificateValidator samplePlatform where
  runtime := none
  positionProvider := none
  locationChecker := none
  issuerLookup := some sampleLookup
  revocationLookup := some isRevoked
  trustStore := some sampleStore
  disableTimeChecks := true
  disableLocationChecks := true
  disableChainConsistencyChecks := false
  disableRegionConsistencyChecks := false

theorem sampleTicket_chain_consistent : ∃ chain : List Certificate,
    chain.head? = some (sampleTicket (.xOnly (coord 1))) ∧ chain.length ≤ 8 ∧
    (∃ root, chain.getLast? = some root ∧ issuerIsSelf root = true ∧
      ∃ digest, calculateDigest samplePlatform root = some digest ∧
        sampleStore.lookup digest ≠ []) ∧ chain.IsChain fun subject issuer =>
      IssuedBy sampleLookup subject issuer ∧
      ConsistentLink samplePlatform 36 subject issuer :=
  valid_chain_consistent (v := sampleValidator fun _ _ => false) rfl rfl rfl rfl (by decide +kernel)

theorem sampleTicket_not_revoked_iff :
  ∃ chain, IssuerChain sampleLookup (sampleTicket (.compressedY0 (coord 1))) chain ∧
    ((∀ c ∈ chain.dropLast, ¬ ReportedRevoked samplePlatform authorityRevoked c) ↔
      ∀ below c above, chain.dropLast = below ++ c :: above →
        ReportedRevoked samplePlatform authorityRevoked c →
        ∀ b ∈ below, (calculateDigest samplePlatform b).isSome) :=
  have hv : (sampleValidator authorityRevoked).validForSigning
      (sampleTicket (.compressedY0 (coord 1))) 36 = .valid := by decide +kernel
  valid_chain_not_revoked_iff rfl rfl rfl hv

/-- A ticket of a revoked authority passes as valid when its `R` is written
compressed, and only then. -/
theorem revoked_authority_accepted :
  IssuerChain sampleLookup (sampleTicket (.compressedY0 (coord 1)))
    [sampleTicket (.compressedY0 (coord 1)), sampleAuthority, sampleRoot] ∧
  ReportedRevoked samplePlatform authorityRevoked sampleAuthority ∧
  (sampleValidator authorityRevoked).validForSigning
    (sampleTicket (.compressedY0 (coord 1))) 36 = .valid ∧
  (sampleValidator authorityRevoked).validForSigning
    (sampleTicket (.xOnly (coord 1))) 36 = .revoked := by
  refine ⟨.cons (y := sampleAuthority) rfl (.cons (y := sampleRoot) rfl
    (.last rfl)), ⟨digestAt 0, digestAt 1, rfl, ?_, rfl⟩, ?_, ?_⟩ <;>
    decide +kernel

end DefaultCertificateValidator

end Vanetza.Security.V3
