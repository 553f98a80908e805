import Vanetza.Security.V2.ForeignKey

/-!
# What a successful verification rests on

A ticket of which a message has the digest only is not checked: that it is in the cache has to be
enough. The cache is changed by lookups, which drop and renew, and by putting in certificates just
found valid.
-/

namespace Vanetza.Security.V2

open Lib List Option CertificateCache

def Certificate.SignedBy (backend : Backend) (cert signer : Certificate) : Prop :=
  ∃ binaryCert key, cert.convertForSigning = .ok binaryCert ∧
    signer.getPublicKey backend = .ok (some key) ∧
    backend.verifyData key binaryCert cert.signature.someEcdsa = true

def Certificate.NestedIn (cert signer : Certificate) : Prop :=
  ∃ time signerTime, extractValidityTime cert = some time ∧
    extractValidityTime signer = some signerTime ∧
    signerTime.startValidity ≤ time.startValidity ∧
    time.endValidity ≤ signerTime.endValidity

def Certificate.IssuedBy (backend : Backend) (cert signer : Certificate) : Prop :=
  cert.SignedBy backend signer ∧ cert.NestedIn signer

variable {backend : Backend}

namespace TrustStore

def Holds (store : TrustStore backend) (root : Certificate) : Prop :=
  ∃ id, (id, root) ∈ store.certificates

def TrustsAuthority (store : TrustStore backend) (authority : Certificate) : Prop :=
  authority.subjectInfo.subjectType = .authorizationAuthority ∧
    ∃ root, store.Holds root ∧ authority.IssuedBy backend root

def TrustsTicket (store : TrustStore backend) (ticket : Certificate) : Prop :=
  ticket.subjectInfo.subjectType = .authorizationTicket ∧
    ∃ authority, store.TrustsAuthority authority ∧ ticket.IssuedBy backend authority

def Trusts (store : TrustStore backend) (cert : Certificate) : Prop :=
  store.TrustsAuthority cert ∨ store.TrustsTicket cert

end TrustStore

def CertificateCache.Trusted (store : TrustStore backend)
  (cache : CertificateCache backend) : Prop :=
  ∀ entry ∈ cache.certificates, store.Trusts entry.certificate

variable {cert signer : Certificate} {validity : CertificateValidity}
  {certs : List Certificate} {time : StartAndEndValidity} {id : IntX}
  {distance : Distance} {data : ByteBuffer}

theorem nestedIn_of_checkConsistency (h : checkConsistency distance cert signer = true) :
  cert.NestedIn signer := by
  have ht : checkTimeConsistency cert signer = true := by
    by_contra hnot
    rw [Bool.not_eq_true] at hnot
    rw [checkConsistency, hnot] at h
    cases h
  unfold checkTimeConsistency at ht
  split at ht
  · next time signerTime hcert hs =>
    split at ht
    · cases ht
    next hst =>
    split at ht
    · cases ht
    · next hend =>
      exact ⟨time, signerTime, hcert, hs, UInt32.not_lt.1 hst, UInt32.not_lt.1 hend⟩
  · cases ht

theorem trySigners_valid {binaryCert : ByteBuffer} (hb : cert.convertForSigning = .ok binaryCert)
  (h : trySigners backend distance cert binaryCert cert.signature.someEcdsa
    certs = .ok (some none)) :
  ∃ signer ∈ certs, cert.IssuedBy backend signer := by
  induction certs with
  | nil => cases h
  | cons signer certs ih =>
    have hl : trySigners backend distance cert binaryCert
        cert.signature.someEcdsa certs = .ok (some none) →
        ∃ signer' ∈ signer :: certs, cert.IssuedBy backend signer' := by
      intro h
      obtain ⟨signer', hm, hiss⟩ := ih h
      exact ⟨signer', mem_cons_of_mem signer hm, hiss⟩
    rw [trySigners] at h
    obtain ⟨found, hk, h⟩ := bind_eq_ok_iff.1 h
    cases found with
    | none => exact hl h
    | some key =>
      dsimp only at h
      split at h
      · next hv =>
        split at h
        · next hc =>
          exact ⟨signer, mem_cons_self, ⟨binaryCert, key, hb, hk, hv⟩,
            nestedIn_of_checkConsistency hc⟩
        · cases h
      · exact hl h

namespace CertificateCache

variable {store : TrustStore backend} {cache cache' : CertificateCache backend}
  {now : Int} {id : HashedId8} {type : SubjectType} {cert : Certificate}

theorem mem_lookup (h : cert ∈ (cache.lookup now id type).1) :
  ∃ entry ∈ cache.certificates, entry.certificate = cert ∧ entry.id = id ∧
    cert.subjectInfo.subjectType = type := by
  obtain ⟨entry, hm, rfl⟩ := mem_map.1 h
  obtain ⟨hm, hmch⟩ := mem_filter.1 hm
  obtain ⟨hid, ht⟩ := of_decide_eq_true hmch
  exact ⟨entry, mem_of_mem_filter hm, rfl, hid, ht⟩

theorem Trusted.lookup (h : cache.Trusted store) : (cache.lookup now id type).2.Trusted store := by
  intro entry hm
  obtain ⟨entry', hm', rfl⟩ := mem_map.1 hm
  rw [(renew_filed now id type entry').2]
  exact h entry' (mem_of_mem_filter hm')

theorem insert_cases (h : cache.insert now cert = .ok cache') :
  ∃ id, cert.calculateHash backend = .ok id ∧
    (cache' = (cache.lookup now id cert.subjectInfo.subjectType).2 ∨
      contains (cache.lookup now id cert.subjectInfo.subjectType).1 cert = .ok false ∧
        ∃ expiry hid, cache' = (cache.lookup now id cert.subjectInfo.subjectType).2.add id cert
            expiry hid) := by
  unfold insert at h
  split at h
  · cases h
  next id hid =>
  refine ⟨id, hid, ?_⟩
  obtain ⟨known, hkn, h⟩ := bind_eq_ok_iff.1 h
  cases known with
  | true =>
    cases h
    exact .inl rfl
  | false =>
    rw [if_neg (by decide)] at h
    split at h
    · cases h
      exact .inr ⟨hkn, _, hid, rfl⟩
    · cases h
      exact .inl rfl

theorem Trusted.insert (h : cache.Trusted store) (hcert : store.Trusts cert)
  (hins : cache.insert now cert = .ok cache') : cache'.Trusted store := by
  obtain ⟨id, -, rfl | ⟨-, expiry, hid, rfl⟩⟩ := insert_cases hins
  · exact h.lookup
  intro entry hm
  obtain hm | hm := mem_append.1 hm
  · exact h.lookup entry hm
  · rw [mem_singleton.1 hm]
    exact hcert

theorem findBinary_iff {binary : ByteBuffer} {known : Bool}
  (h : findBinary binary certs = .ok known) :
  known = true ↔ ∃ cert ∈ certs, cert.convertForSigning = .ok binary := by
  induction certs with
  | nil =>
    cases h
    simp
  | cons first certs ih =>
    rw [findBinary] at h
    obtain ⟨binaryFound, hf, h⟩ := bind_eq_ok_iff.1 h
    split at h
    · next heq =>
      cases h
      simp [hf, heq]
    next hne =>
    have hfst : first.convertForSigning ≠ .ok binary := fun hs =>
      hne (Except.ok.inj (hs.symm.trans hf))
    simp [ih h, hfst]

theorem insert_found (hm : cert ∈ (cache.lookup now id type).1)
  (h : cache.insert now cert = .ok cache') :
  cache' = (cache.lookup now id type).2 := by
  obtain ⟨entry, hent, hcert, hid, ht⟩ := mem_lookup hm
  have hfil := cache.filed entry hent
  obtain ⟨id', hid', hcas⟩ := insert_cases h
  rw [hcert, hid', hid] at hfil
  cases hfil
  rw [ht] at hcas
  obtain rfl | ⟨hc, -⟩ := hcas
  · rfl
  unfold contains at hc
  split at hc
  · next hemp =>
    rw [isEmpty_iff.1 hemp] at hm
    cases hm
  · obtain ⟨binary, hb, hf⟩ := bind_eq_ok_iff.1 hc
    cases (findBinary_iff hf).2 ⟨_, hm, hb⟩

end CertificateCache

namespace DefaultCertificateValidator

variable {validator : DefaultCertificateValidator backend}
  {cache cache' : CertificateCache backend} {now : Int} {cert : Certificate}

theorem checkSignedBy_valid {signerHash : HashedId8}
  (h : validator.checkSignedBy now cache cert signerHash
    cert.signature.someEcdsa = .ok (none, cache')) :
  ∃ signer ∈ (validator.possibleSigners now cache cert.subjectInfo.subjectType signerHash).1,
    cert.IssuedBy backend signer := by
  obtain ⟨binaryCert, hb, h⟩ := bind_eq_ok_iff.1 h
  obtain ⟨verdict, hv, h⟩ := bind_eq_ok_iff.1 h
  have hn := (Prod.mk.inj (Except.ok.inj h)).1
  cases verdict with
  | none => cases hn
  | some validity =>
    cases hn
    exact trySigners_valid hb hv

theorem trusts_of_checkCertificate (hcc : cache.Trusted validator.trustStore)
  (h : validator.checkCertificate now cache cert = .ok (none, cache')) :
  validator.trustStore.Trusts cert := by
  unfold checkCertificate at h
  split at h
  · cases h
  split at h
  · next signerHash hs =>
    obtain ⟨signer, hm, hiss⟩ := checkSignedBy_valid h
    unfold possibleSigners at hm
    split at hm
    · next hty =>
      obtain ⟨entry, hent, rfl, -, ha⟩ := mem_lookup hm
      refine .inr ⟨hty, entry.certificate, ?_, hiss⟩
      obtain ht | ht := hcc entry hent
      · exact ht
      · rw [ht.1] at ha
        exact absurd ha (by decide)
    · split at hm
      · next hty =>
        obtain ⟨entry, hent, rfl⟩ := mem_map.1 hm
        exact .inl ⟨hty, entry.2, ⟨entry.1, mem_of_mem_filter hent⟩, hiss⟩
      · cases hm
  · cases h

theorem checkCertificate_cache
  (h : validator.checkCertificate now cache cert = .ok (validity, cache')) :
  cache' = cache ∨ ∃ id type, cache' = (cache.lookup now id type).2 := by
  unfold checkCertificate at h
  split at h
  · cases h
    exact .inl rfl
  split at h
  · next signerHash hs =>
    obtain ⟨binaryCert, hb, h⟩ := bind_eq_ok_iff.1 h
    obtain ⟨verdict, hv, h⟩ := bind_eq_ok_iff.1 h
    cases h
    unfold possibleSigners
    split
    · exact .inr ⟨_, _, rfl⟩
    · split <;> exact .inl rfl
  · cases h
    exact .inl rfl

inductive Changes (validator : DefaultCertificateValidator backend) (now : Int)
  (cache : CertificateCache backend) : CertificateCache backend → Prop where
  | refl : Changes validator now cache cache
  | lookup {cache' : CertificateCache backend} (id : HashedId8)
      (type : SubjectType) (h : Changes validator now cache cache') :
      Changes validator now cache (cache'.lookup now id type).2
  | place {cert : Certificate} {cache₁ cache₂ cache₃ : CertificateCache backend}
      (h : Changes validator now cache cache₁)
      (hvalid : validator.checkCertificate now cache₁ cert = .ok (none, cache₂))
      (hinsert : cache₂.insert now cert = .ok cache₃) :
      Changes validator now cache cache₃

namespace Changes

theorem check {cache₁ cache₂ : CertificateCache backend} (h : validator.Changes now cache cache₁)
  (hc : validator.checkCertificate now cache₁ cert =
    .ok (validity, cache₂)) : validator.Changes now cache cache₂ := by
  obtain rfl | ⟨id, type, rfl⟩ := checkCertificate_cache hc
  · exact h
  · exact h.lookup id type

theorem trusted (h : validator.Changes now cache cache')
  (hcc : cache.Trusted validator.trustStore) :
  cache'.Trusted validator.trustStore := by
  induction h with
  | refl => exact hcc
  | lookup id type _ ih => exact ih.lookup
  | place _ hval hins ih =>
    have hcert := trusts_of_checkCertificate ih hval
    refine CertificateCache.Trusted.insert ?_ hcert hins
    obtain rfl | ⟨id, type, rfl⟩ := checkCertificate_cache hval
    · exact ih
    · exact ih.lookup

end Changes

end DefaultCertificateValidator

inductive Context.Interrupted (ctx : Context backend) (itsAid : ItsAid)
  (chain : List Certificate) (cache : CertificateCache backend) :
  CertificateCache backend → Prop where
  | admitted {front : List Certificate} {cache' : CertificateCache backend}
      (hfront : front <+: chain)
      (h : ctx.admitAuthorities itsAid front cache = .ok (none, cache')) :
      Interrupted ctx itsAid chain cache cache'
  | lookup {cache' : CertificateCache backend} (id : HashedId8)
      (type : SubjectType) (h : Interrupted ctx itsAid chain cache cache') :
      Interrupted ctx itsAid chain cache (cache'.lookup ctx.now id type).2

structure Certificate.HasSigned (backend : Backend) (now : Int)
  (message : SecuredMessage) (ticket : Certificate) : Prop where
  accepted : ∃ payload key ecdsa, message.convertForSigning message.trailerFields = .ok payload ∧
    ticket.getPublicKey backend = .ok (some key) ∧
    message.ecdsaSignature = .ok ecdsa ∧
    backend.verifyData key payload ecdsa = true
  inTime : ∃ time, extractValidityTime ticket = some time ∧ time.startValidity ≤ convertTime32 now ∧
    convertTime32 now ≤ time.endValidity
  permitted : ∃ id, message.itsAid = some id ∧ ∃ list, ticket.itsAidSspList = some list ∧
    ∃ ssp ∈ list, ssp.itsAid = id.toUInt32.toUInt64

theorem extractValidityTimeFrom_some {restrs : List ValidityRestriction}
  {found : StartAndEndValidity} (h : extractValidityTimeFrom (some found) restrs = some time) :
  time = found := by
  induction restrs with
  | nil => exact (some.inj h).symm
  | cons restr restrs ih =>
    cases restr with
    | timeStartAndEnd validity =>
      rw [extractValidityTimeFrom, if_pos (isSome_some)] at h
      cases h
    | timeEnd validity | timeStartAndDuration validity => cases h
    | region area => exact ih h

theorem timeStartAndEnd_of_extractValidityTime (h : extractValidityTime cert = some time) :
  cert.timeStartAndEnd = some time := by
  unfold extractValidityTime at h
  unfold Certificate.timeStartAndEnd Certificate.getRestriction
  generalize cert.validityRestriction = restrs at h
  induction restrs with
  | nil => cases h
  | cons restr restrs ih =>
    cases restr with
    | timeStartAndEnd validity =>
      rw [extractValidityTimeFrom, if_neg (by decide)] at h
      split at h
      · cases h
      · rw [extractValidityTimeFrom_some h]
        rfl
    | timeEnd validity | timeStartAndDuration validity => cases h
    | region area =>
      rw [find?_cons_of_neg (by simp [ValidityRestriction.getType])]
      exact ih h

namespace Context

variable {ctx : Context backend} {cache cache' : CertificateCache backend}
  {itsAid : ItsAid} {message : SecuredMessage} {calls : List PolicyCall}

variable {before : CertificateCache backend} {confirm : VerifyConfirm}
  {chain : List Certificate} {ticket : Certificate}

theorem admitAuthorities_changes {verdict : Option VerifyConfirm}
  (hb : ctx.certValidator.Changes ctx.now before cache)
  (h : ctx.admitAuthorities itsAid chain cache = .ok (verdict, cache')) :
  ctx.certValidator.Changes ctx.now before cache' := by
  induction chain generalizing cache with
  | nil =>
    cases h
    exact hb
  | cons cert chain ih =>
    rw [admitAuthorities] at h
    split at h
    · obtain ⟨⟨validity, cache₁⟩, hchk, h⟩ := bind_eq_ok_iff.1 h
      have hc := hb.check hchk
      cases validity with
      | some reason =>
        cases h
        exact hc
      | none =>
        dsimp only [isSome] at h
        rw [if_neg Bool.false_ne_true] at h
        split at h
        · cases h
          exact hc
        · obtain ⟨cache₂, hins, h⟩ := bind_eq_ok_iff.1 h
          exact ih (hb.place hchk hins) h
    · exact ih hb h

theorem admitAuthorities_not_success
  (h : ctx.admitAuthorities itsAid chain cache = .ok (some confirm, cache')) :
  confirm.report ≠ .success := by
  induction chain generalizing cache with
  | nil => cases h
  | cons cert chain ih =>
    rw [admitAuthorities] at h
    split at h
    · obtain ⟨⟨validity, cache₁⟩, -, h⟩ := bind_eq_ok_iff.1 h
      split at h
      · cases h
        rintro ⟨⟩
      split at h
      · cases h
        rintro ⟨⟩
      · obtain ⟨cache₂, -, h⟩ := bind_eq_ok_iff.1 h
        exact ih h
    · exact ih h

theorem Interrupted.changes (h : ctx.Interrupted itsAid chain cache cache') :
  ctx.certValidator.Changes ctx.now cache cache' := by
  induction h with
  | admitted _ h => exact admitAuthorities_changes .refl h
  | lookup id type _ ih => exact ih.lookup id type

theorem collectCandidates_changes {info : Option SignerInfo} {result : VerifyConfirm ⊕ Candidates}
  (h : ctx.collectCandidates itsAid cache info = .ok (result, cache', calls)) :
  ctx.certValidator.Changes ctx.now cache cache' ∧
    (∀ confirm, result = .inl confirm → confirm.report ≠ .success) ∧
    ∀ candidates, result = .inr candidates → candidates.fromCache = true →
      ∃ id, ∀ cert ∈ candidates.certificates,
        cert ∈ (cache'.lookup ctx.now id .authorizationTicket).1 := by
  unfold collectCandidates at h
  split at h
  · cases h
    refine ⟨.refl, by rintro _ ⟨⟩, ?_⟩
    rintro _ ⟨⟩ ⟨⟩
  · obtain ⟨signerHash, -, h⟩ := bind_eq_ok_iff.1 h
    dsimp only at h
    split at h
    · cases h
      refine ⟨.lookup _ _ .refl, by rintro _ ⟨⟩, ?_⟩
      rintro _ ⟨⟩ ⟨⟩
    · cases h
      refine ⟨.refl, by rintro _ ⟨⟩, ?_⟩
      rintro _ ⟨⟩ ⟨⟩
  · next signerHash =>
    cases h
    refine ⟨.lookup _ _ .refl, by rintro _ ⟨⟩, ?_⟩
    rintro _ ⟨⟩ -
    refine ⟨signerHash, fun cert hcert => ?_⟩
    rwa [lookup_lookup]
  · next chain =>
    split at h
    · cases h
      exact ⟨.refl, by rintro _ ⟨⟩ ⟨⟩, by rintro _ ⟨⟩⟩
    split at h
    · cases h
      exact ⟨.refl, by rintro _ ⟨⟩ ⟨⟩, by rintro _ ⟨⟩⟩
    obtain ⟨⟨verdict, cache₁⟩, ha, h⟩ := bind_eq_ok_iff.1 h
    have hc := admitAuthorities_changes .refl ha
    cases verdict with
    | some confirm =>
      cases h
      refine ⟨hc, ?_, by rintro _ ⟨⟩⟩
      rintro _ ⟨⟩
      exact admitAuthorities_not_success ha
    | none =>
      obtain ⟨signerHash, -, h⟩ := bind_eq_ok_iff.1 h
      cases h
      refine ⟨hc, by rintro _ ⟨⟩, ?_⟩
      rintro _ ⟨⟩ ⟨⟩
  · cases h
    exact ⟨.refl, by rintro _ ⟨⟩ ⟨⟩, by rintro _ ⟨⟩⟩

theorem confirmSigner_changes (hb : ctx.certValidator.Changes ctx.now before cache)
  (hinsert : validity = none → ∀ cache', cache.insert ctx.now signer = .ok cache' →
      ctx.certValidator.Changes ctx.now before cache')
  (h : ctx.confirmSigner itsAid signer validity cache = .ok (confirm, cache', calls)) :
  ctx.certValidator.Changes ctx.now before cache' ∧ (confirm.report = .success → validity = none ∧
      checkCertificateTime signer ctx.now = true ∧ (assignPermissions signer itsAid).isSome) := by
  unfold confirmSigner at h
  split at h
  · split at h
    · cases h
      exact ⟨hb, nofun⟩
    · cases h
      exact ⟨hb, nofun⟩
  · split at h
    · cases h
      exact ⟨hb, nofun⟩
    · next ht =>
      split at h
      · cases h
        exact ⟨hb, nofun⟩
      split at h
      · cases h
        exact ⟨hb, nofun⟩
      next permissions hp =>
      obtain ⟨cache₁, hins, h⟩ := bind_eq_ok_iff.1 h
      cases h
      refine ⟨hinsert rfl _ hins, fun _ => ⟨rfl, ?_, ?_⟩⟩
      · simpa using ht
      · rw [hp]
        rfl

theorem checkSigner_changes {fromCache : Bool} (hb : ctx.certValidator.Changes ctx.now before cache)
  (hcc : cache.Trusted ctx.certValidator.trustStore)
  (hf : fromCache = true → ∃ id, signer ∈ (cache.lookup ctx.now id .authorizationTicket).1)
  (h : ctx.checkSigner itsAid message fromCache signer cache = .ok (confirm, cache', calls)) :
  ctx.certValidator.Changes ctx.now before cache' ∧ (confirm.report = .success →
      ctx.certValidator.trustStore.Trusts signer ∧ checkCertificateTime signer ctx.now = true ∧
      (assignPermissions signer itsAid).isSome) := by
  unfold checkSigner at h
  split at h
  · cases h
    exact ⟨hb, nofun⟩
  split at h
  · next hfr =>
    obtain ⟨id, hm⟩ := hf hfr
    obtain ⟨entry, hent, rfl, -⟩ := mem_lookup hm
    obtain ⟨hc, hs⟩ := confirmSigner_changes hb (fun _ cache' hins => by
        rw [insert_found hm hins]
        exact hb.lookup _ _) h
    exact ⟨hc, fun hr =>
      ⟨hcc entry hent, (hs hr).2⟩⟩
  · obtain ⟨⟨validity, cache₁⟩, hchk, h⟩ := bind_eq_ok_iff.1 h
    obtain ⟨hc, hs⟩ := confirmSigner_changes (hb.check hchk) (fun hv cache' hins => by
        cases hv
        exact hb.place hchk hins) h
    refine ⟨hc, fun hr => ⟨?_, (hs hr).2⟩⟩
    cases (hs hr).1
    exact DefaultCertificateValidator.trusts_of_checkCertificate hcc hchk

theorem searchSigner_accepts {pay : ByteBuffer} {ecdsa : EcdsaSignature}
  (h : searchSigner backend pay ecdsa certs = .ok (.found signer)) :
  signer ∈ certs ∧ signer.subjectInfo.subjectType = .authorizationTicket ∧
    ∃ key, signer.getPublicKey backend = .ok (some key) ∧
      backend.verifyData key pay ecdsa = true := by
  induction certs with
  | nil => cases h
  | cons cert certs ih =>
    rw [searchSigner] at h
    split at h
    · cases h
    next ht =>
    obtain ⟨found, hk, h⟩ := bind_eq_ok_iff.1 h
    cases found with
    | none => cases h
    | some key =>
      dsimp only at h
      split at h
      · next hv =>
        cases h
        exact ⟨mem_cons_self, not_not.1 ht, key, hk, hv⟩
      · obtain ⟨hm, hr⟩ := ih h
        exact ⟨mem_cons_of_mem cert hm, hr⟩

theorem ecdsaSignature_ne_success : message.ecdsaSignature ≠ .error .success := by
  unfold SecuredMessage.ecdsaSignature
  split
  · exact nofun
  split
  · exact nofun
  · split
    · exact nofun
    · split <;> exact nofun

theorem inTime_of_trusts {store : TrustStore backend} {now : Int}
  (htr : store.TrustsTicket ticket) (h : checkCertificateTime ticket now = true) :
  ∃ time, extractValidityTime ticket = some time ∧ time.startValidity ≤ convertTime32 now ∧
    convertTime32 now ≤ time.endValidity := by
  obtain ⟨-, auth, -, -, time, signerTime, ht, -⟩ := htr
  rw [checkCertificateTime, timeStartAndEnd_of_extractValidityTime ht] at h
  dsimp only at h
  split at h
  · cases h
  · next hin =>
    rw [not_or] at hin
    exact ⟨time, ht, UInt32.not_lt.1 hin.1, UInt32.not_lt.1 hin.2⟩

theorem permitted_of_assignPermissions (h : (assignPermissions ticket id.toUInt32).isSome) :
  ∃ list, ticket.itsAidSspList = some list ∧ ∃ ssp ∈ list, ssp.itsAid = id.toUInt32.toUInt64 := by
  rw [assignPermissions, isSome_map, find?_isSome] at h
  obtain ⟨ssp, hm, hs⟩ := h
  cases hl : ticket.itsAidSspList with
  | none =>
    rw [hl] at hm
    cases hm
  | some list =>
    rw [hl] at hm
    exact ⟨list, rfl, ssp, hm, of_decide_eq_true hs⟩

theorem checkCandidates_changes {candidates : Candidates} (hid : message.itsAid = some id)
  (hb : ctx.certValidator.Changes ctx.now before cache)
  (hcc : cache.Trusted ctx.certValidator.trustStore)
  (hf : candidates.fromCache = true → ∃ id, ∀ cert ∈ candidates.certificates,
      cert ∈ (cache.lookup ctx.now id .authorizationTicket).1)
  (h : ctx.checkCandidates id.toUInt32 message candidates cache = .ok (confirm, cache', calls)) :
  ctx.certValidator.Changes ctx.now before cache' ∧ (confirm.report = .success → ∃ ticket,
      ctx.certValidator.trustStore.TrustsTicket ticket ∧
      ticket.HasSigned backend ctx.now message) := by
  unfold checkCandidates at h
  split at h
  · cases h
    exact ⟨hb, nofun⟩
  split at h
  · cases h
    exact ⟨hb, nofun⟩
  split at h
  · next report hr =>
    cases h
    refine ⟨hb, ?_⟩
    rintro ⟨⟩
    exact absurd hr ecdsaSignature_ne_success
  · next ecdsa hecd =>
    obtain ⟨pay, hp, h⟩ := bind_eq_ok_iff.1 h
    obtain ⟨search, hs, h⟩ := bind_eq_ok_iff.1 h
    cases search with
    | invalid reason =>
      cases h
      exact ⟨hb, nofun⟩
    | notFound =>
      cases h
      refine ⟨hb, ?_⟩
      dsimp only
      split <;> exact nofun
    | found signer =>
      obtain ⟨hm, ht, key, hk, hv⟩ := searchSigner_accepts hs
      obtain ⟨hc, hsuc⟩ := checkSigner_changes hb hcc
        (fun hfr => (hf hfr).imp fun _ ha => ha signer hm) h
      refine ⟨hc, fun hr => ?_⟩
      obtain ⟨htr, hti, hper⟩ := hsuc hr
      have htic : ctx.certValidator.trustStore.TrustsTicket signer := by
        obtain haut | htic := htr
        · rw [haut.1] at ht
          exact absurd ht (by decide)
        · exact htic
      exact ⟨signer, htic, ⟨pay, key, ecdsa, hp, hk, hecd, hv⟩,
        inTime_of_trusts htic hti, id, hid, permitted_of_assignPermissions hper⟩

theorem verify_changes (hcc : cache.Trusted ctx.certValidator.trustStore)
  (h : ctx.verify cache message = .ok (confirm, cache', calls)) :
  ctx.certValidator.Changes ctx.now cache cache' ∧ (confirm.report = .success → ∃ ticket,
      ctx.certValidator.trustStore.TrustsTicket ticket ∧
      ticket.HasSigned backend ctx.now message) := by
  obtain ⟨reqs, -, h⟩ := bind_eq_ok_iff.1 h
  cases hid : message.itsAid with
  | none =>
    rw [hid] at h
    cases h
    exact ⟨.refl, nofun⟩
  | some id =>
    rw [hid] at h
    obtain ⟨⟨result, cache₁, calls₁⟩, hcol, h⟩ := bind_eq_ok_iff.1 h
    obtain ⟨hc, hea, hf⟩ := collectCandidates_changes hcol
    cases result with
    | inl early =>
      cases h
      exact ⟨hc, fun hr => absurd hr (hea _ rfl)⟩
    | inr candidates =>
      obtain ⟨⟨answer, cache₂, calls₂⟩, ha, h⟩ := bind_eq_ok_iff.1 h
      cases h
      exact checkCandidates_changes hid hc (hc.trusted hcc) (hf candidates rfl) ha

end Context

structure VerifyEvent where
  now : Int
  positionFix : Option PositionFix
  message : SecuredMessage

def SecuredMessage.chain (message : SecuredMessage) : List Certificate :=
  match message.signerInfo with
  | some (.certificateChain chain) => chain
  | _ => []

namespace StraightVerifyService

def atEvent (service : StraightVerifyService backend) (event : VerifyEvent) :
  StraightVerifyService backend :=
  { service with positionFix := event.positionFix }

inductive Step (service : StraightVerifyService backend)
  (s : VerifyState backend) (event : VerifyEvent) :
  Option VerifyConfirm → VerifyState backend → Prop where
  | returns {confirm : VerifyConfirm} {s' : VerifyState backend}
      (h : (service.atEvent event).verify event.now s event.message = .ok (confirm, s')) :
      Step service s event (some confirm) s'
  | throws {e : Exception} {ctx : Context backend} {itsAid : ItsAid}
      {cache cache' : CertificateCache backend} {calls : List PolicyCall}
      (h : (service.atEvent event).verify event.now s event.message = .error e)
      (hcontext : (service.atEvent event).context event.now s = some (ctx, cache))
      (hcache : ctx.Interrupted itsAid event.message.chain cache cache') :
      Step service s event none ⟨some cache', calls⟩

inductive Reachable (service : StraightVerifyService backend) : VerifyState backend → Prop where
  | start : Reachable service ⟨some .empty, []⟩
  | step {s s' : VerifyState backend} {event : VerifyEvent}
      {outcome : Option VerifyConfirm} (h : Reachable service s)
      (hstep : service.Step s event outcome s') : Reachable service s'

variable {service : StraightVerifyService backend} {validator : DefaultCertificateValidator backend}
  {s s' : VerifyState backend} {event : VerifyEvent} {outcome : Option VerifyConfirm}

variable {cache : CertificateCache backend}

theorem context_eq_some {now : Int} {ctx : Context backend}
  (h : service.context now s = some (ctx, cache)) :
  service.certValidator = some ctx.certValidator ∧ ctx.now = now ∧ s.certCache = some cache := by
  obtain ⟨provider, -, h⟩ := bind_eq_some_iff.1 h
  obtain ⟨validator, hv, h⟩ := bind_eq_some_iff.1 h
  obtain ⟨pos, -, h⟩ := bind_eq_some_iff.1 h
  obtain ⟨certCache, hcc, h⟩ := bind_eq_some_iff.1 h
  split at h
  · cases h
    exact ⟨hv, rfl, hcc⟩
  · cases h

theorem step_changes (hv : service.certValidator = some validator)
  (hcc : s.certCache = some cache) (ht : cache.Trusted validator.trustStore)
  (hstep : service.Step s event outcome s') :
  ∃ cache', s'.certCache = some cache' ∧ validator.Changes event.now cache cache' ∧
    ∀ confirm, outcome = some confirm → confirm.report = .success →
      ∃ ticket, validator.trustStore.TrustsTicket ticket ∧
        ticket.HasSigned backend event.now event.message := by
  cases hstep with
  | returns h =>
    unfold verify at h
    split at h
    · cases h
      refine ⟨cache, hcc, .refl, ?_⟩
      rintro _ ⟨⟩ ⟨⟩
    split at h
    · cases h
      refine ⟨cache, hcc, .refl, ?_⟩
      rintro _ ⟨⟩ ⟨⟩
    next ctx cache₁ hctx =>
    obtain ⟨hv', hn, hcc'⟩ := context_eq_some hctx
    cases hv.symm.trans hv'
    cases hcc.symm.trans hcc'
    obtain ⟨⟨answer, cache', calls⟩, ha, h⟩ := bind_eq_ok_iff.1 h
    cases h
    obtain ⟨hc, hs⟩ := Context.verify_changes ht ha
    rw [hn] at hc hs
    refine ⟨cache', rfl, hc, ?_⟩
    rintro _ ⟨⟩ hr
    exact hs hr
  | throws h hctx hint =>
    obtain ⟨hv', hn, hcc'⟩ := context_eq_some hctx
    cases hv.symm.trans hv'
    cases hcc.symm.trans hcc'
    have hc := hint.changes
    rw [hn] at hc
    exact ⟨_, rfl, hc, nofun⟩

theorem Reachable.trusted (h : service.Reachable s) (hv : service.certValidator = some validator) :
  ∃ cache, s.certCache = some cache ∧ cache.Trusted validator.trustStore := by
  induction h with
  | start => exact ⟨.empty, rfl, nofun⟩
  | step _ hstep ih =>
    obtain ⟨cache, hcc, ht⟩ := ih
    obtain ⟨cache', hcc', hc, -⟩ := step_changes hv hcc ht hstep
    exact ⟨cache', hcc', hc.trusted ht⟩

/-- In every run, certificates enter the cache only after they have been found valid, and a message
is verified only if it was signed with a ticket that goes back to a root over an authority and that
may use the application, if its identifier has no more than 32 bits. -/
theorem success_goes_back_to_root (h : service.Reachable s)
  (hvalidator : service.certValidator = some validator) (hstep : service.Step s event outcome s') :
  (∃ cache cache', s.certCache = some cache ∧ s'.certCache = some cache' ∧
    validator.Changes event.now cache cache') ∧
  ∀ confirm, outcome = some confirm → confirm.report = .success →
    ∃ ticket authority root : Certificate, ticket.subjectInfo.subjectType = .authorizationTicket ∧
      authority.subjectInfo.subjectType = .authorizationAuthority ∧
      validator.trustStore.Holds root ∧ ticket.HasSigned backend event.now event.message ∧
      ticket.SignedBy backend authority ∧ ticket.NestedIn authority ∧
      authority.SignedBy backend root ∧ authority.NestedIn root ∧
      ∀ id, event.message.itsAid = some id → id.toNat < 2 ^ 32 →
        ∃ list, ticket.itsAidSspList = some list ∧ ∃ ssp ∈ list, ssp.itsAid = id := by
  obtain ⟨cache, hcc, ht⟩ := h.trusted hvalidator
  obtain ⟨cache', hcc', hc, hsuc⟩ := step_changes hvalidator hcc ht hstep
  refine ⟨⟨cache, cache', hcc, hcc', hc⟩, ?_⟩
  intro confirm ho hrep
  obtain ⟨ticket, ⟨htic, authority, ⟨ha, root, hr, hi'⟩, hiss⟩, hs⟩ := hsuc confirm ho hrep
  refine ⟨ticket, authority, root, htic, ha, hr, hs, hiss.1, hiss.2, hi'.1, hi'.2, ?_⟩
  intro id hid hsmall
  obtain ⟨id', hid', list, hl, ssp, hm, hssp⟩ := hs.permitted
  cases hid.symm.trans hid'
  refine ⟨list, hl, ssp, hm, hssp.trans ?_⟩
  apply UInt64.toNat_inj.1
  rw [UInt32.toNat_toUInt64, UInt64.toNat_toUInt32, Nat.mod_eq_of_lt hsmall]

end StraightVerifyService

def wideItsAid : IntX := 2 ^ 32 + 36

def Backend.narrow : Backend where
  decompressPoint _ := some (.replicate 32 0, .replicate 32 0)
  verifyData _ data _ := decide (5 ≤ data.getD 1 0) || !decide (wideItsAid.serialize <:+: data)
  sha256 _ := .replicate 32 0

def camCertificate (signerInfo : SignerInfo) (type : SubjectType)
  (permissions : SubjectAttribute) : Certificate where
  signerInfo := signerInfo
  subjectInfo := ⟨type, []⟩
  subjectAttributes :=
    [.verificationKey (.ecdsaNistp256WithSha256 (.xCoordinateOnly (.replicate 32 0))),
      .assuranceLevel ⟨0⟩, permissions]
  validityRestriction := [.timeStartAndEnd ⟨0, 2000⟩]
  signature := bareTicket.signature

def camRoot : Certificate := camCertificate .self .rootCa (.itsAidList [36])

def camChain : List Certificate :=
  let signerInfo := .certificateDigestWithSha256 (.replicate 8 0)
  [camCertificate signerInfo .authorizationAuthority (.itsAidList [36]),
    camCertificate signerInfo .authorizationTicket (.itsAidSspList [⟨36, []⟩])]

def camService : StraightVerifyService .narrow where
  certProvider := bareService.certProvider
  certValidator := some
    { trustStore :=
        { certificates := [(.replicate 8 0, camRoot)]
          rooted := by
            intro entry hmem
            obtain rfl := List.mem_singleton.1 hmem
            exact ⟨rfl, rfl⟩ }
      distance := fun _ _ => 0 }
  hasSignPolicy := true
  positionFix := none

def camEvent (id : IntX) : VerifyEvent where
  now := 1000000000
  positionFix := some ⟨⟨0, 0⟩, true⟩
  message :=
    { headerFields := [.signerInfo (.certificateChain camChain),
        .generationTime 1000000000,
        .generationLocation ⟨0, 0, .replicate 2 0⟩, .itsAid id]
      trailerFields := [⟨bareTicket.signature⟩]
      payload := ⟨.signed, .chunk .empty⟩ }

def camReport (id : IntX) : Option VerificationReport :=
  match (camService.atEvent (camEvent id)).verify (camEvent id).now
      ⟨some .empty, []⟩ (camEvent id).message with
  | .ok (confirm, _) => some confirm.report
  | .error _ => none

theorem step_camEvent (h : camReport id = some .success) :
  ∃ confirm s', camService.Step ⟨some .empty, []⟩ (camEvent id)
    (some confirm) s' ∧ confirm.report = .success := by
  unfold camReport at h
  split at h
  · next confirm s' hv =>
    exact ⟨confirm, s', .returns hv, some.inj h⟩
  · cases h

theorem camReport_narrow : camReport 36 = some .success := by decide +kernel

theorem camReport_wide : camReport wideItsAid = some .success := by decide +kernel

theorem Certificate.itsAid_infix {list : List ItsAidSsp} {ssp : ItsAidSsp}
  (h : cert.convertForSigning = .ok data)
  (hl : cert.itsAidSspList = some list) (hssp : ssp ∈ list) :
  ssp.itsAid.serialize <:+: data := by
  obtain ⟨sb, -, h⟩ := bind_eq_ok_iff.1 h
  obtain ⟨ab, ha, h⟩ := bind_eq_ok_iff.1 h
  cases h
  obtain ⟨parts, hpar, ha⟩ := bind_eq_ok_iff.1 ha
  cases ha
  have hm : .itsAidSspList list ∈ cert.subjectAttributes := by
    unfold itsAidSspList at hl
    split at hl
    · next found hf =>
      cases hl
      exact mem_of_find?_eq_some hf
    · cases hl
  obtain ⟨part, hp, hs⟩ := exists_of_mapM hpar hm
  cases hs
  have hinf : ssp.itsAid.serialize <:+: list.flatMap ItsAidSsp.serialize := by
    refine List.IsInfix.trans ?_ (infix_of_mem_flatten (mem_map_of_mem hssp))
    rw [ItsAidSsp.serialize, append_assoc]
    exact (prefix_append _ _).isInfix
  refine hinf.trans ?_
  refine List.IsInfix.trans ?_ (infix_cons (infix_append _ _ _))
  refine List.IsInfix.trans ?_ (suffix_append _ _).isInfix
  refine List.IsInfix.trans ?_ (infix_of_mem_flatten hp)
  exact infix_cons (suffix_append _ _).isInfix

theorem SignerInfo.serialize_eq_cons {info : SignerInfo} {bytes : ByteBuffer}
  (h : info.serialize = .ok bytes) :
  ∃ rest, bytes = info.getType.code :: rest := by
  cases info with
  | self | certificateDigestWithSha256 _
  | certificateDigestWithOtherAlgorithm _ =>
    rw [serialize] at h
    cases h
    exact ⟨_, rfl⟩
  | certificate _ | certificateChain _ =>
    rw [serialize] at h
    obtain ⟨part, -, h⟩ := bind_eq_ok_iff.1 h
    cases h
    exact ⟨_, rfl⟩

theorem Certificate.getD_convertForSigning (h : cert.convertForSigning = .ok data) :
  data.getD 1 0 < 5 := by
  obtain ⟨sb, hs, h⟩ := bind_eq_ok_iff.1 h
  obtain ⟨ab, -, h⟩ := bind_eq_ok_iff.1 h
  cases h
  obtain ⟨rest, rfl⟩ := SignerInfo.serialize_eq_cons hs
  show cert.signerInfo.getType.code < 5
  cases cert.signerInfo.getType <;> decide

namespace StraightVerifyService

theorem camService_goes_back_to_root : ∃ confirm s',
  camService.Step ⟨some .empty, []⟩ (camEvent 36) (some confirm) s' ∧
  confirm.report = .success ∧ ∃ ticket authority : Certificate,
    ticket.HasSigned .narrow 1000000000 (camEvent 36).message ∧
    ticket.SignedBy .narrow authority ∧ authority.SignedBy .narrow camRoot := by
  obtain ⟨confirm, s', hstep, hrep⟩ := step_camEvent camReport_narrow
  obtain ⟨-, hsuc⟩ := success_goes_back_to_root .start rfl hstep
  obtain ⟨ticket, authority, root, -, -, hr, hs, ht, -, ha, -⟩ := hsuc confirm rfl hrep
  obtain ⟨id, hm⟩ := hr
  cases mem_singleton.1 hm
  exact ⟨confirm, s', hstep, hrep, ticket, authority, hs, ht, ha⟩

theorem success_without_permission : ∃ confirm s', camService.Reachable ⟨some .empty, []⟩ ∧
  camService.Step ⟨some .empty, []⟩ (camEvent wideItsAid) (some confirm) s' ∧
  confirm.report = .success ∧ (camEvent wideItsAid).message.itsAid = some wideItsAid ∧
  ∀ (ticket authority : Certificate) (list : List ItsAidSsp),
    ticket.SignedBy .narrow authority → ticket.itsAidSspList = some list →
      ∀ ssp ∈ list, ssp.itsAid ≠ wideItsAid := by
  obtain ⟨confirm, s', hstep, hr⟩ := step_camEvent camReport_wide
  refine ⟨confirm, s', .start, hstep, hr, rfl, ?_⟩
  intro ticket authority list hs hlist ssp hssp hid
  obtain ⟨binaryCert, key, hb, -, hv⟩ := hs
  have hinf := Certificate.itsAid_infix hb hlist hssp
  rw [hid] at hinf
  have hh := Certificate.getD_convertForSigning hb
  rw [Backend.narrow, Bool.or_eq_true, decide_eq_true_eq, decide_eq_true hinf] at hv
  cases hv with
  | inl h => exact UInt8.not_lt.2 h hh
  | inr h => cases h

end StraightVerifyService

end Vanetza.Security.V2
