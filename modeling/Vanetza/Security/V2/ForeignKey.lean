import Vanetza.Security.V2.StraightVerify

/-!
# When verification throws

Everything a message brings along was read by the deserializers and can be written, and so can what
is in the stores.
-/

namespace Vanetza.Security.V2

open Lib Lib.Decoder Returns DefaultCertificateValidator Reaches Certificate

section Search

variable {backend : Backend} {payload : ByteBuffer} {ecdsa : EcdsaSignature}
  {cert : Certificate} {certs : List Certificate}

def Certificate.Rejects (cert : Certificate) (backend : Backend)
  (payload : ByteBuffer) (ecdsa : EcdsaSignature) : Prop :=
  cert.subjectInfo.subjectType = .authorizationTicket ∧
    ∃ key, cert.getPublicKey backend = .ok (some key) ∧ backend.verifyData key payload ecdsa = false

def Tried (backend : Backend) (payload : ByteBuffer) (ecdsa : EcdsaSignature)
  (certs : List Certificate) (cert : Certificate) : Prop :=
  Reaches (fun c => c.Rejects backend payload ecdsa) (fun c => c = cert ∧
      c.subjectInfo.subjectType = .authorizationTicket) certs

theorem Tried.mem (h : Tried backend payload ecdsa certs cert) : cert ∈ certs := by
  obtain ⟨c, hm, rfl, -⟩ := exists_mem h
  exact hm

theorem Tried.type_of_cons {first : Certificate}
  (h : Tried backend payload ecdsa (first :: certs) cert) :
  first.subjectInfo.subjectType = .authorizationTicket := by
  rcases cons_iff.1 h with ⟨-, ht⟩ | ⟨hr, -⟩
  · exact ht
  · exact hr.1

theorem Certificate.hasForeignKey_of_ok {key : Option Ecdsa256.PublicKey}
  (h : cert.getPublicKey backend = .ok key) : cert.hasForeignKey = false :=
  Certificate.getPublicKey_returns.1 ⟨key, h⟩

theorem Certificate.accepts_of_ok {key : Ecdsa256.PublicKey}
  (h : cert.getPublicKey backend = .ok (some key)) :
  cert.accepts backend payload ecdsa = backend.verifyData key payload ecdsa := by
  rw [accepts, h]

theorem searchSigner_returns : Returns (searchSigner backend payload ecdsa certs) ↔
    ∀ cert, Tried backend payload ecdsa certs cert → cert.hasForeignKey = false := by
  induction certs with
  | nil => exact iff_of_true (pure _) fun _ h => (not_nil h).elim
  | cons first certs ih =>
    rw [searchSigner]
    split
    · next ht =>
      exact iff_of_true (pure _) fun _ h =>
        (ht (Tried.type_of_cons h)).elim
    next ht =>
    rw [not_not] at ht
    constructor
    · rintro hr cert htrd
      obtain ⟨key, hk, hr⟩ := bind_iff.1 hr
      obtain ⟨rfl, -⟩ | ⟨⟨-, key', hk', hv⟩, htrd⟩ := cons_iff.1 htrd
      · exact hasForeignKey_of_ok hk
      obtain rfl : key = some key' := Except.ok.inj (hk.symm.trans hk')
      simp only [hv] at hr
      exact ih.1 hr cert htrd
    · intro h
      obtain ⟨key, hk⟩ := getPublicKey_returns.2 (h first (cons_iff.2 (.inl ⟨rfl, ht⟩)))
      refine bind_iff.2 ⟨key, hk, ?_⟩
      split
      · exact pure _
      next key =>
      split
      · exact pure _
      next hv =>
      refine ih.2 fun cert htrd => h cert ?_
      refine cons_iff.2 (.inr ⟨⟨ht, key, hk, ?_⟩, htrd⟩)
      simpa using hv

theorem searchSigner_found : searchSigner backend payload ecdsa certs = .ok (.found cert) ↔
    Tried backend payload ecdsa certs cert ∧ cert.accepts backend payload ecdsa = true := by
  induction certs with
  | nil => exact iff_of_false (by rintro ⟨⟩) fun h => not_nil h.1
  | cons first certs ih =>
    rw [searchSigner]
    split
    · next ht =>
      exact iff_of_false (by rintro ⟨⟩) fun h =>
        ht (Tried.type_of_cons h.1)
    next ht =>
    rw [not_not] at ht
    rw [bind_eq_ok_iff, Tried, cons_iff]
    constructor
    · rintro ⟨key, hk, hf⟩
      cases key with
      | none => cases hf
      | some key =>
        dsimp only at hf
        split at hf
        · next hv =>
          obtain rfl := SignerSearch.found.inj (Except.ok.inj hf)
          exact ⟨.inl ⟨rfl, ht⟩, (accepts_of_ok hk).trans hv⟩
        next hv =>
        obtain ⟨htrd, ha⟩ := ih.1 hf
        refine ⟨.inr ⟨⟨ht, key, hk, ?_⟩, htrd⟩, ha⟩
        simpa using hv
    · rintro ⟨⟨rfl, -⟩ | ⟨⟨-, key, hk, hv⟩, htrd⟩, ha⟩
      · unfold accepts at ha
        split at ha
        · next key hk =>
          refine ⟨some key, hk, ?_⟩
          simp only [ha, if_true]
          rfl
        · cases ha
      · refine ⟨some key, hk, ?_⟩
        simp only [hv]
        exact ih.2 ⟨htrd, ha⟩

end Search

namespace Context

variable {backend : Backend} {ctx : Context backend} {itsAid : ItsAid}
  {cache cache' : CertificateCache backend} {cert : Certificate}
  {chain : List Certificate} {message : SecuredMessage}

def Admits (ctx : Context backend) (cert : Certificate) : Prop :=
  ctx.certValidator.checkCertificate ctx.now .empty cert = .ok (none, .empty) ∧
    ctx.inForce cert = true

def ForeignAuthority (ctx : Context backend) (chain : List Certificate) : Prop :=
  Reaches (fun cert => cert.subjectInfo.subjectType = .authorizationAuthority → ctx.Admits cert)
    (fun cert => cert.subjectInfo.subjectType = .authorizationAuthority ∧
      ctx.certValidator.ForeignIssuer ctx.now .empty cert) chain

def withAuthority (ctx : Context backend) (cache : CertificateCache backend)
  (cert : Certificate) : CertificateCache backend :=
  if cert.subjectInfo.subjectType = .authorizationAuthority then
    match cache.insert ctx.now cert with
    | .ok cache => cache
    | .error _ => cache
  else cache

theorem admitAuthorities_authority (hcert : cert.Encodable)
  (ht : cert.subjectInfo.subjectType = .authorizationAuthority) :
  (ctx.certValidator.ForeignIssuer ctx.now .empty cert ∧
    ¬ Returns (ctx.admitAuthorities itsAid (cert :: chain) cache)) ∨
  (¬ ctx.certValidator.ForeignIssuer ctx.now .empty cert ∧ ¬ ctx.Admits cert ∧ ∃ confirm,
      ctx.admitAuthorities itsAid (cert :: chain) cache = .ok (some confirm, cache)) ∨
  (¬ ctx.certValidator.ForeignIssuer ctx.now .empty cert ∧ ctx.Admits cert ∧
      ctx.admitAuthorities itsAid (cert :: chain) cache =
        ctx.admitAuthorities itsAid chain (ctx.withAuthority cache cert)) := by
  rw [admitAuthorities, if_pos ht]
  by_cases hfor : ctx.certValidator.ForeignIssuer ctx.now .empty cert
  · refine .inl ⟨hfor, fun hr => ?_⟩
    obtain ⟨checked, hc, -⟩ := bind_iff.1 hr
    exact checkCertificate_returns hcert |>.1 ⟨checked, hc⟩ ((foreignIssuer_authority ht).1 hfor)
  have hc : Returns (ctx.certValidator.checkCertificate ctx.now .empty cert) :=
    (checkCertificate_returns hcert).2 hfor
  obtain ⟨⟨validity, cache'⟩, hc⟩ := hc
  obtain ⟨rfl, hc'⟩ := checkCertificate_authority ht hc cache
  have hins : Returns (cache.insert ctx.now cert) := CertificateCache.insert_returns hcert
  obtain ⟨inserted, hins⟩ := hins
  rw [hc']
  cases validity with
  | some reason =>
    refine .inr (.inl ⟨hfor, fun ha => ?_, _, rfl⟩)
    rw [Admits, hc] at ha
    cases ha.1
  | none =>
    cases hf : ctx.inForce cert with
    | false =>
      refine .inr (.inl ⟨hfor, fun ha => ?_, _, rfl⟩)
      cases hf.symm.trans ha.2
    | true =>
      refine .inr (.inr ⟨hfor, ⟨hc, hf⟩, ?_⟩)
      rw [withAuthority, if_pos ht, hins]
      change (cache.insert ctx.now cert >>=
        fun cache => ctx.admitAuthorities itsAid chain cache) = _
      rw [hins]
      rfl

theorem admitAuthorities_returns (h : ∀ c ∈ chain, c.Encodable) :
  Returns (ctx.admitAuthorities itsAid chain cache) ↔ ¬ ctx.ForeignAuthority chain := by
  unfold ForeignAuthority
  induction chain generalizing cache with
  | nil => exact iff_of_true (pure _) not_nil
  | cons cert chain ih =>
    obtain ⟨hcert, hc⟩ := List.forall_mem_cons.1 h
    rw [cons_iff]
    by_cases ht : cert.subjectInfo.subjectType = .authorizationAuthority
    · obtain ⟨hf, hr⟩ | ⟨hf, ha, confirm, heq⟩ |
        ⟨hf, ha, heq⟩ := @admitAuthorities_authority backend ctx itsAid cache cert chain hcert ht
      · simp [hf, hr, ht]
      · simp [hf, ha, ht, heq]
      · simp [hf, ha, heq, ih hc]
    · rw [admitAuthorities, if_neg ht, ih hc]
      simp [ht]

theorem admitAuthorities_eq_none (h : ∀ c ∈ chain, c.Encodable) :
  ctx.admitAuthorities itsAid chain cache = .ok (none, cache') ↔
    (∀ c ∈ chain, c.subjectInfo.subjectType = .authorizationAuthority →
      ctx.Admits c) ∧ cache' = chain.foldl ctx.withAuthority cache := by
  induction chain generalizing cache with
  | nil =>
    constructor
    · rintro ⟨⟩
      exact ⟨by simp, rfl⟩
    · rintro ⟨-, rfl⟩
      rfl
  | cons cert chain ih =>
    obtain ⟨hcert, hc⟩ := List.forall_mem_cons.1 h
    rw [List.forall_mem_cons, List.foldl_cons]
    by_cases ht : cert.subjectInfo.subjectType = .authorizationAuthority
    · obtain ⟨hf, hr⟩ | ⟨-, ha, confirm, heq⟩ |
        ⟨-, ha, heq⟩ := @admitAuthorities_authority backend ctx itsAid cache cert chain hcert ht
      · refine iff_of_false (fun heq => hr ⟨_, heq⟩) fun hall => ?_
        exact checkCertificate_returns hcert |>.1 ⟨_, (hall.1.1 ht).1⟩ hf
      · simp [heq, ht, ha]
      · simp [heq, ha, ih hc]
    · rw [admitAuthorities, if_neg ht, ih hc, withAuthority, if_neg ht]
      simp [ht]

def ForeignSigner (ctx : Context backend) (message : SecuredMessage)
  (fromCache : Bool) (certs : List Certificate) (cache : CertificateCache backend) : Prop :=
  checkGenerationTime message ctx.now = true ∧
  ∃ ecdsa payload, message.ecdsaSignature = .ok ecdsa ∧
    message.convertForSigning message.trailerFields = .ok payload ∧
    ∃ cert, Tried backend payload ecdsa certs cert ∧ (cert.hasForeignKey = true ∨
        cert.accepts backend payload ecdsa = true ∧
        checkGenerationLocation ctx.certValidator.distance message cert = true ∧
        fromCache = false ∧
        ctx.certValidator.ForeignIssuer ctx.now cache cert)

theorem confirmSigner_returns {certValidity : CertificateValidity} (hcert : cert.Encodable) :
  Returns (ctx.confirmSigner itsAid cert certValidity cache) := by
  unfold confirmSigner
  split
  · split <;> exact pure _
  split
  · exact pure _
  split
  · exact pure _
  · split
    · exact pure _
    · exact (bind_iff_left fun _ => pure _).2 (CertificateCache.insert_returns hcert)

theorem checkSigner_returns {fromCache : Bool} (hcert : cert.Encodable) :
  Returns (ctx.checkSigner itsAid message fromCache cert cache) ↔
    ¬ (checkGenerationLocation ctx.certValidator.distance message cert =
        true ∧ fromCache = false ∧ ctx.certValidator.ForeignIssuer ctx.now cache cert) := by
  unfold checkSigner
  split
  · next hl =>
    refine iff_of_true (pure _) fun h => ?_
    simp [h.1] at hl
  next hl =>
  split
  · next hcc =>
    refine iff_of_true (confirmSigner_returns hcert) fun h => ?_
    cases hcc.symm.trans h.2.1
  next hcc =>
  refine (bind_iff_left fun _ =>
    confirmSigner_returns hcert).trans ?_
  refine (checkCertificate_returns hcert).trans (not_congr ?_)
  simp only [Bool.not_eq_true', Bool.not_eq_false] at hl hcc
  simp [hl, hcc]

theorem checkCandidates_returns {candidates : Candidates} (hm : message.Encodable)
  (hc : ∀ c ∈ candidates.certificates, c.Encodable) :
  Returns (ctx.checkCandidates itsAid message candidates cache) ↔
    ¬ ctx.ForeignSigner message candidates.fromCache candidates.certificates cache := by
  unfold checkCandidates
  split
  · next hn =>
    refine iff_of_true (pure _) ?_
    rintro ⟨-, ecdsa, payload, -, -, cert, htrd, -⟩
    rw [hn] at htrd
    exact not_nil htrd
  · split
    · next ht =>
      refine iff_of_true (pure _) fun h => ?_
      simp [h.1] at ht
    · next ht =>
      split
      · next report hs =>
        refine iff_of_true (pure _) ?_
        rintro ⟨-, ecdsa, payload, hs', -⟩
        cases hs.symm.trans hs'
      next ecdsa hs =>
      obtain ⟨payload, hp⟩ := SecuredMessage.convertForSigning_returns.2 hm
      rw [bind_iff]
      constructor
      · rintro ⟨payload', hp', hret⟩
        obtain rfl := Except.ok.inj (hp.symm.trans hp')
        obtain ⟨result, hr, hret⟩ := bind_iff.1 hret
        rintro ⟨-, ecdsa', payload', hs', hp', cert, htrd, h⟩
        obtain rfl := Except.ok.inj (hp.symm.trans hp')
        obtain rfl := Except.ok.inj (hs.symm.trans hs')
        rcases h with hf | ⟨ha, h⟩
        · have := searchSigner_returns.1 ⟨result, hr⟩ cert htrd
          cases this.symm.trans hf
        · have hfnd := searchSigner_found.2 ⟨htrd, ha⟩
          obtain rfl := Except.ok.inj (hr.symm.trans hfnd)
          exact (checkSigner_returns (hc cert htrd.mem)).1 hret h
      · intro h
        refine ⟨payload, hp, ?_⟩
        have hf : ∀ cert, Tried backend payload ecdsa
            candidates.certificates cert → cert.hasForeignKey = false := by
          intro cert htrd
          by_contra hf
          exact h ⟨by simpa using ht, ecdsa, payload, hs, hp, cert, htrd, .inl (by simpa using hf)⟩
        obtain ⟨result, hr⟩ := searchSigner_returns.2 hf
        refine bind_iff.2 ⟨result, hr, ?_⟩
        cases result with
        | invalid reason | notFound => exact pure _
        | found signer =>
          obtain ⟨htrd, ha⟩ := searchSigner_found.1 hr
          refine (checkSigner_returns (hc signer htrd.mem)).2 fun hiss => h ?_
          exact ⟨by simpa using ht, ecdsa, payload, hs, hp, signer, htrd, .inr ⟨ha, hiss⟩⟩

theorem foreignSigner_lookup {fromCache : Bool} {certs : List Certificate}
  (id : HashedId8) (type : SubjectType) :
  ctx.ForeignSigner message fromCache certs (cache.lookup ctx.now id type).2 ↔
    ctx.ForeignSigner message fromCache certs cache := by
  simp only [ForeignSigner, foreignIssuer_lookup]

theorem ForeignSigner.ne_nil {fromCache : Bool} {certs : List Certificate}
  (h : ctx.ForeignSigner message fromCache certs cache) : certs ≠ [] := by
  obtain ⟨-, ecdsa, payload, -, -, cert, ht, -⟩ := h
  exact List.ne_nil_of_mem ht.mem

def possibleCertificates (ctx : Context backend) (cache : CertificateCache backend) :
  Option SignerInfo → List Certificate × Bool
  | some (.certificate cert) => ([cert], false)
  | some (.certificateDigestWithSha256 signerHash) =>
    ((cache.lookup ctx.now signerHash .authorizationTicket).1, true)
  | some (.certificateChain chain) => (chain.getLast?.toList, false)
  | _ => ([], false)

def issuerCache (ctx : Context backend) (cache : CertificateCache backend) :
  Option SignerInfo → CertificateCache backend
  | some (.certificateChain chain) => chain.foldl ctx.withAuthority cache
  | _ => cache

def AdmitsChain (ctx : Context backend) : Option SignerInfo → Prop
  | some (.certificateChain chain) => chain.length ≤ 3 ∧
      ∀ c ∈ chain, c.subjectInfo.subjectType = .authorizationAuthority → ctx.Admits c
  | _ => True

def ForeignChain (ctx : Context backend) : Option SignerInfo → Prop
  | some (.certificateChain chain) => chain.length ≤ 3 ∧ ctx.ForeignAuthority chain
  | _ => False

def MeetsForeignKey (ctx : Context backend) (cache : CertificateCache backend)
  (message : SecuredMessage) : Prop :=
  ctx.ForeignChain message.signerInfo ∨ ctx.AdmitsChain message.signerInfo ∧
    ctx.ForeignSigner message (ctx.possibleCertificates cache message.signerInfo).2
      (ctx.possibleCertificates cache message.signerInfo).1
      (ctx.issuerCache cache message.signerInfo)

theorem answerRequests_returns {reqs : List HashedId3} :
  Returns (ctx.answerRequests reqs) := by
  obtain ⟨hown, hc⟩ := List.forall_mem_cons.1 ctx.certProvider.encodable
  induction reqs with
  | nil => exact pure _
  | cons requested rest ih =>
    obtain ⟨own, hown⟩ := (@Certificate.calculateHash_returns _ backend).2 hown
    have hh : Returns (ctx.certProvider.ownChain.mapM fun cert => cert.calculateHash backend) :=
      mapM_iff.2 fun cert hm =>
        calculateHash_returns.2 (hc cert hm)
    obtain ⟨hashes, hh⟩ := hh
    refine bind_iff.2 ⟨own, hown, ?_⟩
    refine bind_iff.2 ⟨hashes, hh, ?_⟩
    exact (bind_iff_left fun _ => pure _).2 ih

variable {info : Option SignerInfo}

theorem collectCandidates_returns (h : ∀ i ∈ info, ∀ c ∈ i.certificates, c.Encodable) :
  Returns (ctx.collectCandidates itsAid cache info) ↔ ¬ ctx.ForeignChain info := by
  unfold collectCandidates
  split
  · exact iff_of_true (pure _) id
  · next cert =>
    refine iff_of_true ?_ id
    refine (bind_iff_left fun hash => ?_).2 (calculateHash_returns.2 (h _ rfl cert (by
        simp [SignerInfo.certificates])))
    dsimp only
    split <;> exact pure _
  · exact iff_of_true (pure _) id
  · next chain =>
    have hchn : ∀ c ∈ chain, c.Encodable := fun c hc => h _ rfl c hc
    split
    · next hl =>
      rw [List.getLast?_eq_none_iff] at hl
      subst hl
      exact iff_of_true (pure _) fun hfor =>
        not_nil hfor.2
    · next last hl =>
      split
      · next hlo =>
        exact iff_of_true (pure _) fun hfor =>
          Nat.not_lt.2 hfor.1 hlo
      next hs =>
      refine (bind_iff_left fun admitted => ?_).trans ?_
      · split
        · exact pure _
        · exact (bind_iff_left fun _ => pure _).2 (calculateHash_returns.2
              (hchn last (List.mem_of_getLast? hl)))
      · rw [admitAuthorities_returns hchn]
        exact not_congr ⟨fun hf => ⟨Nat.not_lt.1 hs, hf⟩, (·.2)⟩
  · next ho =>
    refine iff_of_true (pure _) fun hfor => ?_
    unfold ForeignChain at hfor
    split at hfor
    · next chain heq => exact ho chain (Option.some.inj heq)
    · exact hfor

theorem possibleCertificates_encodable (h : ∀ i ∈ info, ∀ c ∈ i.certificates, c.Encodable) :
  ∀ c ∈ (ctx.possibleCertificates cache info).1, c.Encodable := by
  intro c hc
  unfold possibleCertificates at hc
  split at hc
  · exact h _ rfl c hc
  · exact CertificateCache.encodable_of_lookup hc
  · exact h _ rfl c (List.mem_of_getLast? (Option.mem_toList.1 hc))
  · cases hc

theorem collectCandidates_cases {result : (VerifyConfirm ⊕ Candidates) × CertificateCache backend ×
    List PolicyCall} (hin : ∀ i ∈ info, ∀ c ∈ i.certificates, c.Encodable)
  (h : ctx.collectCandidates itsAid cache info = .ok result) :
  (∃ confirm, result.1 = .inl confirm ∧ (ctx.AdmitsChain info →
    (ctx.possibleCertificates cache info).1 = [])) ∨
  (∃ signerHash, result.1 = .inr ⟨(ctx.possibleCertificates cache info).1,
      (ctx.possibleCertificates cache info).2, signerHash⟩ ∧
    ctx.AdmitsChain info ∧ ∀ message fromCache certs,
      ctx.ForeignSigner message fromCache certs result.2.1 ↔
        ctx.ForeignSigner message fromCache certs (ctx.issuerCache cache info)) := by
  unfold collectCandidates at h
  split at h
  · obtain rfl := Except.ok.inj h
    exact .inr ⟨_, rfl, trivial, fun _ _ _ => Iff.rfl⟩
  · next cert =>
    obtain ⟨signerHash, -, h⟩ := bind_eq_ok_iff.1 h
    dsimp only at h
    split at h
    · obtain rfl := Except.ok.inj h
      exact .inr ⟨_, rfl, trivial, fun _ _ _ => foreignSigner_lookup _ _⟩
    · obtain rfl := Except.ok.inj h
      exact .inr ⟨_, rfl, trivial, fun _ _ _ => Iff.rfl⟩
  · obtain rfl := Except.ok.inj h
    exact .inr ⟨_, rfl, trivial, fun _ _ _ => foreignSigner_lookup _ _⟩
  · next chain =>
    have hchn : ∀ c ∈ chain, c.Encodable := fun c hc => hin _ rfl c hc
    split at h
    · next hl =>
      obtain rfl := Except.ok.inj h
      exact .inl ⟨_, rfl, fun _ => by simp [possibleCertificates, hl]⟩
    next last hl =>
    split at h
    · next hlo =>
      obtain rfl := Except.ok.inj h
      exact .inl ⟨_, rfl, fun h => (Nat.not_lt.2 h.1 hlo).elim⟩
    next hs =>
    obtain ⟨⟨verdict, cache'⟩, ha, h⟩ := bind_eq_ok_iff.1 h
    cases verdict with
    | some confirm =>
      obtain rfl := Except.ok.inj h
      refine .inl ⟨_, rfl, fun hall => ?_⟩
      cases ha.symm.trans ((admitAuthorities_eq_none hchn).2 ⟨hall.2, rfl⟩)
    | none =>
      obtain ⟨hall, rfl⟩ := (admitAuthorities_eq_none hchn).1 ha
      obtain ⟨signerHash, -, h⟩ := bind_eq_ok_iff.1 h
      obtain rfl := Except.ok.inj h
      refine .inr ⟨signerHash, ?_, ⟨Nat.not_lt.1 hs, hall⟩, fun _ _ _ => Iff.rfl⟩
      simp [possibleCertificates, hl]
  · next hcert hd hchn =>
    obtain rfl := Except.ok.inj h
    refine .inl ⟨_, rfl, fun _ => ?_⟩
    unfold possibleCertificates
    split
    · next cert heq => exact (hcert cert (Option.some.inj heq)).elim
    · next hash heq => exact (hd hash (Option.some.inj heq)).elim
    · next chain heq => exact (hchn chain (Option.some.inj heq)).elim
    · rfl

theorem verify_returns (hm : message.Encodable) : Returns (ctx.verify cache message) ↔
    ¬ (message.itsAid.isSome ∧ ctx.MeetsForeignKey cache message) := by
  have hin : ∀ i ∈ message.signerInfo, ∀ c ∈ i.certificates,
      c.Encodable := fun i hi => hm.certificates hi
  obtain ⟨reqs, hreq⟩ := @answerRequests_returns backend ctx
    (message.requestUnrecognizedCertificate.getD [])
  rw [verify, hreq, ok_bind_iff]
  cases message.itsAid with
  | none => exact iff_of_true (pure _) (by simp)
  | some id =>
    simp only [Option.isSome_some, true_and, MeetsForeignKey, not_or]
    rw [bind_iff]
    constructor
    · rintro ⟨result, hr, hret⟩
      refine ⟨(collectCandidates_returns hin).1 ⟨result, hr⟩, ?_⟩
      rintro ⟨ha, hsig⟩
      obtain ⟨confirm, -, hemp⟩ | ⟨signerHash, hinr, -, hs⟩ := collectCandidates_cases hin hr
      · exact hsig.ne_nil (hemp ha)
      rw [hinr] at hret
      obtain ⟨answer, hans, -⟩ := bind_iff.1 hret
      refine (checkCandidates_returns hm ?_).1 ⟨answer, hans⟩ ((hs _ _ _).2 hsig)
      exact possibleCertificates_encodable hin
    · rintro ⟨hc, hsig⟩
      obtain ⟨result, hr⟩ := (@collectCandidates_returns _ ctx (id.toUInt32) cache _ hin).2 hc
      refine ⟨result, hr, ?_⟩
      obtain ⟨confirm, hinl, -⟩ | ⟨signerHash, hinr, ha, hs⟩ := collectCandidates_cases hin hr
      · rw [hinl]
        exact pure _
      rw [hinr]
      refine (bind_iff_left fun _ => pure _).2 ?_
      refine (checkCandidates_returns hm (possibleCertificates_encodable hin)).2 fun h => ?_
      exact hsig ⟨ha, (hs _ _ _).1 h⟩

end Context

section Received

variable {backend : Backend} {service : StraightVerifyService backend}
  {now : Int} {s : VerifyState backend}

/-- The verification of a message that was received returns, unless it is a
signed message with an application identifier on which a foreign key is met. -/
theorem verify_received_returns {message : SecuredMessage} {size : Nat}
  {input rest : Input InputArchive.ErrorCode}
  (hread : SecuredMessage.deserialize input = .ok ((message, size), rest)) :
  Returns (service.verify now s message) ↔ ∀ ctx cache, service.context now s = some (ctx, cache) →
      ¬ (message.payload.type = .signed ∧ message.itsAid.isSome ∧
        ctx.MeetsForeignKey cache message) := by
  have hm : message.Encodable := yields_securedMessage _ _ _ hread
  unfold StraightVerifyService.verify
  split
  · next ht =>
    exact iff_of_true (pure _) fun _ _ _ h => ht h.1
  next ht =>
  split
  · next hc =>
    refine iff_of_true (pure _) fun ctx cache h => ?_
    cases hc.symm.trans h
  next ctx cache hc =>
  rw [bind_iff_left fun _ => pure _, Context.verify_returns hm]
  rw [not_not] at ht
  simp [hc, ht]

def StraightVerifyService.verifyThrows (service : StraightVerifyService backend)
  (now : Int) (s : VerifyState backend) (bytes : ByteBuffer) : Option Exception :=
  match SecuredMessage.deserialize ⟨bytes, none⟩ with
  | .error _ => none
  | .ok ((message, _), _) =>
    match service.verify now s message with
    | .error e => some e
    | .ok _ => none

theorem verifyThrows_eq_some {bytes : ByteBuffer} {e : Exception} :
  service.verifyThrows now s bytes = some e ↔ ∃ message size rest,
    SecuredMessage.deserialize ⟨bytes, none⟩ = .ok ((message, size), rest) ∧
      service.verify now s message = .error e := by
  unfold StraightVerifyService.verifyThrows
  rcases SecuredMessage.deserialize ⟨bytes, none⟩ with
    e' | ⟨⟨message, size⟩, rest⟩
  · simp
  · cases hv : service.verify now s message <;> simp [hv]

end Received

def Backend.null : Backend where
  decompressPoint _ := none
  verifyData _ _ _ := true
  sha256 _ := .replicate 32 0

def bareTicket : Certificate where
  signerInfo := .self
  subjectInfo := ⟨.authorizationTicket, []⟩
  subjectAttributes := []
  validityRestriction := []
  signature := ⟨⟨.xCoordinateOnly (.replicate 32 0), .replicate 32 0⟩⟩

def bareService : StraightVerifyService .null where
  certProvider := some
    { ownCertificate := bareTicket
      ownChain := []
      encodable := by
        intro cert hmem
        obtain rfl := List.mem_singleton.1 hmem
        exact Certificate.serialize_returns.1 ⟨_, rfl⟩ }
  certValidator := some ⟨.empty, fun _ _ => 0⟩
  hasSignPolicy := true
  positionFix := some ⟨⟨0, 0⟩, true⟩

def eciesTicketFrame : ByteBuffer :=
  -- version and length of the header
  [2, 121] ++
  -- signer info: the certificate, up to the attributes
  [128, 2, 2, 0, 1, 0] ++
  -- one attribute, the key
  [36, 0, 1, 0, 0] ++ List.replicate 32 7 ++
  -- no restrictions, and the signature of the certificate
  [0, 0, 0] ++ List.replicate 32 1 ++ List.replicate 32 2 ++
  -- application identifier and generation time
  [5, 36] ++ [0, 0, 0, 0, 0, 0, 152, 150, 128] ++
  -- signed payload
  [1, 0] ++
  -- signature of the message
  [67, 1, 0, 0] ++ List.replicate 32 3 ++ List.replicate 32 4

theorem eciesTicketFrame_badGet :
  bareService.verifyThrows 10000000 ⟨some .empty, []⟩ eciesTicketFrame = some .badGet := by
  decide +kernel

theorem eciesTicketFrame_meets_foreign_key : ∃ message size rest ctx cache,
  SecuredMessage.deserialize ⟨eciesTicketFrame, none⟩ = .ok ((message, size), rest) ∧
  bareService.context 10000000 ⟨some .empty, []⟩ = some (ctx, cache) ∧
  ctx.MeetsForeignKey cache message := by
  obtain ⟨message, size, rest, hr, ht⟩ := verifyThrows_eq_some.1 eciesTicketFrame_badGet
  have hmt := not_congr (verify_received_returns hr) |>.1 fun hret =>
    not_error _ (ht ▸ hret)
  push Not at hmt
  obtain ⟨ctx, cache, hc, -, -, hf⟩ := hmt
  exact ⟨message, size, rest, ctx, cache, hr, hc, hf⟩

theorem verify_throws_on_received : ∃ message size rest,
  SecuredMessage.deserialize ⟨eciesTicketFrame, none⟩ = .ok ((message, size), rest) ∧
  bareService.verify 10000000 ⟨some .empty, []⟩ message = .error .badGet :=
  verifyThrows_eq_some.1 eciesTicketFrame_badGet

end Vanetza.Security.V2
