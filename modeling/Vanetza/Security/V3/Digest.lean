import Vanetza.Security.V3.Canonical

/-!
# When two writings of a certificate have one digest

A certificate can be written with curve points compressed or not, and the digest
is meant to be blind to that. `SameData` says that two certificates differ in
the writing of curve points only, `SameDigest` what is expected then.
-/

namespace Vanetza.Security.V3

open Asn1 Option

/-- `point` is one of the two ways to write the point `(x, y)` of a key. -/
def WritesPoint (x y : ByteBuffer) (point : EccCurvePoint) : Prop :=
  point = .uncompressed x y ∨ point = if yOdd y then .compressedY1 x else .compressedY0 x

def SamePoint (p q : EccCurvePoint) : Prop := ∃ x y, WritesPoint x y p ∧ WritesPoint x y q

/-- `point` is some way to write an `R` value with the x coordinate `x`. -/
def WritesX (x : ByteBuffer) (point : EccCurvePoint) : Prop :=
  point = .xOnly x ∨ point = .compressedY0 x ∨ point = .compressedY1 x ∨
    ∃ y, point = .uncompressed x y

def SameX (p q : EccCurvePoint) : Prop := ∃ x, WritesX x p ∧ WritesX x q

inductive SameVerificationKey : PublicVerificationKey → PublicVerificationKey → Prop where
  | nothing : SameVerificationKey .nothing .nothing
  | ecdsaNistP256 {p q} (h : SamePoint p q) :
      SameVerificationKey (.ecdsaNistP256 p) (.ecdsaNistP256 q)
  | ecdsaBrainpoolP256r1 {p q} (h : SamePoint p q) :
      SameVerificationKey (.ecdsaBrainpoolP256r1 p) (.ecdsaBrainpoolP256r1 q)
  | ecdsaBrainpoolP384r1 {p q} (h : SamePoint p q) :
      SameVerificationKey (.ecdsaBrainpoolP384r1 p) (.ecdsaBrainpoolP384r1 q)
  | ecdsaNistP384 {p q} (h : SamePoint p q) :
      SameVerificationKey (.ecdsaNistP384 p) (.ecdsaNistP384 q)
  | ecsigSm2 {p q} (h : SamePoint p q) : SameVerificationKey (.ecsigSm2 p) (.ecsigSm2 q)
  | fnDsa512 {octets} : SameVerificationKey (.fnDsa512 octets) (.fnDsa512 octets)

inductive SameIndicator : VerificationKeyIndicator → VerificationKeyIndicator → Prop where
  | nothing : SameIndicator .nothing .nothing
  | verificationKey {k k'} (h : SameVerificationKey k k') :
      SameIndicator (.verificationKey k) (.verificationKey k')
  | reconstructionValue {p q} (h : SamePoint p q) :
      SameIndicator (.reconstructionValue p) (.reconstructionValue q)

inductive SameEncryptionKey : PublicEncryptionKey → PublicEncryptionKey → Prop where
  | nothing {alg} : SameEncryptionKey ⟨alg, .nothing⟩ ⟨alg, .nothing⟩
  | eciesNistP256 {alg p q} (h : SamePoint p q) :
      SameEncryptionKey ⟨alg, .eciesNistP256 p⟩ ⟨alg, .eciesNistP256 q⟩
  | eciesBrainpoolP256r1 {alg p q} (h : SamePoint p q) :
      SameEncryptionKey ⟨alg, .eciesBrainpoolP256r1 p⟩ ⟨alg, .eciesBrainpoolP256r1 q⟩
  | ecencSm2 {alg p q} (h : SamePoint p q) : SameEncryptionKey ⟨alg, .ecencSm2 p⟩ ⟨alg, .ecencSm2 q⟩

inductive SameSignature : Asn1.Signature → Asn1.Signature → Prop where
  | nothing : SameSignature .nothing .nothing
  | ecdsaNistP256 {r r' s} (h : SameX r r') : SameSignature (.ecdsaNistP256Signature ⟨r, s⟩)
        (.ecdsaNistP256Signature ⟨r', s⟩)
  | ecdsaBrainpoolP256r1 {r r' s} (h : SameX r r') :
      SameSignature (.ecdsaBrainpoolP256r1Signature ⟨r, s⟩) (.ecdsaBrainpoolP256r1Signature ⟨r', s⟩)
  | ecdsaBrainpoolP384r1 {r r' s} (h : SameX r r') :
      SameSignature (.ecdsaBrainpoolP384r1Signature ⟨r, s⟩) (.ecdsaBrainpoolP384r1Signature ⟨r', s⟩)
  | ecdsaNistP384 {r r' s} (h : SameX r r') : SameSignature (.ecdsaNistP384Signature ⟨r, s⟩)
        (.ecdsaNistP384Signature ⟨r', s⟩)
  | sm2 {r s} : SameSignature (.sm2Signature r s) (.sm2Signature r s)
  | fnDsa512 {octets} : SameSignature (.fnDsa512Signature octets) (.fnDsa512Signature octets)

structure SameData (a b : Certificate) : Prop where
  remaining : b = { a with
    toBeSigned := { a.toBeSigned with
      verifyKeyIndicator := b.toBeSigned.verifyKeyIndicator
      encryptionKey := b.toBeSigned.encryptionKey }
    signature := b.signature }
  indicator : SameIndicator a.toBeSigned.verifyKeyIndicator b.toBeSigned.verifyKeyIndicator
  encryptionKey : Option.Rel SameEncryptionKey a.toBeSigned.encryptionKey b.toBeSigned.encryptionKey
  signature : Option.Rel SameSignature a.signature b.signature

def SameDigest (P : Platform) (a b : Certificate) : Prop :=
  ∃ ca cb digest, canonicalize P a = some ca ∧ canonicalize P b = some cb ∧
    canonicalize P ca = some ca ∧ canonicalize P cb = some cb ∧
    calculateDigest P a = some digest ∧ calculateDigest P b = some digest ∧
    calculateDigest P ca = some digest ∧ calculateDigest P cb = some digest

/-- An ECDSA signature of a supported curve whose `R` is not compressed. -/
def signatureReducible : Asn1.Signature → Bool
  | .ecdsaNistP256Signature sig => !isCompressed sig.rSig
  | .ecdsaBrainpoolP256r1Signature sig => !isCompressed sig.rSig
  | .ecdsaBrainpoolP384r1Signature sig => !isCompressed sig.rSig
  | _ => false

def encryptionKeyCompressed (cert : Certificate) : Bool :=
  match cert.toBeSigned.encryptionKey with
  | some ⟨_, .eciesNistP256 point⟩ => isCompressed point
  | some ⟨_, .eciesBrainpoolP256r1 point⟩ => isCompressed point
  | _ => true

structure WellWritten (cert : Certificate) : Prop where
  keyType : getVerificationKeyType cert ≠ .unspecified
  signature : ∀ sig ∈ cert.signature, signatureReducible sig = true
  encryptionKey : isCanonical cert = true → encryptionKeyCompressed cert = true

def SameSm2Key (a b : Certificate) : Prop :=
  ∀ alg p, a.toBeSigned.encryptionKey = some ⟨alg, .ecencSm2 p⟩ →
    b.toBeSigned.encryptionKey = some ⟨alg, .ecencSm2 p⟩

def EncodesCanonical (P : Platform) : Prop :=
  ∀ cert canonical, (P.codec.encode cert).isSome → canonicalizeCopy cert = some canonical →
    (P.codec.encode canonical).isSome

def CollisionFree (P : Platform) (certs : List Certificate) : Prop :=
  ∀ a ∈ certs, ∀ b ∈ certs, ∀ keyType digest, calculateDigestInternal P a keyType = some digest →
    calculateDigestInternal P b keyType = some digest → a = b

def writings (a b : Certificate) : List Certificate :=
  a :: b :: ((canonicalizeCopy a).toList ++ (canonicalizeCopy b).toList)

def Agree {α : Type} (rewrite : α → Option α) (a b : α) : Prop :=
  ∃ c, rewrite a = some c ∧ rewrite b = some c

theorem Agree.map {α β : Type} {rewrite : α → Option α} {wrap : α → β}
  {a b : α} (h : Agree rewrite a b) :
  ∃ c, (rewrite a).map wrap = some c ∧ (rewrite b).map wrap = some c := by
  obtain ⟨c, ha, hb⟩ := h
  exact ⟨wrap c, by rw [ha, map_some], by rw [hb, map_some]⟩

theorem agree_rewriteOptional {α : Type} {rewrite : α → Option α}
  {R : α → α → Prop} {a b : Option α} (hR : Option.Rel R a b)
  (h : ∀ x ∈ a, ∀ y ∈ b, R x y → Agree rewrite x y) :
  Agree (rewriteOptional rewrite) a b := by
  cases hR with
  | none => exact ⟨none, rfl, rfl⟩
  | some hxy => exact (h _ rfl _ rfl hxy).map

variable {cert canonical a b : Certificate} {table certs : List Certificate}
  {h : table.length ≤ 256} {P : Platform} {p point q : EccCurvePoint}
  {sig : Asn1.Signature} {digest : HashedId8} {x : ByteBuffer}

theorem WritesPoint.compress_eq {y : ByteBuffer} (h : WritesPoint x y point) : compress point =
    some (if yOdd y then .compressedY1 x else .compressedY0 x) := by
  rcases h with rfl | rfl
  · rfl
  · split <;> rfl

theorem SamePoint.agree (h : SamePoint p q) :
  Agree compress p q := by
  obtain ⟨x, y, hp, hq⟩ := h
  exact ⟨_, hp.compress_eq, hq.compress_eq⟩

theorem WritesX.makeXOnly_eq (h : WritesX x point) (hc : isCompressed point = false) :
  makeXOnly point = some (.xOnly x) := by
  rcases h with rfl | rfl | rfl | ⟨y, rfl⟩
  · rfl
  · cases hc
  · cases hc
  · rfl

theorem SameX.agree (h : SameX p q) (hp : isCompressed p = false) (hq : isCompressed q = false) :
  Agree makeXOnly p q := by
  obtain ⟨x, hx, hx'⟩ := h
  exact ⟨.xOnly x, hx.makeXOnly_eq hp, hx'.makeXOnly_eq hq⟩

theorem SameIndicator.agree (h : SameIndicator a.toBeSigned.verifyKeyIndicator
    b.toBeSigned.verifyKeyIndicator) (hk : getVerificationKeyType a ≠ .unspecified) :
  Agree compressIndicator a.toBeSigned.verifyKeyIndicator b.toBeSigned.verifyKeyIndicator := by
  unfold getVerificationKeyType at hk
  generalize a.toBeSigned.verifyKeyIndicator = ia at h hk
  generalize b.toBeSigned.verifyKeyIndicator = ib at h
  cases h with
  | nothing | reconstructionValue _ => exact absurd rfl hk
  | verificationKey hkey =>
    cases hkey with
    | ecdsaNistP256 hp | ecdsaBrainpoolP256r1 hp | ecdsaBrainpoolP384r1 hp => exact hp.agree.map
    | nothing | ecdsaNistP384 _ | ecsigSm2 _ | fnDsa512 => exact absurd rfl hk

theorem SameIndicator.keyType_eq (h : SameIndicator a.toBeSigned.verifyKeyIndicator
    b.toBeSigned.verifyKeyIndicator) :
  getVerificationKeyType b = getVerificationKeyType a := by
  unfold getVerificationKeyType
  generalize a.toBeSigned.verifyKeyIndicator = ia at h ⊢
  generalize b.toBeSigned.verifyKeyIndicator = ib at h ⊢
  cases h with
  | nothing | reconstructionValue _ => rfl
  | verificationKey hk => cases hk <;> rfl

theorem SameEncryptionKey.agree {k k' : PublicEncryptionKey} (h : SameEncryptionKey k k')
  (hsm2 : ∀ alg p, k = ⟨alg, .ecencSm2 p⟩ → k' = ⟨alg, .ecencSm2 p⟩) :
  Agree compressEncryptionKey k k' := by
  cases h with
  | nothing => exact ⟨_, rfl, rfl⟩
  | eciesNistP256 hp | eciesBrainpoolP256r1 hp =>
    obtain ⟨c, hc, hc'⟩ := hp.agree
    exact ⟨_, by simp [compressEncryptionKey, compressBaseKey, hc]; rfl,
      by simp [compressEncryptionKey, compressBaseKey, hc']⟩
  | @ecencSm2 alg p q _ =>
    rw [hsm2 alg p rfl]
    exact ⟨_, rfl, rfl⟩

theorem SameSignature.agree {s s' : Asn1.Signature} (h : SameSignature s s')
  (hs : signatureReducible s = true) (hs' : signatureReducible s' = true) :
  Agree makeSignatureXOnly s s' := by
  cases h with
  | ecdsaNistP256 hx | ecdsaBrainpoolP256r1 hx | ecdsaBrainpoolP384r1 hx =>
    simp only [signatureReducible, Bool.not_eq_true'] at hs hs'
    exact (hx.agree hs hs').map
  | nothing | ecdsaNistP384 _ | sm2 | fnDsa512 => cases hs

theorem canonicalizeCopy_agree (h : SameData a b) (ha : WellWritten a)
  (hb : WellWritten b) (hsm2 : SameSm2Key a b) :
  Agree canonicalizeCopy a b := by
  obtain ⟨i, hia, hib⟩ := h.indicator.agree ha.keyType
  obtain ⟨e, hea, heb⟩ := agree_rewriteOptional h.encryptionKey
    fun x hx y hy hxy => hxy.agree fun alg p hk => by
      subst hk
      have hb' := hsm2 alg p hx
      rw [mem_def.1 hy, some.injEq] at hb'
      exact hb'
  obtain ⟨s, hsa, hsb⟩ := agree_rewriteOptional h.signature
    fun x hx y hy hxy => hxy.agree (ha.signature x hx) (hb.signature y hy)
  have hca := canonicalizeCopy_eq_some.2 ⟨i, e, s, hia, hea, hsa, rfl⟩
  have hcb := canonicalizeCopy_eq_some.2 ⟨i, e, s, hib, heb, hsb, rfl⟩
  refine ⟨_, hca, hcb.trans ?_⟩
  rw [h.remaining]

theorem compressIndicator_of_compressed {ind : VerificationKeyIndicator}
  (h : isIndicatorCompressed ind = true) :
  compressIndicator ind = some ind := by
  unfold isIndicatorCompressed at h
  split at h
  iterate 4
    simp only [compressIndicator, compress_of_isCompressed h, map_some]
  · unfold compressIndicator
    split <;> first | rfl | simp_all

theorem rewrite_encryptionKey_eq_self :
  rewriteOptional compressEncryptionKey cert.toBeSigned.encryptionKey =
      some cert.toBeSigned.encryptionKey ↔ encryptionKeyCompressed cert = true := by
  unfold encryptionKeyCompressed
  cases hk : cert.toBeSigned.encryptionKey with
  | none => simp [rewriteOptional]
  | some key =>
    obtain ⟨alg, base⟩ := key
    cases base with
    | nothing | ecencSm2 _ => simp [rewriteOptional, compressEncryptionKey, compressBaseKey]
    | eciesNistP256 p | eciesBrainpoolP256r1 p =>
      simp only [rewriteOptional, compressEncryptionKey, compressBaseKey, map_map]
      constructor
      · intro h
        obtain ⟨p', hp, heq⟩ := map_eq_some_iff.1 h
        simp only [Function.comp_apply, some.injEq, PublicEncryptionKey.mk.injEq, true_and] at heq
        cases heq
        exact isCompressed_compress hp
      · intro h
        rw [compress_of_isCompressed h]
        rfl

theorem makeSignatureXOnly_of_xOnly (h : isSignatureXOnly sig = true)
  (hr : signatureReducible sig = true) :
  makeSignatureXOnly sig = some sig := by
  cases sig with
  | ecdsaNistP256Signature s | ecdsaBrainpoolP256r1Signature s
  | ecdsaBrainpoolP384r1Signature s =>
    simp only [makeSignatureXOnly, makeXOnly_of_isXOnly h, map_some]
  | nothing | ecdsaNistP384Signature _ | sm2Signature _ _
  | fnDsa512Signature _ => cases hr

theorem canonicalizeCopy_eq_self (hc : isCanonical cert = true) (hw : WellWritten cert) :
  canonicalizeCopy cert = some cert := by
  unfold isCanonical at hc
  obtain ⟨hind, hsig⟩ := Bool.and_eq_true_iff.1 hc
  refine canonicalizeCopy_eq_some.2 ⟨_, _, _, compressIndicator_of_compressed hind,
    rewrite_encryptionKey_eq_self.2 (hw.encryptionKey ?_), ?_, rfl⟩
  · exact Bool.and_eq_true_iff.2 ⟨hind, hsig⟩
  cases hs : cert.signature with
  | none => rfl
  | some sig =>
    rw [hs] at hsig
    rw [rewriteOptional, makeSignatureXOnly_of_xOnly hsig (hw.signature sig hs)]
    rfl

theorem calculateDigest_canonical (h : canonicalizeCopy cert = some canonical) :
  calculateDigest P canonical =
    calculateDigestInternal P canonical (getVerificationKeyType cert) := by
  rw [calculateDigest_eq, canonicalEncoding, if_pos (isCanonical_canonicalizeCopy h),
    getVerificationKeyType_canonicalizeCopy h]
  rfl

theorem WellWritten.calculateDigest_eq (hw : WellWritten cert)
  (h : canonicalize P cert = some canonical) :
  calculateDigest P cert = calculateDigest P canonical := by
  obtain ⟨-, hco⟩ := canonicalize_eq_some.1 h
  by_cases hc : isCanonical cert = true
  · have hs := canonicalizeCopy_eq_self hc hw
    rw [hco, some.injEq] at hs
    rw [hs]
  · rw [calculateDigest_canonical hco, calculateDigest, if_neg hw.keyType, if_neg hc, h, bind_some]

theorem sameDigest_of_wellWritten (hs : SameData a b)
  (ha : (P.codec.encode a).isSome) (hb : (P.codec.encode b).isSome)
  (hP : EncodesCanonical P) (hwa : WellWritten a) (hwb : WellWritten b) (hsm2 : SameSm2Key a b) :
  SameDigest P a b := by
  obtain ⟨c, hca, hcb⟩ := canonicalizeCopy_agree hs hwa hwb hsm2
  have hac := canonicalize_eq_some.2 ⟨ha, hca⟩
  have hbc := canonicalize_eq_some.2 ⟨hb, hcb⟩
  have henc : (P.codec.encode c).isSome := hP a c ha hca
  have hcc := canonicalize_eq_some.2 ⟨henc, settles_canonicalizeCopy hca⟩
  obtain ⟨buf, hbuf⟩ := isSome_iff_exists.1 henc
  have hso : (digestOfBuffer P buf (getVerificationKeyType a)).isSome :=
    digestOfBuffer_isSome.2 hwa.keyType
  obtain ⟨digest, hd⟩ := isSome_iff_exists.1 hso
  have hc : calculateDigest P c = some digest := by
    rw [calculateDigest_canonical hca, calculateDigestInternal, hbuf, bind_some, hd]
  exact ⟨c, c, digest, hac, hbc, hcc, hcc, (hwa.calculateDigest_eq hac).trans hc,
    (hwb.calculateDigest_eq hbc).trans hc, hc, hc⟩

theorem signatureReducible_of_makeSignatureXOnly {sig' : Asn1.Signature}
  (h : makeSignatureXOnly sig = some sig') :
  signatureReducible sig = true := by
  cases sig with
  | ecdsaNistP256Signature s | ecdsaBrainpoolP256r1Signature s
  | ecdsaBrainpoolP384r1Signature s =>
    obtain ⟨r, hr, -⟩ := map_eq_some_iff.1 h
    obtain ⟨rSig, sSig⟩ := s
    cases rSig <;> simp_all [makeXOnly, signatureReducible, isCompressed]
  | nothing | ecdsaNistP384Signature _ | sm2Signature _ _
  | fnDsa512Signature _ => cases h

theorem wellWritten_of_digest (hf : CollisionFree P certs)
  (hm : cert ∈ certs) (hm' : canonical ∈ certs) (hcan : canonicalize P cert = some canonical)
  (hd : calculateDigest P cert = some digest)
  (hd' : calculateDigest P canonical = some digest) : WellWritten cert := by
  obtain ⟨-, hco⟩ := canonicalize_eq_some.1 hcan
  obtain ⟨i, e, s, -, -, hs, -⟩ := canonicalizeCopy_eq_some.1 hco
  have hk : getVerificationKeyType cert ≠ .unspecified :=
    (calculateDigest_isSome.1 (by rw [hd]; rfl)).1
  refine ⟨hk, ?_, ?_⟩
  · intro sig hsig
    rw [mem_def.1 hsig, rewriteOptional] at hs
    obtain ⟨sig', hs', -⟩ := map_eq_some_iff.1 hs
    exact signatureReducible_of_makeSignatureXOnly hs'
  intro hc
  -- hashed as it stands, so without a collision it is its canonical form
  rw [calculateDigest, if_neg hk, if_pos hc] at hd
  rw [calculateDigest_canonical hco] at hd'
  have heq := hf cert hm canonical hm' _ _ hd hd'
  rw [← heq] at hco
  obtain ⟨i', e', s', -, he', -, hr⟩ := canonicalizeCopy_eq_some.1 hco
  have hek := congrArg (fun c => c.toBeSigned.encryptionKey) hr
  refine rewrite_encryptionKey_eq_self.1 (he'.trans (congrArg some ?_))
  exact hek.symm

theorem canonicalizeCopy_sm2 {alg : Int} (h : canonicalizeCopy cert = some canonical)
  (hk : cert.toBeSigned.encryptionKey = some ⟨alg, .ecencSm2 p⟩) :
  canonical.toBeSigned.encryptionKey = some ⟨alg, .ecencSm2 p⟩ := by
  obtain ⟨i, e, s, -, he, -, rfl⟩ := canonicalizeCopy_eq_some.1 h
  rw [hk] at he
  cases he
  rfl

theorem sameSm2Key_of_canonical_eq {c : Certificate} (hs : SameData a b)
  (ha : canonicalizeCopy a = some c) (hb : canonicalizeCopy b = some c) :
  SameSm2Key a b := by
  intro alg p hka
  have hr := hs.encryptionKey
  rw [hka] at hr
  cases hkb : b.toBeSigned.encryptionKey with
  | none => rw [hkb] at hr; cases hr
  | some key =>
    rw [hkb] at hr
    cases hr with
    | some hk =>
      cases hk with
      | ecencSm2 _ => rw [← canonicalizeCopy_sm2 hb hkb, canonicalizeCopy_sm2 ha hka]

/-- Two writings of one certificate have one digest, present and stable under
canonicalization, exactly when both are well written and an SM2 encryption key
is written the same way in both. -/
theorem sameDigest_iff_wellWritten {P : Platform} {a b : Certificate}
  (hsame : SameData a b) (ha : (P.codec.encode a).isSome)
  (hb : (P.codec.encode b).isSome) (hP : EncodesCanonical P)
  (hfree : CollisionFree P (writings a b)) :
  SameDigest P a b ↔ WellWritten a ∧ WellWritten b ∧ SameSm2Key a b := by
  constructor
  · rintro ⟨ca, cb, digest, hca, hcb, -, -, hda, hdb, hd, hdcb⟩
    have hcop := (canonicalize_eq_some.1 hca).2
    have hc := (canonicalize_eq_some.1 hcb).2
    have hm : ca ∈ writings a b := by simp [writings, hcop]
    have hme : cb ∈ writings a b := by simp [writings, hc]
    have hwa := wellWritten_of_digest hfree (by simp [writings]) hm hca hda hd
    have hwb := wellWritten_of_digest hfree (by simp [writings]) hme hcb hdb hdcb
    rw [calculateDigest_canonical hcop] at hd
    rw [calculateDigest_canonical hc, hsame.indicator.keyType_eq] at hdcb
    have heq := hfree ca hm cb hme _ _ hd hdcb
    subst heq
    exact ⟨hwa, hwb, sameSm2Key_of_canonical_eq hsame hcop hc⟩
  · rintro ⟨hwa, hwb, hsm2⟩
    exact sameDigest_of_wellWritten hsame ha hb hP hwa hwb hsm2

/-- The fake certificate with a signature whose `R` is written as given. -/
def signedWith (r : EccCurvePoint) : Certificate :=
  { fakeCertificate with
    signature := some (.ecdsaNistP256Signature ⟨r, coord 2⟩) }

def xOnlySigned : Certificate := signedWith (.xOnly (coord 1))

def compressedSigned : Certificate := signedWith (.compressedY0 (coord 1))

theorem fits_signedWith : [xOnlySigned].length ≤ 256 := by decide

def implicitWith (point : EccCurvePoint) : Certificate :=
  { fakeCertificate with
    toBeSigned := { fakeCertificate.toBeSigned with
      verifyKeyIndicator := .reconstructionValue point } }

theorem sameData_signedWith {r r' : EccCurvePoint} (h : SameX r r') :
  SameData (signedWith r) (signedWith r') where
  remaining := rfl
  indicator := .verificationKey (.ecdsaNistP256 ⟨List.replicate 32 0, [], .inr rfl, .inr rfl⟩)
  encryptionKey := .none
  signature := .some (.ecdsaNistP256 h)

theorem encodesCanonical_ofTable (hcl : ∀ cert ∈ table, ∀ canonical ∈ canonicalizeCopy cert,
    canonical ∈ table) :
  EncodesCanonical (Platform.ofTable table h) := by
  intro cert canonical henc hcopy
  exact (Codec.ofTable_encode_isSome h).2
    (hcl cert ((Codec.ofTable_encode_isSome h).1 henc) canonical hcopy)

theorem digestOfBuffer_ofTable {place : UInt8} {keyType : KeyType}
  (hd : digestOfBuffer (Platform.ofTable table h) [place] keyType = some digest) :
  digest.toList = [0, 0, 0, 0, 0, 0, 0, place] := by
  cases keyType with
  | unspecified => cases hd
  | nistP256 | brainpoolP256r1 | brainpoolP384r1 =>
    cases hd
    rfl

theorem collisionFree_ofTable : CollisionFree (Platform.ofTable table h) certs := by
  intro a _ b _ keyType digest hda hdb
  obtain ⟨bufa, hbu, hda⟩ := bind_eq_some_iff.1 hda
  obtain ⟨bufb, hb, hdb⟩ := bind_eq_some_iff.1 hdb
  obtain ⟨i, -, rfl⟩ := map_eq_some_iff.1 hbu
  obtain ⟨j, -, rfl⟩ := map_eq_some_iff.1 hb
  have hij := (digestOfBuffer_ofTable hda).symm.trans (digestOfBuffer_ofTable hdb)
  simp only [List.cons.injEq, true_and, and_true] at hij
  rw [← hij] at hb
  exact (Platform.ofTable table h).codec.encode_inj hbu hb

theorem sameDigest_signedWith :
  let P := Platform.ofTable
    [signedWith (.uncompressed (coord 1) (coord 7)), xOnlySigned] (by decide)
  let a := signedWith (.uncompressed (coord 1) (coord 7))
  let b := xOnlySigned
  SameDigest P a b ↔ WellWritten a ∧ WellWritten b ∧ SameSm2Key a b :=
  sameDigest_iff_wellWritten
    (sameData_signedWith ⟨coord 1, .inr (.inr (.inr ⟨coord 7, rfl⟩)), .inl rfl⟩)
    (by decide +kernel) (by decide +kernel)
    (encodesCanonical_ofTable (by decide +kernel)) collisionFree_ofTable

/-- Writing `R` compressed loses the digest on every platform, and implicit
certificates never have one, however their point is written. -/
theorem compressed_r_has_no_digest :
  SameData xOnlySigned compressedSigned ∧
  SameData (implicitWith (.compressedY0 (coord 1)))
    (implicitWith (.uncompressed (coord 1) (coord 2))) ∧
  ∀ P : Platform, canonicalize P compressedSigned = none ∧
    calculateDigest P compressedSigned = none ∧
    ¬ SameDigest P xOnlySigned compressedSigned ∧
    ¬ SameDigest P (implicitWith (.compressedY0 (coord 1)))
      (implicitWith (.uncompressed (coord 1) (coord 2))) := by
  refine ⟨sameData_signedWith ⟨coord 1, .inl rfl, .inr (.inl rfl)⟩,
    ⟨rfl, .reconstructionValue ⟨coord 1, coord 2, .inr rfl, .inl rfl⟩, .none, .none⟩, fun P => ?_⟩
  have hc : canonicalize P compressedSigned = none := by
    rw [eq_none_iff_forall_ne_some]
    intro canonical h
    cases (canonicalize_eq_some.1 h).2
  have him : calculateDigest P (implicitWith (.compressedY0 (coord 1))) = none := rfl
  have hdig : calculateDigest P compressedSigned = none := by
    have hn : isCanonical compressedSigned = false := rfl
    rw [calculateDigest_eq, canonicalEncoding, hn, hc]
    rfl
  refine ⟨hc, hdig, ?_, ?_⟩
  · rintro ⟨_, _, _, _, hb, _⟩
    rw [hc] at hb
    cases hb
  · rintro ⟨_, _, _, _, _, _, _, hd, _⟩
    rw [him] at hd
    cases hd

end Vanetza.Security.V3
