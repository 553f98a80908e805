import Vanetza.Security.V3.Certificate

/-!
# Canonical certificates

`canonicalize` is a composition of rewrites of single components, each of which may refuse. What
each produces it leaves alone when applied again, and passes the test that goes with it; both are
proved for points and carried up.
-/

namespace Vanetza.Security.V3

open Asn1 Option

def Settles {α : Type} (rewrite : α → Option α) : Prop :=
  ∀ ⦃a b⦄, rewrite a = some b → rewrite b = some b

theorem settles_rewriteOptional {α : Type} {rewrite : α → Option α}
  (h : Settles rewrite) : Settles (rewriteOptional rewrite) := by
  intro a b hab
  cases a with
  | none =>
    simp only [rewriteOptional, some.injEq] at hab
    subst hab
    rfl
  | some value =>
    simp only [rewriteOptional, map_eq_some_iff] at hab
    obtain ⟨value', hv, rfl⟩ := hab
    simp only [rewriteOptional, h hv, map_some]

variable {cert cert' : Certificate} {point point' : EccCurvePoint}
  {P : Platform} {buffer : ByteBuffer}

theorem compress_of_isCompressed (h : isCompressed point = true) : compress point = some point := by
  cases point <;> simp_all [isCompressed, compress]

theorem isCompressed_compress (h : compress point = some point') : isCompressed point' = true := by
  cases point with
  | uncompressed x y =>
    simp only [compress, some.injEq] at h
    subst h
    split <;> rfl
  | compressedY0 x | compressedY1 x =>
    simp only [compress, some.injEq] at h
    subst h
    rfl
  | nothing | xOnly _ | fill => cases h

theorem settles_compress : Settles compress :=
  fun _ _ h => compress_of_isCompressed (isCompressed_compress h)

theorem makeXOnly_of_isXOnly (h : isXOnly point = true) : makeXOnly point = some point := by
  cases point <;> simp_all [isXOnly, makeXOnly]

theorem isXOnly_makeXOnly (h : makeXOnly point = some point') : isXOnly point' = true := by
  cases point with
  | uncompressed x _ | xOnly x =>
    simp only [makeXOnly, some.injEq] at h
    subst h
    rfl
  | nothing | fill | compressedY0 _ | compressedY1 _ => cases h

theorem settles_makeXOnly : Settles makeXOnly :=
  fun _ _ h => makeXOnly_of_isXOnly (isXOnly_makeXOnly h)

theorem map_settled {α β : Type} {rewrite : α → Option α} {wrap : α → β}
  {a : α} {b : β} (hs : Settles rewrite) (h : (rewrite a).map wrap = some b) :
  ∃ a', b = wrap a' ∧ rewrite a = some a' ∧ rewrite a' = some a' := by
  obtain ⟨a', ha, rfl⟩ := map_eq_some_iff.1 h
  exact ⟨a', rfl, ha, hs ha⟩

theorem compressIndicator_spec {ind ind' : VerificationKeyIndicator}
  (h : compressIndicator ind = some ind') :
  compressIndicator ind' = some ind' ∧ isIndicatorCompressed ind' = true := by
  unfold compressIndicator at h
  split at h
  -- the four alternatives that hold a point the code compresses
  iterate 4
    obtain ⟨p, rfl, hp, hp'⟩ := map_settled settles_compress h
    exact ⟨by simp only [compressIndicator, hp', map_some], isCompressed_compress hp⟩
  -- everything else is left alone by the rewrite and by the test
  · next h₁ h₂ h₃ h₄ =>
    cases h
    constructor
    · unfold compressIndicator
      split <;> first | rfl | simp_all
    · unfold isIndicatorCompressed
      split <;> first | rfl | simp_all

theorem settles_compressIndicator : Settles compressIndicator :=
  fun _ _ h => (compressIndicator_spec h).1

theorem settles_compressBaseKey : Settles compressBaseKey := by
  intro key key' h
  cases key with
  | eciesNistP256 p | eciesBrainpoolP256r1 p =>
    obtain ⟨p', rfl, -, hp⟩ := map_settled settles_compress h
    simp only [compressBaseKey, hp, map_some]
  | nothing | ecencSm2 p =>
    cases h
    rfl

theorem settles_compressEncryptionKey : Settles compressEncryptionKey := by
  intro key key' h
  obtain ⟨base, rfl, -, hb⟩ := map_settled settles_compressBaseKey h
  simp only [compressEncryptionKey, hb, map_some]

theorem makeSignatureXOnly_spec {sig sig' : Asn1.Signature}
  (h : makeSignatureXOnly sig = some sig') :
  makeSignatureXOnly sig' = some sig' ∧ isSignatureXOnly sig' = true := by
  cases sig with
  | ecdsaNistP256Signature s | ecdsaBrainpoolP256r1Signature s
  | ecdsaBrainpoolP384r1Signature s =>
    obtain ⟨r, rfl, hr, hr'⟩ := map_settled settles_makeXOnly h
    exact ⟨by simp only [makeSignatureXOnly, hr', map_some], isXOnly_makeXOnly hr⟩
  | nothing | ecdsaNistP384Signature _ | sm2Signature _ _
  | fnDsa512Signature _ => cases h

theorem settles_makeSignatureXOnly : Settles makeSignatureXOnly :=
  fun _ _ h => (makeSignatureXOnly_spec h).1

theorem canonicalizeCopy_eq_some : canonicalizeCopy cert = some cert' ↔
    ∃ indicator encryptionKey signature,
      compressIndicator cert.toBeSigned.verifyKeyIndicator = some indicator ∧
      rewriteOptional compressEncryptionKey cert.toBeSigned.encryptionKey = some encryptionKey ∧
      rewriteOptional makeSignatureXOnly cert.signature = some signature ∧ cert' = { cert with
        toBeSigned := { cert.toBeSigned with
          verifyKeyIndicator := indicator
          encryptionKey := encryptionKey }
        signature := signature } := by
  simp only [canonicalizeCopy, bind_eq_bind, bind_eq_some_iff, pure_def, some.injEq]
  constructor
  · rintro ⟨i, hi, e, he, s, hs, rfl⟩
    exact ⟨i, e, s, hi, he, hs, rfl⟩
  · rintro ⟨i, e, s, hi, he, hs, rfl⟩
    exact ⟨i, hi, e, he, s, hs, rfl⟩

theorem settles_canonicalizeCopy : Settles canonicalizeCopy := by
  intro cert cert' h
  obtain ⟨i, e, s, hi, he, hs, rfl⟩ := canonicalizeCopy_eq_some.1 h
  exact canonicalizeCopy_eq_some.2 ⟨i, e, s, settles_compressIndicator hi,
      settles_rewriteOptional settles_compressEncryptionKey he,
      settles_rewriteOptional settles_makeSignatureXOnly hs, rfl⟩

theorem isCanonical_canonicalizeCopy (h : canonicalizeCopy cert = some cert') :
  isCanonical cert' = true := by
  obtain ⟨i, e, s, hi, -, hs, rfl⟩ := canonicalizeCopy_eq_some.1 h
  have hind := (compressIndicator_spec hi).2
  cases hsig : cert.signature with
  | none =>
    rw [hsig] at hs
    cases hs
    simp [isCanonical, hind]
  | some sig =>
    rw [hsig, rewriteOptional] at hs
    obtain ⟨sig', hs', rfl⟩ := map_eq_some_iff.1 hs
    simp [isCanonical, hind, (makeSignatureXOnly_spec hs').2]

theorem getVerificationKeyType_canonicalizeCopy (h : canonicalizeCopy cert = some cert') :
  getVerificationKeyType cert' = getVerificationKeyType cert := by
  obtain ⟨i, e, s, hi, -, -, rfl⟩ := canonicalizeCopy_eq_some.1 h
  unfold compressIndicator at hi
  split at hi
  iterate 4 next hind =>
      obtain ⟨p, rfl, -⟩ := map_settled settles_compress hi
      simp only [getVerificationKeyType, hind]
  · cases hi
    rfl

theorem copyCertificate_eq_some : copyCertificate P cert = some cert' ↔
    (P.codec.encode cert).isSome ∧ cert' = cert := by
  unfold copyCertificate
  cases henc : P.codec.encode cert with
  | none => simp
  | some buffer => simp [P.codec.decode_encode henc, eq_comm]

theorem canonicalize_eq_some : canonicalize P cert = some cert' ↔
    (P.codec.encode cert).isSome ∧ canonicalizeCopy cert = some cert' := by
  unfold canonicalize
  rw [bind_eq_some_iff]
  constructor
  · rintro ⟨copy, hc, h⟩
    obtain ⟨henc, rfl⟩ := copyCertificate_eq_some.1 hc
    exact ⟨henc, h⟩
  · rintro ⟨henc, h⟩
    exact ⟨cert, copyCertificate_eq_some.2 ⟨henc, rfl⟩, h⟩

/-- The octets hashed by `calculateDigest` and by `calculate_message_hash`:
the certificate itself when it counts as canonical, its rewritten form
otherwise. -/
def canonicalEncoding (P : Platform) (cert : Certificate) : Option ByteBuffer :=
  if isCanonical cert then P.codec.encode cert
  else (canonicalize P cert).bind P.codec.encode

theorem canonicalEncoding_ne_nil (h : canonicalEncoding P cert = some buffer) : buffer ≠ [] := by
  unfold canonicalEncoding at h
  split at h
  · exact P.codec.encode_ne_nil h
  · obtain ⟨canonical, -, henc⟩ := bind_eq_some_iff.1 h
    exact P.codec.encode_ne_nil henc

theorem calculateDigest_eq (P : Platform) (cert : Certificate) : calculateDigest P cert =
    (canonicalEncoding P cert).bind fun buffer =>
      digestOfBuffer P buffer (getVerificationKeyType cert) := by
  unfold calculateDigest canonicalEncoding calculateDigestInternal
  by_cases hk : getVerificationKeyType cert = .unspecified
  · simp [hk, digestOfBuffer]
  rw [if_neg hk]
  split
  · rfl
  · rw [bind_assoc]

theorem digestOfBuffer_isSome {keyType : KeyType} :
  (digestOfBuffer P buffer keyType).isSome ↔ keyType ≠ .unspecified := by
  cases keyType <;> simp [digestOfBuffer]

theorem calculateDigest_isSome : (calculateDigest P cert).isSome ↔
    getVerificationKeyType cert ≠ .unspecified ∧ (canonicalEncoding P cert).isSome := by
  rw [calculateDigest_eq]
  cases canonicalEncoding P cert with
  | none => simp
  | some buffer => simp [digestOfBuffer_isSome]

end Vanetza.Security.V3
