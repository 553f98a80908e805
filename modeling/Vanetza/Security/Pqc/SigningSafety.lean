import Mathlib
import Vanetza.Lib.Program
import Vanetza.Security.Pqc.CertificateSigning

/-!
# Signing a certificate in place

The functions that sign change the certificate they are given. All checks come before the first
change, with one exception: `set_primary_signature` looks at the type of the signature only after it
has released the old one.
-/

namespace Vanetza.Security.Pqc

open V3 V3.Asn1 Lib

abbrev Signing (α : Type) := Program Unit Certificate α

def Sized (signature : Security.Signature) : Prop :=
  signature.r.length = keyLength signature.type ∧ signature.s.length = keyLength signature.type

instance instDecidableSized (signature : Security.Signature) : Decidable (Sized signature) :=
  inferInstanceAs (Decidable (_ ∧ _))

def assignPrimarySignature (signature : Security.Signature) : Signing Unit := do
  if ¬Sized signature then throw ()
  else
    -- the old signature is released, the new one is empty
    modify fun cert => { cert with signature := some .nothing }
    match signature.type with
    | .nistP256 => modify fun cert => { cert with
        signature := some (.ecdsaNistP256Signature ⟨.xOnly signature.r, signature.s⟩) }
    | .brainpoolP256r1 => modify fun cert => { cert with
        signature := some (.ecdsaBrainpoolP256r1Signature ⟨.xOnly signature.r, signature.s⟩) }
    | .brainpoolP384r1 => modify fun cert => { cert with
        signature := some (.ecdsaBrainpoolP384r1Signature ⟨.xOnly signature.r, signature.s⟩) }
    | .unspecified => throw ()

def assignAlternativeSignature (signature : Signature) : Signing Unit := do
  if signature.bytes.length ≠ fndsa512SignatureSize then throw ()
  else
    modify clearAlternativeSignature
    modify fun cert => { cert with
      toBeSigned := { cert.toBeSigned with
        altSignatureValue := some (.fnDsa512Signature signature.bytes) } }

def signPrimary (P : Platform) (signers : Signers)
  (issuer : Option Certificate) (issuerKey : Security.PrivateKey) : Signing Unit := do
  let subject ← get
  let signature ← Program.orThrow () (checkedPrimarySignature P signers subject issuer issuerKey)
  assignPrimarySignature signature

def signAlternative (P : Platform) (signers : Signers)
  (issuer : Option Certificate) (issuerKey : PrivateKey) : Signing Unit := do
  let subject ← get
  let signature ← Program.orThrow ()
    (checkedAlternativeSignature P signers subject issuer issuerKey)
  assignAlternativeSignature signature

section Exec

variable {P : Platform} {signers : Signers} {subject : Certificate} {issuer : Option Certificate}

theorem setPrimarySignature_eq_none {sig : Security.Signature} :
  setPrimarySignature subject sig = none ↔ (Sized sig → sig.type = .unspecified) := by
  obtain ⟨r, s, type⟩ := sig
  rw [setPrimarySignature, Sized]
  cases type <;> simp [or_iff_not_imp_left]

theorem exec_assignPrimarySignature (signature : Security.Signature) :
  (assignPrimarySignature signature).exec subject =
    match setPrimarySignature subject signature with
    | some cert => (.ok (), cert)
    | none => (.error (), if Sized signature then
        { subject with signature := some .nothing } else subject) := by
  obtain ⟨r, s, type⟩ := signature
  by_cases hs : Sized ⟨r, s, type⟩
  · have hl : ¬(r.length ≠ keyLength type ∨ s.length ≠ keyLength type) :=
      fun h => h.elim (· hs.1) (· hs.2)
    rw [assignPrimarySignature, if_neg (not_not.2 hs), setPrimarySignature, if_neg hl, if_pos hs]
    cases type <;> rfl
  have hl : r.length ≠ keyLength type ∨ s.length ≠ keyLength type :=
    not_and_or.1 hs
  rw [assignPrimarySignature, if_pos hs, setPrimarySignature, if_pos hl, if_neg hs]
  rfl

theorem exec_assignAlternativeSignature (sig : Signature) :
  (assignAlternativeSignature sig).exec subject =
    match setAlternativeSignature subject sig with
    | some cert => (.ok (), cert)
    | none => (.error (), subject) := by
  rw [assignAlternativeSignature, setAlternativeSignature]
  split <;> rfl

theorem exec_signPrimary (issuerKey : Security.PrivateKey) :
  (signPrimary P signers issuer issuerKey).exec subject =
    match checkedPrimarySignature P signers subject issuer issuerKey with
    | some sig => (assignPrimarySignature sig).exec subject
    | none => (.error (), subject) := by
  refine (Program.exec_bind_ok rfl).trans ?_
  cases checkedPrimarySignature P signers subject issuer issuerKey <;> rfl

theorem exec_signAlternative (issuerKey : PrivateKey) :
  (signAlternative P signers issuer issuerKey).exec subject =
    match checkedAlternativeSignature P signers subject issuer issuerKey with
    | some sig => (assignAlternativeSignature sig).exec subject
    | none => (.error (), subject) := by
  refine (Program.exec_bind_ok rfl).trans ?_
  cases checkedAlternativeSignature P signers subject issuer issuerKey <;> rfl

theorem readable_of_hash {algorithm : HashAlgorithm} {layer : SignatureLayer} {digest : ByteBuffer}
  (h : calculateCertificateHash P signers.ecc algorithm subject issuer layer = some digest) :
  (P.codec.encode subject).isSome ∧ (P.codec.encode (layerInput layer subject)).isSome ∧
    (rewriteOptional makeSignatureXOnly subject.signature).isSome := by
  obtain ⟨-, tbs, -, ht, -⟩ := calculateCertificateHash_eq_some.1 h
  simp only [canonicalTbs, Option.bind_eq_bind, Option.bind_eq_some_iff] at ht
  obtain ⟨_, hc, canonical, hcan, -⟩ := ht
  obtain ⟨hen, heq⟩ := copyCertificate_eq_some.1 hc
  rw [heq] at hcan
  obtain ⟨hr, hf⟩ := canonicalize_eq_some.1 hcan
  obtain ⟨_, _, _, -, -, hsig, -⟩ := canonicalizeCopy_eq_some.1 hf
  have hs : (layerInput layer subject).signature = subject.signature := by cases layer <;> rfl
  rw [hs] at hsig
  exact ⟨hen, hr, by rw [hsig]; rfl⟩

end Exec

structure SafeSigning (P : Platform) (signing : Signing Unit)
  (only : Certificate → Prop) (accepts : Certificate → Bool)
  (subject : Certificate) : Prop where
  throws : ∀ cert, signing.exec subject = (.error (), cert) →
    P.codec.encode cert = P.codec.encode subject
  returns : ∀ cert, signing.exec subject = (.ok (), cert) → only cert ∧ accepts cert = true

namespace SafeSigning

variable {P : Platform} {signing : Signing Unit} {only : Certificate → Prop}
  {accepts : Certificate → Bool} {subject cert : Certificate}

theorem iff_of_error (h : signing.exec subject = (.error (), cert)) :
  SafeSigning P signing only accepts subject ↔ P.codec.encode cert = P.codec.encode subject := by
  refine ⟨fun hs => hs.throws cert h, fun hsa => ⟨?_, ?_⟩⟩
  · intro after hex
    cases h.symm.trans hex
    exact hsa
  · intro after hex
    cases h.symm.trans hex

theorem iff_of_ok (h : signing.exec subject = (.ok (), cert)) :
  SafeSigning P signing only accepts subject ↔ only cert ∧ accepts cert = true := by
  refine ⟨fun hs => hs.returns cert h, fun hsgd => ⟨?_, ?_⟩⟩
  · intro after hex
    cases h.symm.trans hex
  · intro after hex
    cases h.symm.trans hex
    exact hsgd

end SafeSigning

def SafeAlternative (P : Platform) (signers : Signers) (subject : Certificate)
  (issuer : Option Certificate) (issuerKey : PrivateKey) : Prop :=
  SafeSigning P (signAlternative P signers issuer issuerKey)
    (fun cert => ∃ value, cert = { subject with
      toBeSigned := { subject.toBeSigned with altSignatureValue := value } })
    (fun cert => verifyAlternativeCertificate P cert issuer signers.ecc signers.pqc) subject

def SafePrimary (P : Platform) (signers : Signers) (subject : Certificate)
  (issuer : Option Certificate) (issuerKey : Security.PrivateKey) : Prop :=
  SafeSigning P (signPrimary P signers issuer issuerKey)
    (fun cert => ∃ value, cert = { subject with signature := value })
    (fun cert => verifyPrimaryCertificate P cert issuer signers.ecc) subject

structure EncodesSignatures (P : Platform) (signers : Signers)
  (subject : Certificate) (issuerKey : Security.PrivateKey)
  (alternativeKey : PrivateKey) : Prop where
  primary : ∀ digest signature cert, signers.signDigest issuerKey digest = some signature →
    setPrimarySignature subject signature = some cert →
    (P.codec.encode subject).isSome → (P.codec.encode cert).isSome
  alternative : ∀ digest signature cert, signers.sign alternativeKey digest = some signature →
    setAlternativeSignature subject signature = some cert →
    (P.codec.encode subject).isSome → (P.codec.encode cert).isSome
  empty : P.codec.encode { subject with signature := some .nothing } = none

def AnswersInKind (P : Platform) (signers : Signers) (subject : Certificate)
  (issuer : Option Certificate) (issuerKey : Security.PrivateKey) : Prop :=
  ∀ signer key digest signature, signingCertificate subject issuer = some signer →
    (P.codec.encode signer).isSome → getPublicKey signer = some key →
    key.type = issuerKey.type →
    calculateCertificateHash P signers.ecc (specifiedHashAlgorithm key.type)
      subject issuer .primary = some digest →
    signers.signDigest issuerKey digest = some signature →
    signers.ecc.verifyDigest key digest signature = some true →
    Sized signature → signature.type = issuerKey.type

section Safe

variable {P : Platform} {signers : Signers} {subject : Certificate}
  {issuer : Option Certificate} {issuerKey : Security.PrivateKey} {alternativeKey : PrivateKey}

theorem answersInKind_iff : AnswersInKind P signers subject issuer issuerKey ↔
  ∀ sig, checkedPrimarySignature P signers subject issuer issuerKey =
    some sig → Sized sig → sig.type = issuerKey.type := by
  constructor
  · intro h sig hc
    obtain ⟨signer, key, digest, hsig, hen, hk, ht, hd,
      hs, hv⟩ := checkedPrimarySignature_eq_some.1 hc
    exact h signer key digest sig hsig hen hk ht hd hs hv
  · intro h signer key digest sig hsig hen hk ht hd hs hv
    exact h sig (checkedPrimarySignature_eq_some.2 ⟨signer, key, digest,
      hsig, hen, hk, ht, hd, hs, hv⟩)

variable (hP : EncodesSignatures P signers subject issuerKey alternativeKey)

include hP

theorem safeAlternative :
  SafeAlternative P signers subject issuer alternativeKey := by
  have hex := @exec_signAlternative P signers subject issuer alternativeKey
  cases hc : checkedAlternativeSignature P signers subject issuer alternativeKey with
  | none =>
    rw [hc] at hex
    exact (SafeSigning.iff_of_error hex).2 rfl
  | some sig =>
    rw [hc] at hex
    dsimp only at hex
    rw [exec_assignAlternativeSignature] at hex
    obtain ⟨signer, key, digest, -, -, -, hd, hs, -⟩ := checkedAlternativeSignature_spec hc
    obtain ⟨hsub, hcl, hr⟩ := readable_of_hash hd
    cases hset : setAlternativeSignature subject sig with
    | none =>
      rw [hset] at hex
      exact (SafeSigning.iff_of_error hex).2 rfl
    | some signed =>
      rw [hset] at hex
      obtain ⟨heq, -⟩ := setAlternativeSignature_spec hset
      have hsgd : signAlternativeCertificate P signers subject issuer
          alternativeKey = some signed := by
        rw [signAlternativeCertificate, hc]
        exact hset
      refine (SafeSigning.iff_of_ok hex).2 ⟨⟨_, heq⟩,
        verifyAlternativeCertificate_of_signed hsgd rfl rfl
          (hP.alternative _ _ _ hs hset hsub) ?_ ?_⟩
      · rw [heq]
        exact hcl
      · rw [heq]
        exact hr

theorem safePrimary_iff : SafePrimary P signers subject issuer issuerKey ↔
  AnswersInKind P signers subject issuer issuerKey := by
  rw [answersInKind_iff]
  have hex := @exec_signPrimary P signers subject issuer issuerKey
  cases hc : checkedPrimarySignature P signers subject issuer issuerKey with
  | none =>
    rw [hc] at hex
    simp [SafePrimary, SafeSigning.iff_of_error hex]
  | some signature =>
    rw [hc] at hex
    dsimp only at hex
    rw [exec_assignPrimarySignature] at hex
    obtain ⟨signer, key, digest, hsig, hen, hkey, ht, hd,
      hs, hv⟩ := checkedPrimarySignature_eq_some.1 hc
    have hsub := (readable_of_hash hd).1
    simp only [Option.some.injEq, forall_eq']
    cases hset : setPrimarySignature subject signature with
    | none =>
      rw [hset] at hex
      rw [SafePrimary, SafeSigning.iff_of_error hex]
      by_cases hsiz : Sized signature
      · -- the signature has no type, but the key has one
        have hn := setPrimarySignature_eq_none.1 hset hsiz
        have hsp : issuerKey.type ≠ .unspecified := by
          intro hk
          rw [ht, hk] at hd
          exact (calculateCertificateHash_eq_some.1 hd).1 rfl
        obtain ⟨buf, hb⟩ := Option.isSome_iff_exists.1 hsub
        simp [hsiz, hP.empty, hb, hn, hsp.symm]
      · simp [hsiz]
    | some signed =>
      rw [hset] at hex
      obtain ⟨_, heq, -⟩ := setPrimarySignature_spec hset
      rw [SafePrimary, SafeSigning.iff_of_ok hex, verifyPrimaryCertificate,
        verifyPrimaryCertificate_of_set hsig hen hkey hd hset
          (hP.primary _ _ _ hs hset hsub), ht, hv]
      have hsiz : Sized signature := by
        by_contra hnot
        have hn := (@setPrimarySignature_eq_none subject signature).2 fun h => absurd h hnot
        cases hset.symm.trans hn
      by_cases hk : issuerKey.type = signature.type
      · simp [heq, hsiz, hk]
      · simp [hk, hsiz, Ne.symm hk]

end Safe

/-- Signing is safe in both layers if and only if the ECC signer answers with a
signature of the kind it is asked for. -/
theorem signing_safe_iff (P : Platform) (signers : Signers)
  (subject : Certificate) (issuer : Option Certificate)
  (issuerKey : Security.PrivateKey) (alternativeKey : PrivateKey)
  (hP : EncodesSignatures P signers subject issuerKey alternativeKey) :
  SafeAlternative P signers subject issuer alternativeKey ∧
      SafePrimary P signers subject issuer issuerKey ↔
    AnswersInKind P signers subject issuer issuerKey := by
  rw [safePrimary_iff hP]
  exact and_iff_right (safeAlternative hP)

def repeatingSigners (signature : Security.Signature) : Signers :=
  ⟨⟨fun _ _ => some [], fun _ _ _ => some true⟩, fun _ _ => some signature,
    ⟨fun _ _ _ => some true⟩, fun _ _ => none⟩

def signedSample : Certificate :=
  { fakeCertificate with signature := some (.ecdsaNistP256Signature
      ⟨.xOnly (List.replicate 32 0), List.replicate 32 0⟩) }

def foreignSample : Certificate :=
  { fakeCertificate with signature := some (.ecdsaBrainpoolP256r1Signature
      ⟨.xOnly (List.replicate 32 0), List.replicate 32 0⟩) }

def signedPlatform : Platform :=
  Platform.ofTable [fakeCertificate, signedSample, foreignSample] (by decide)

theorem signing_safe_sample :
  let signers := repeatingSigners ⟨List.replicate 32 0, List.replicate 32 0, .nistP256⟩
  SafeAlternative signedPlatform signers fakeCertificate none ⟨[]⟩ ∧
    SafePrimary signedPlatform signers fakeCertificate none ⟨.nistP256, []⟩ := by
  intro signers
  refine (signing_safe_iff signedPlatform signers fakeCertificate none
    ⟨.nistP256, []⟩ ⟨[]⟩ ⟨?_, ?_, ?_⟩).2 ?_
  · intro digest sig cert hs hset _
    cases hs
    cases hset
    decide +kernel
  · intro digest sig cert hs
    cases hs
  · decide +kernel
  · intro signer key digest sig _ _ _ _ _ hs _ _
    cases hs
    rfl

/-- A certificate that is signed already loses its signature, and with it its
encoding, when the backend answers with a signature of no type. With one of
another type, what was just signed is rejected. -/
theorem signing_unsafe :
  let key : Security.PrivateKey := ⟨.nistP256, []⟩
  let untyped := repeatingSigners ⟨[], [], .unspecified⟩
  let foreign := repeatingSigners ⟨List.replicate 32 0, List.replicate 32 0, .brainpoolP256r1⟩
  let emptied := { signedSample with signature := some .nothing }
  (signPrimary signedPlatform untyped none key).exec signedSample = (.error (), emptied) ∧
    signedPlatform.codec.encode signedSample = some [1] ∧
    signedPlatform.codec.encode emptied = none ∧
    (signPrimary signedPlatform foreign none key).exec signedSample = (.ok (), foreignSample) ∧
    verifyPrimaryCertificate signedPlatform foreignSample none foreign.ecc = false := by
  refine ⟨rfl, ?_, ?_, rfl, ?_⟩ <;> decide +kernel

end Vanetza.Security.Pqc
