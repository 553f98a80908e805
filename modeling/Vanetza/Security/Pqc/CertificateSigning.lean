import Vanetza.Security.Pqc.HybridCertificate

/-!
# Signing a certificate in two layers

The FN-DSA signature is made first, over the certificate without it, and put into the to-be-signed
part; the ECC signature covers the result and is put outside. Signer and verifier hash the same
octets because putting a signature in changes nothing else.
-/

namespace Vanetza.Security

structure PrivateKey where
  type : KeyType
  key : ByteBuffer

def keyLength : KeyType → Nat
  | .nistP256 | .brainpoolP256r1 => 32
  | .brainpoolP384r1 => 48
  | .unspecified => 0

namespace Pqc

open V3 V3.Asn1 Option

structure PrivateKey where
  bytes : ByteBuffer

structure Signers where
  ecc : Security.Backend
  signDigest : Security.PrivateKey → ByteBuffer → Option Security.Signature
  pqc : Backend
  sign : PrivateKey → ByteBuffer → Option Signature

def Signers.Typed (signers : Signers) : Prop :=
  ∀ key digest signature, signers.signDigest key digest = some signature → signature.type = key.type

def setPrimarySignature (cert : Certificate)
  (signature : Security.Signature) : Option Certificate :=
  if signature.r.length ≠ keyLength signature.type ∨
      signature.s.length ≠ keyLength signature.type then none
  else match signature.type with
    | .nistP256 => some { cert with
        signature := some (.ecdsaNistP256Signature ⟨.xOnly signature.r, signature.s⟩) }
    | .brainpoolP256r1 => some { cert with
        signature := some (.ecdsaBrainpoolP256r1Signature ⟨.xOnly signature.r, signature.s⟩) }
    | .brainpoolP384r1 => some { cert with
        signature := some (.ecdsaBrainpoolP384r1Signature ⟨.xOnly signature.r, signature.s⟩) }
    | .unspecified => none

def setAlternativePublicKey (cert : Certificate) (key : PublicKey) : Option Certificate :=
  if key.bytes.length ≠ fndsa512PublicKeySize then none
  else some { cert with
    toBeSigned := { cert.toBeSigned with
      altVerificationKey := some (.fnDsa512 key.bytes) } }

def setAlternativeSignature (cert : Certificate) (signature : Signature) : Option Certificate :=
  if signature.bytes.length ≠ fndsa512SignatureSize then none
  else some { cert with
    toBeSigned := { cert.toBeSigned with
      altSignatureValue := some (.fnDsa512Signature signature.bytes) } }

/-- The signature that `sign_primary_certificate` has made and checked. -/
def checkedPrimarySignature (P : Platform) (signers : Signers)
  (subject : Certificate) (issuer : Option Certificate)
  (issuerKey : Security.PrivateKey) : Option Security.Signature := do
  let signer ← signingCertificate subject issuer
  let signerCopy ← copyCertificate P signer
  let publicKey ← getPublicKey signerCopy
  if publicKey.type ≠ issuerKey.type then none
  else do
    let digest ← calculateCertificateHash P signers.ecc
      (specifiedHashAlgorithm issuerKey.type) subject issuer .primary
    let signature ← signers.signDigest issuerKey digest
    let verified ← signers.ecc.verifyDigest publicKey digest signature
    if verified then some signature else none

/-- The signature that `sign_alternative_certificate` has made and checked. -/
def checkedAlternativeSignature (P : Platform) (signers : Signers)
  (subject : Certificate) (issuer : Option Certificate)
  (issuerKey : PrivateKey) : Option Signature := do
  let signer ← signingCertificate subject issuer
  let publicKey ← getAlternativePublicKey P signer
  let digest ← calculateCertificateHash P signers.ecc .sha256 subject issuer .alternative
  let signature ← signers.sign issuerKey digest
  let verified ← signers.pqc.verify publicKey digest signature
  if verified then some signature else none

def signPrimaryCertificate (P : Platform) (signers : Signers)
    (subject : Certificate) (issuer : Option Certificate)
    (issuerKey : Security.PrivateKey) : Option Certificate :=
  (checkedPrimarySignature P signers subject issuer issuerKey).bind (setPrimarySignature subject)

def signAlternativeCertificate (P : Platform) (signers : Signers)
    (subject : Certificate) (issuer : Option Certificate)
    (issuerKey : PrivateKey) : Option Certificate :=
  (checkedAlternativeSignature P signers subject issuer issuerKey).bind
    (setAlternativeSignature subject)

variable {cert subject cert' : Certificate} {signature : Security.Signature}
  {issuerKey : Security.PrivateKey} {P : Platform} {digest : ByteBuffer}

theorem setPrimarySignature_spec (h : setPrimarySignature cert signature = some cert') :
  ∃ sig, cert' = { cert with signature := some sig } ∧
    makeSignatureXOnly sig = some sig ∧ signatureOf sig = some signature := by
  unfold setPrimarySignature at h
  split at h
  · cases h
  split at h
  iterate 3 next ht =>
      cases h
      refine ⟨_, rfl, rfl, ?_⟩
      simp only [signatureOf, getXCoordinate, ← ht]
  · cases h

theorem setAlternativeSignature_spec {signature : Signature}
  (h : setAlternativeSignature cert signature = some cert') :
  cert' = { cert with toBeSigned := { cert.toBeSigned with
      altSignatureValue := some (.fnDsa512Signature signature.bytes) } } ∧
    extractAlternativeSignature cert' = some signature := by
  unfold setAlternativeSignature at h
  split at h
  · cases h
  · next hs =>
    cases h
    exact ⟨rfl, if_pos (not_not.1 hs)⟩

section Signing

variable {P : Platform} {signers : Signers} {subject cert : Certificate}
  {issuer : Option Certificate}

theorem checkedPrimarySignature_eq_some :
  checkedPrimarySignature P signers subject issuer issuerKey =
    some signature ↔ ∃ signer key digest, signingCertificate subject issuer = some signer ∧
      (P.codec.encode signer).isSome ∧ getPublicKey signer = some key ∧
      key.type = issuerKey.type ∧ calculateCertificateHash P signers.ecc
        (specifiedHashAlgorithm key.type) subject issuer .primary = some digest ∧
      signers.signDigest issuerKey digest = some signature ∧
      signers.ecc.verifyDigest key digest signature = some true := by
  simp only [checkedPrimarySignature, bind_eq_bind, bind_eq_some_iff]
  constructor
  · rintro ⟨signer, hsig, copy, hc, key, hk, h⟩
    obtain ⟨hen, rfl⟩ := copyCertificate_eq_some.1 hc
    split at h
    · cases h
    next ht =>
    rw [not_not] at ht
    simp only [bind_eq_some_iff, ite_none_right_eq_some] at h
    obtain ⟨digest, hd, _, hs, _, hv, rfl, ⟨⟩⟩ := h
    rw [← ht] at hd
    exact ⟨copy, key, digest, hsig, hen, hk, ht, hd, hs, hv⟩
  · rintro ⟨signer, key, digest, hsig, hen, hk, ht, hd, hs, hv⟩
    rw [ht] at hd
    refine ⟨signer, hsig, signer, copyCertificate_eq_some.2 ⟨hen, rfl⟩, key, hk, ?_⟩
    simp [ht, hd, hs, hv]

theorem checkedAlternativeSignature_spec {issuerKey : PrivateKey} {signature : Signature}
  (h : checkedAlternativeSignature P signers subject issuer issuerKey = some signature) :
  ∃ signer key digest, signingCertificate subject issuer = some signer ∧
    (P.codec.encode signer).isSome ∧ extractAlternativePublicKey signer = some key ∧
    calculateCertificateHash P signers.ecc .sha256 subject issuer .alternative = some digest ∧
    signers.sign issuerKey digest = some signature ∧
    signers.pqc.verify key digest signature = some true := by
  simp only [checkedAlternativeSignature, bind_eq_bind,
    bind_eq_some_iff, ite_none_right_eq_some] at h
  obtain ⟨signer, hsig, key, hg, digest, hd, _, hs, _, hv, rfl, ⟨⟩⟩ := h
  obtain ⟨copy, hc, hk⟩ := bind_eq_some_iff.1 hg
  obtain ⟨hen, rfl⟩ := copyCertificate_eq_some.1 hc
  exact ⟨copy, key, digest, hsig, hen, hk, hd, hs, hv⟩

end Signing

structure Compressed (tbs : ToBeSignedCertificate) : Prop where
  indicator : compressIndicator tbs.verifyKeyIndicator = some tbs.verifyKeyIndicator
  encryptionKey : rewriteOptional compressEncryptionKey tbs.encryptionKey = some tbs.encryptionKey

structure Finished (P : Platform) (cert : Certificate) : Prop where
  compressed : Compressed cert.toBeSigned
  xOnly : rewriteOptional makeSignatureXOnly cert.signature = some cert.signature
  encodes : (P.codec.encode cert).isSome
  clears : (P.codec.encode (clearAlternativeSignature cert)).isSome

theorem canonicalizeCopy_of_compressed (h : Compressed cert.toBeSigned)
  (hs : rewriteOptional makeSignatureXOnly cert.signature =
    some cert.signature) : canonicalizeCopy cert = some cert :=
  canonicalizeCopy_eq_some.2 ⟨_, _, _, h.indicator, h.encryptionKey, hs, rfl⟩

theorem canonicalTbs_of_input {layer : SignatureLayer} {octets : ByteBuffer}
  (hen : (P.codec.encode cert).isSome) (hr : (P.codec.encode (layerInput layer cert)).isSome)
  (hsig : (rewriteOptional makeSignatureXOnly cert.signature).isSome)
  (hinp : (layerInput layer cert).toBeSigned = (layerInput layer subject).toBeSigned)
  (h : canonicalTbs P subject layer = some octets) :
  canonicalTbs P cert layer = some octets := by
  obtain ⟨canonical, hcan, henc⟩ := canonicalTbs_spec h
  obtain ⟨indicator, key, _, hi, hk, -, rfl⟩ := canonicalizeCopy_eq_some.1 hcan
  obtain ⟨signature, hs⟩ := isSome_iff_exists.1 hsig
  have hsa : (layerInput layer cert).signature = cert.signature := by cases layer <;> rfl
  rw [← hinp] at hi hk henc
  rw [← hsa] at hs
  have hc := canonicalizeCopy_eq_some.2 ⟨indicator, key, signature, hi, hk, hs, rfl⟩
  simp only [canonicalTbs, bind_eq_bind, copyCertificate_eq_some.2 ⟨hen, rfl⟩, bind_some,
    canonicalize_eq_some.2 ⟨hr, hc⟩]
  exact henc

theorem canonicalIssuer_congr {a b : Certificate} (h : a.issuer = b.issuer)
  (issuer : Option Certificate) :
  canonicalIssuer P a issuer = canonicalIssuer P b issuer := by
  have hs : issuerIsSelf a = issuerIsSelf b := by simp only [issuerIsSelf, h]
  have hd : issuerDigest a = issuerDigest b := by simp only [issuerDigest, h]
  unfold canonicalIssuer
  rw [hs, hd]

theorem calculateCertificateHash_of_input {backend : Security.Backend}
  {algorithm : HashAlgorithm} {issuer : Option Certificate}
  (layer : SignatureLayer) (hen : (P.codec.encode cert).isSome)
  (hr : (P.codec.encode (layerInput layer cert)).isSome)
  (hsig : (rewriteOptional makeSignatureXOnly cert.signature).isSome)
  (hiss : cert.issuer = subject.issuer)
  (hinp : (layerInput layer cert).toBeSigned = (layerInput layer subject).toBeSigned)
  (hh : calculateCertificateHash P backend algorithm subject issuer layer = some digest) :
  calculateCertificateHash P backend algorithm cert issuer layer = some digest := by
  obtain ⟨ha, tbs, signer, ht, hs, hl⟩ := calculateCertificateHash_eq_some.1 hh
  refine calculateCertificateHash_eq_some.2 ⟨ha, tbs, signer,
    canonicalTbs_of_input hen hr hsig hinp ht, ?_, hl⟩
  rw [canonicalIssuer_congr hiss, hs]

section Verified

variable {P : Platform} {signers : Signers} {subject signed cert : Certificate}
  {issuer : Option Certificate}

variable {signer : Certificate}

theorem signer_of_completed {α : Type} {key : Certificate → Option α}
  (hcert : (P.codec.encode cert).isSome)
  (hiss : cert.issuer = subject.issuer) (hk : key cert = key subject)
  (hsig : signingCertificate subject issuer = some signer) (hen : (P.codec.encode signer).isSome) :
  ∃ seen, signingCertificate cert issuer = some seen ∧
    copyCertificate P seen = some seen ∧ key seen = key signer := by
  have hs : issuerIsSelf cert = issuerIsSelf subject := by simp only [issuerIsSelf, hiss]
  unfold signingCertificate at hsig ⊢
  rw [hs]
  split
  · next h =>
    rw [if_pos h] at hsig
    cases hsig
    exact ⟨cert, rfl, copyCertificate_eq_some.2 ⟨hcert, rfl⟩, hk⟩
  · next h =>
    rw [if_neg h] at hsig
    exact ⟨signer, hsig, copyCertificate_eq_some.2 ⟨hen, rfl⟩, rfl⟩

theorem verifyPrimaryCertificate_of_set {key : Security.PublicKey}
  (hsgn : signingCertificate subject issuer = some signer)
  (hen : (P.codec.encode signer).isSome) (hk : getPublicKey signer = some key)
  (hd : calculateCertificateHash P signers.ecc
    (specifiedHashAlgorithm key.type) subject issuer .primary = some digest)
  (hset : setPrimarySignature subject signature = some cert)
  (hcert : (P.codec.encode cert).isSome) :
  tryVerifyPrimary P cert issuer signers.ecc =
    if key.type ≠ signature.type then some false
    else signers.ecc.verifyDigest key digest signature := by
  obtain ⟨sig, hsub, hx, hsig⟩ := setPrimarySignature_spec hset
  have hiss : cert.issuer = subject.issuer := by rw [hsub]
  have ht : cert.toBeSigned = subject.toBeSigned := by rw [hsub]
  have hg : getSignature cert = some signature := by rw [hsub]; exact hsig
  have hr : (rewriteOptional makeSignatureXOnly cert.signature).isSome := by
    rw [hsub, rewriteOptional, hx]
    rfl
  have hinp : (layerInput .primary cert).toBeSigned = (layerInput .primary subject).toBeSigned := ht
  have hh := calculateCertificateHash_of_input .primary hcert hcert hr hiss hinp hd
  have hs : getPublicKey cert = getPublicKey subject := by
    unfold getPublicKey
    rw [ht]
  obtain ⟨seen, hse, hc, hsee⟩ := signer_of_completed hcert hiss hs hsgn hen
  simp only [tryVerifyPrimary, bind_eq_bind, hse, bind_some,
    hc, copyCertificate_eq_some.2 ⟨hcert, rfl⟩, hsee.trans hk, hg, hh]
  rfl

theorem verifyPrimaryCertificate_of_signed (htyp : signers.Typed)
  (hsgd : signPrimaryCertificate P signers subject issuer issuerKey =
    some cert) (hcert : (P.codec.encode cert).isSome) :
  verifyPrimaryCertificate P cert issuer signers.ecc = true := by
  rw [signPrimaryCertificate] at hsgd
  obtain ⟨signature, hc, hset⟩ := bind_eq_some_iff.1 hsgd
  obtain ⟨signer, key, digest, hsig, hen, hkey, ht, hd, hs,
    hv⟩ := checkedPrimarySignature_eq_some.1 hc
  have hk : key.type = signature.type := ht.trans (htyp _ _ _ hs).symm
  rw [verifyPrimaryCertificate, verifyPrimaryCertificate_of_set hsig
    hen hkey hd hset hcert, if_neg (not_not.2 hk), hv]
  rfl

theorem verifyAlternativeCertificate_of_signed {issuerKey : PrivateKey}
  (hsgd : signAlternativeCertificate P signers subject issuer issuerKey =
    some signed) (hiss : cert.issuer = signed.issuer) (ht : cert.toBeSigned = signed.toBeSigned)
  (hcert : (P.codec.encode cert).isSome)
  (hcl : (P.codec.encode (clearAlternativeSignature cert)).isSome)
  (hr : (rewriteOptional makeSignatureXOnly cert.signature).isSome) :
  verifyAlternativeCertificate P cert issuer signers.ecc signers.pqc = true := by
  rw [signAlternativeCertificate] at hsgd
  obtain ⟨signature, hc, hset⟩ := bind_eq_some_iff.1 hsgd
  obtain ⟨signer, key, digest, hsgn, hen, hk, hd, -, hv⟩ := checkedAlternativeSignature_spec hc
  obtain ⟨hsub, hsig⟩ := setAlternativeSignature_spec hset
  have hiss : cert.issuer = subject.issuer := by rw [hiss, hsub]
  have hg : extractAlternativeSignature cert = some signature := by
    rw [extractAlternativeSignature, ht]
    exact hsig
  rw [hsub] at ht
  have hinp : (layerInput .alternative cert).toBeSigned =
      (layerInput .alternative subject).toBeSigned := by
    simp only [layerInput, clearAlternativeSignature, ht]
  have hh := calculateCertificateHash_of_input .alternative hcert hcl hr hiss hinp hd
  have hs : extractAlternativePublicKey cert = extractAlternativePublicKey subject := by
    unfold extractAlternativePublicKey
    rw [ht]
  obtain ⟨seen, hse, hco, hsee⟩ := signer_of_completed hcert hiss hs hsgn hen
  have htry : tryVerifyAlternative P cert issuer signers.ecc signers.pqc = some true := by
    simp only [tryVerifyAlternative, bind_eq_bind, hse,
      bind_some, getAlternativePublicKey, getAlternativeSignature,
      hco, copyCertificate_eq_some.2 ⟨hcert, rfl⟩, hsee.trans hk, hg, hh]
    exact hv
  rw [verifyAlternativeCertificate, htry]
  rfl

end Verified

end Pqc

end Vanetza.Security
