import Mathlib
import Vanetza.Security.Pqc.HybridCertificate

/-!
# What a certificate hash pins down

The hash that a layer signs is a hash of two hashes. As long as nothing that is hashed on the way
collides, its value determines what went in: the canonical to-be-signed part, which the FN-DSA layer
takes without its own signature, and the canonical issuer.
-/

namespace Vanetza.Security

namespace Backend

variable {backend : Backend} {algorithm : HashAlgorithm}

def FixedLength (backend : Backend) (algorithm : HashAlgorithm) : Prop :=
  ∃ length, ∀ input hash, backend.calculateHash algorithm input = some hash → hash.length = length

def CollisionFree (backend : Backend) (algorithm : HashAlgorithm)
  (inputs : List ByteBuffer) : Prop :=
  ∀ a ∈ inputs, ∀ b ∈ inputs, ∀ hash, backend.calculateHash algorithm a = some hash →
    backend.calculateHash algorithm b = some hash → a = b

def layeredInputs (backend : Backend) (algorithm : HashAlgorithm)
  (data signer : ByteBuffer) : List ByteBuffer :=
  [data, signer, (backend.calculateHash algorithm data).getD [] ++
    (backend.calculateHash algorithm signer).getD []]

theorem layeredHash_eq_some {data signer digest : ByteBuffer} :
  backend.layeredHash algorithm data signer = some digest ↔ ∃ dataHash signerHash,
      backend.calculateHash algorithm data = some dataHash ∧
      backend.calculateHash algorithm signer = some signerHash ∧
      backend.calculateHash algorithm (dataHash ++ signerHash) = some digest := by
  simp [layeredHash, Option.bind_eq_some_iff]

theorem layeredHash_inj (hl : backend.FixedLength algorithm)
  {data₁ data₂ signer₁ signer₂ digest : ByteBuffer}
  (hf : backend.CollisionFree algorithm (backend.layeredInputs algorithm data₁ signer₁ ++
      backend.layeredInputs algorithm data₂ signer₂))
  (h₁ : backend.layeredHash algorithm data₁ signer₁ = some digest)
  (h₂ : backend.layeredHash algorithm data₂ signer₂ = some digest) :
  data₁ = data₂ ∧ signer₁ = signer₂ := by
  obtain ⟨d₁, s₁, hd₁, hs₁, h₁⟩ := layeredHash_eq_some.1 h₁
  obtain ⟨d₂, s₂, hd₂, hs₂, h₂⟩ := layeredHash_eq_some.1 h₂
  obtain ⟨length, hl⟩ := hl
  have hj := hf _ (by simp [layeredInputs, hd₁, hs₁]) _
    (by simp [layeredInputs, hd₂, hs₂]) digest h₁ h₂
  obtain ⟨rfl, rfl⟩ := List.append_inj hj ((hl _ _ hd₁).trans (hl _ _ hd₂).symm)
  exact ⟨hf _ (by simp [layeredInputs]) _ (by simp [layeredInputs]) d₁ hd₁
    hd₂, hf _ (by simp [layeredInputs]) _ (by simp [layeredInputs]) s₁ hs₁ hs₂⟩

end Backend

namespace Pqc

open V3 V3.Asn1

section Binding

variable {P : Platform} {layer : SignatureLayer}
  {subject₁ subject₂ : Certificate} {issuer₁ issuer₂ : Option Certificate}

def certificateHashInputs (P : Platform) (backend : Security.Backend)
  (algorithm : HashAlgorithm) (subject : Certificate)
  (issuer : Option Certificate) (layer : SignatureLayer) : List ByteBuffer :=
  backend.layeredInputs algorithm ((canonicalTbs P subject layer).getD [])
    ((canonicalIssuer P subject issuer).getD [])

theorem canonicalizeCopy_layerInput {subject canonical : Certificate}
  (h : canonicalizeCopy (layerInput layer subject) = some canonical) :
  ∃ whole, canonicalizeCopy subject = some whole ∧ canonical = layerInput layer whole := by
  cases layer with
  | primary => exact ⟨canonical, h, rfl⟩
  | alternative =>
    obtain ⟨indicator, key, sig, hi, hk, hs, rfl⟩ := canonicalizeCopy_eq_some.1 h
    exact ⟨_, canonicalizeCopy_eq_some.2 ⟨indicator, key, sig, hi, hk, hs, rfl⟩, rfl⟩

def SameTbs (layer : SignatureLayer) (subject₁ subject₂ : Certificate) : Prop :=
  ∃ canonical₁ canonical₂, canonicalizeCopy subject₁ = some canonical₁ ∧
    canonicalizeCopy subject₂ = some canonical₂ ∧
    (layerInput layer canonical₁).toBeSigned = (layerInput layer canonical₂).toBeSigned

def SameIssuer (subject₁ subject₂ : Certificate) (issuer₁ issuer₂ : Option Certificate) : Prop :=
  (issuerIsSelf subject₁ = true ∧ issuerIsSelf subject₂ = true) ∨
    (issuerIsSelf subject₁ = false ∧ issuerIsSelf subject₂ = false ∧
      ∃ signer₁ signer₂ canonical, issuer₁ = some signer₁ ∧
        issuer₂ = some signer₂ ∧ canonicalizeCopy signer₁ = some canonical ∧
        canonicalizeCopy signer₂ = some canonical)

theorem sameTbs_of_canonicalTbs (ht : ∀ a b octets, P.codec.encodeTbs a = some octets →
    P.codec.encodeTbs b = some octets → a = b) {octets : ByteBuffer}
  (h₁ : canonicalTbs P subject₁ layer = some octets)
  (h₂ : canonicalTbs P subject₂ layer = some octets) :
  SameTbs layer subject₁ subject₂ := by
  obtain ⟨canonical₁, hc₁, he₁⟩ := canonicalTbs_spec h₁
  obtain ⟨canonical₂, hc₂, he₂⟩ := canonicalTbs_spec h₂
  obtain ⟨whole₁, hw₁, rfl⟩ := canonicalizeCopy_layerInput hc₁
  obtain ⟨whole₂, hw₂, rfl⟩ := canonicalizeCopy_layerInput hc₂
  exact ⟨whole₁, whole₂, hw₁, hw₂, ht _ _ _ he₁ he₂⟩

theorem sameIssuer_of_canonicalIssuer {octets : ByteBuffer}
  (h₁ : canonicalIssuer P subject₁ issuer₁ = some octets)
  (h₂ : canonicalIssuer P subject₂ issuer₂ = some octets) :
  SameIssuer subject₁ subject₂ issuer₁ issuer₂ := by
  rcases canonicalIssuer_cases h₁ with
    ⟨hs₁, rfl⟩ | ⟨hs₁, signer₁, canonical₁, hi₁, hc₁, he₁⟩
  · rcases canonicalIssuer_cases h₂ with
      ⟨hs₂, -⟩ | ⟨-, _, _, -, -, henc⟩
    · exact .inl ⟨hs₁, hs₂⟩
    · exact absurd rfl (P.codec.encode_ne_nil henc)
  rcases canonicalIssuer_cases h₂ with
    ⟨-, rfl⟩ | ⟨hs₂, signer₂, canonical₂, hi₂, hc₂, he₂⟩
  · exact absurd rfl (P.codec.encode_ne_nil he₁)
  · have heq := P.codec.encode_inj he₁ he₂
    exact .inr ⟨hs₁, hs₂, signer₁, signer₂, canonical₁, hi₁, hi₂, hc₁, heq ▸ hc₂⟩

theorem SameTbs.alternative (h : SameTbs .primary subject₁ subject₂) :
  subject₁.toBeSigned.altVerificationKey = subject₂.toBeSigned.altVerificationKey ∧
    subject₁.toBeSigned.altSignatureValue = subject₂.toBeSigned.altSignatureValue := by
  obtain ⟨canonical₁, canonical₂, hc₁, hc₂, hs⟩ := h
  obtain ⟨_, _, _, -, -, -, rfl⟩ := canonicalizeCopy_eq_some.1 hc₁
  obtain ⟨_, _, _, -, -, -, rfl⟩ := canonicalizeCopy_eq_some.1 hc₂
  have hk := congrArg ToBeSignedCertificate.altVerificationKey hs
  have hsig := congrArg ToBeSignedCertificate.altSignatureValue hs
  exact ⟨hk, hsig⟩

end Binding

/-- Equal hashes come from the same signed data and the same issuer. -/
theorem certificateHash_binding (P : Platform) (backend : Security.Backend)
  (algorithm : HashAlgorithm) (layer : SignatureLayer)
  (htbs : ∀ a b octets, P.codec.encodeTbs a = some octets →
    P.codec.encodeTbs b = some octets → a = b) (hlength : backend.FixedLength algorithm)
  (subject₁ subject₂ : Certificate) (issuer₁ issuer₂ : Option Certificate)
  (hfree : backend.CollisionFree algorithm
    (certificateHashInputs P backend algorithm subject₁ issuer₁ layer ++
      certificateHashInputs P backend algorithm subject₂ issuer₂ layer))
  (digest₁ digest₂ : ByteBuffer)
  (h₁ : calculateCertificateHash P backend algorithm subject₁ issuer₁ layer = some digest₁)
  (h₂ : calculateCertificateHash P backend algorithm subject₂ issuer₂ layer = some digest₂) :
  (digest₁ = digest₂ → SameTbs layer subject₁ subject₂ ∧
    SameIssuer subject₁ subject₂ issuer₁ issuer₂) ∧
  (layer = .primary → subject₁.toBeSigned.altVerificationKey ≠
        subject₂.toBeSigned.altVerificationKey ∨
      subject₁.toBeSigned.altSignatureValue ≠ subject₂.toBeSigned.altSignatureValue →
    digest₁ ≠ digest₂) := by
  have hs : digest₁ = digest₂ → SameTbs layer subject₁ subject₂ ∧
      SameIssuer subject₁ subject₂ issuer₁ issuer₂ := by
    intro heq
    obtain ⟨-, tbs₁, signer₁, ht₁, hs₁, hh₁⟩ := calculateCertificateHash_eq_some.1 h₁
    obtain ⟨-, tbs₂, signer₂, ht₂, hs₂, hh₂⟩ := calculateCertificateHash_eq_some.1 h₂
    simp only [certificateHashInputs, ht₁, ht₂, hs₁, hs₂, Option.getD_some] at hfree
    obtain ⟨rfl, rfl⟩ := Backend.layeredHash_inj hlength hfree (heq ▸ hh₁) hh₂
    exact ⟨sameTbs_of_canonicalTbs htbs ht₁ ht₂, sameIssuer_of_canonicalIssuer hs₁ hs₂⟩
  refine ⟨hs, ?_⟩
  rintro rfl hd heq
  obtain ⟨hk, hsig⟩ := (hs heq).1.alternative
  exact hd.elim (absurd hk) (absurd hsig)

def hybridSample : Certificate :=
  { fakeCertificate with
    toBeSigned := { fakeCertificate.toBeSigned with
      altSignatureValue := some (.fnDsa512Signature [7]) } }

def samplePair : Platform :=
  { Platform.ofTable [hybridSample, fakeCertificate] (by decide) with
    codec := { Codec.ofTable [hybridSample, fakeCertificate] (by decide) with
      encodeTbs := fun tbs =>
        if tbs = hybridSample.toBeSigned then some [0]
        else if tbs = fakeCertificate.toBeSigned then some [1] else none } }

def tallyBackend : Security.Backend :=
  ⟨fun _ input => some [UInt8.ofNat (16 * input.length) + input.sum], fun _ _ _ => none⟩

theorem certificateHash_stripped :
  calculateCertificateHash samplePair tallyBackend .sha256 hybridSample none .primary = some [48] ∧
  calculateCertificateHash samplePair tallyBackend .sha256 fakeCertificate
    none .primary = some [49] ∧ ([48] : ByteBuffer) ≠ [49] := by
  have ht : ∀ a b octets, samplePair.codec.encodeTbs a = some octets →
      samplePair.codec.encodeTbs b = some octets → a = b := by
    intro a b octets
    dsimp only [samplePair]
    generalize hybridSample.toBeSigned = x, fakeCertificate.toBeSigned = y
    intro ha hb
    split_ifs at ha hb <;> grind
  have h₁ : calculateCertificateHash samplePair tallyBackend .sha256
    hybridSample none .primary = some [48] := by decide +kernel
  have h₂ : calculateCertificateHash samplePair tallyBackend .sha256
    fakeCertificate none .primary = some [49] := by decide +kernel
  have hinp : ∀ a ∈ [[0], [], [16, 0], [1], [], [17, 0]],
      ∀ b ∈ [[0], [], [16, 0], [1], [], [17, 0]], tallyBackend.calculateHash .sha256 a =
          tallyBackend.calculateHash .sha256 b → a = b := by
    decide
  have hl : certificateHashInputs samplePair tallyBackend .sha256
      hybridSample none .primary ++ certificateHashInputs samplePair
      tallyBackend .sha256 fakeCertificate none .primary =
      [[0], [], [16, 0], [1], [], [17, 0]] := by decide +kernel
  have hd : hybridSample.toBeSigned.altSignatureValue ≠
      fakeCertificate.toBeSigned.altSignatureValue := by decide
  refine ⟨h₁, h₂, (certificateHash_binding samplePair tallyBackend .sha256
    .primary ht ⟨1, ?_⟩ hybridSample fakeCertificate none none ?_ [48] [49] h₁ h₂).2 rfl (.inr hd)⟩
  · rintro input hash heq
    cases heq
    rfl
  · rw [hl]
    exact fun a ha b hb hash hha hhb => hinp a ha b hb (hha.trans hhb.symm)

end Pqc

end Vanetza.Security
