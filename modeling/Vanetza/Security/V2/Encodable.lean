import Vanetza.Lib.Returns
import Vanetza.Security.V2.SecuredMessage

/-!
# What can be written

Writing a certificate throws exactly when a reconstruction value is among the subject attributes of
it or of a certificate it carries.
-/

namespace Vanetza.Security.V2

open InputArchive Lib Lib.Decoder Returns SignerInfo

def Certificate.Encodable (cert : Certificate) : Prop :=
  Returns cert.signerInfo.serialize ∧ ∀ sub ∈ cert.subjectAttributes, Returns sub.serialize

theorem serializeAttributes_returns {attrs : List SubjectAttribute} :
  Returns (serializeAttributes attrs) ↔ ∀ sub ∈ attrs, Returns sub.serialize := by
  unfold serializeAttributes
  rw [bind_iff_left fun _ => pure _, mapM_iff]

namespace Certificate

variable {cert : Certificate}

theorem serialize_returns : Returns cert.serialize ↔ cert.Encodable := by
  cases cert with
  | mk signer subject attrs restrs sig =>
    rw [Certificate.serialize, Encodable, ← serializeAttributes_returns]
    exact bind_iff_and fun _ =>
      bind_iff_left fun _ => pure _

theorem convertForSigning_returns : Returns cert.convertForSigning ↔ cert.Encodable := by
  rw [convertForSigning, Encodable, ← serializeAttributes_returns]
  exact bind_iff_and fun _ =>
    bind_iff_left fun _ => pure _

theorem encodable_canonical : cert.canonical.Encodable ↔ cert.Encodable := Iff.rfl

theorem calculateHash_returns {backend : Backend} :
  Returns (cert.calculateHash backend) ↔ cert.Encodable := by
  rw [calculateHash, bind_iff_left fun _ => pure _, serialize_returns, encodable_canonical]

end Certificate

theorem Certificate.serializes_returns {certs : List Certificate} :
  Returns (Certificate.serializes certs) ↔ ∀ cert ∈ certs, cert.Encodable := by
  induction certs with
  | nil => simp [Certificate.serializes]
  | cons cert certs ih =>
    rw [Certificate.serializes, List.forall_mem_cons, ← ih, ← serialize_returns]
    exact bind_iff_and fun _ =>
      bind_iff_left fun _ => pure _

section Lists

variable {α : Type} {deserialize : Deserialize (α × Nat)} {P : α → Prop}

theorem yields_deserializeElements (h : Yields deserialize fun out => P out.1) (fuel rem : Nat) :
  Yields (deserializeElements deserialize fuel rem) fun list => ∀ a ∈ list, P a := by
  induction fuel generalizing rem with
  | zero => exact Yields.pure (by simp)
  | succ fuel ih =>
    rw [deserializeElements]
    split
    · exact Yields.pure (by simp)
    refine h.bind fun out ho => Yields.then fun good => ?_
    split
    · refine (ih _).bind fun list hl => Yields.pure ?_
      exact List.forall_mem_cons.2 ⟨ho, hl⟩
    · exact Yields.then fun _ => Yields.pure (by simp)

theorem yields_deserializeList (h : Yields deserialize fun out => P out.1) :
  Yields (deserializeList deserialize) fun out => ∀ a ∈ out.1, P a := by
  refine Yields.then fun length => ?_
  split
  · exact (yields_deserializeElements h _ _).bind fun list hl =>
      Yields.pure hl
  · exact Yields.then fun _ => Yields.pure (by simp)

end Lists

theorem yields_subjectAttribute :
  Yields SubjectAttribute.deserialize fun out => Returns out.1.serialize := by
  refine Yields.then fun code => ?_
  split
  iterate 5 exact Yields.then fun _ => Yields.pure (pure _)
  iterate 2 exact Yields.throw _

theorem yields_certificateSigner : Yields SignerInfo.deserializeCertificateSigner
    fun out => Returns out.1.serialize := by
  refine Yields.then fun code => ?_
  split
  iterate 2 exact Yields.throw _
  iterate 2 exact Yields.then fun _ => Yields.pure (pure _)
  · exact Yields.pure (pure _)
  · exact Yields.throw _

theorem yields_certificate : Yields Certificate.deserialize fun out => out.1.Encodable := by
  refine Yields.then fun version => ?_
  split
  · refine yields_certificateSigner.bind fun signer hs => ?_
    refine Yields.then fun subject => ?_
    refine (yields_deserializeList (P := fun sub => Returns sub.serialize)
      yields_subjectAttribute).bind fun attrs ha => ?_
    refine Yields.then fun restrs => Yields.then fun sig => ?_
    exact Yields.pure ⟨hs, ha⟩
  · exact Yields.throw _

def SignerInfo.certificates : SignerInfo → List Certificate
  | .certificate cert => [cert]
  | .certificateChain list => list
  | _ => []

variable {info : SignerInfo}

theorem SignerInfo.serialize_returns :
  Returns info.serialize ↔ ∀ cert ∈ info.certificates, cert.Encodable := by
  cases info with
  | certificate cert =>
    rw [serialize, bind_iff_left fun _ => pure _, Certificate.serialize_returns]
    simp [certificates]
  | certificateChain list =>
    rw [serialize, bind_iff_left fun _ => pure _, Certificate.serializes_returns]
    rfl
  | _ => simp [serialize, certificates]

theorem yields_signerInfo : Yields SignerInfo.deserialize fun out => Returns out.1.serialize := by
  refine Yields.then fun code => ?_
  split
  · refine yields_certificate.bind fun cert hcert => Yields.pure ?_
    exact serialize_returns.2 (by simpa [certificates])
  · refine (yields_deserializeList yields_certificate).bind fun list hl => Yields.pure ?_
    exact serialize_returns.2 hl
  · exact Yields.then fun _ => Yields.pure (pure _)
  · exact Yields.then fun _ => Yields.pure (pure _)
  · exact Yields.pure (pure _)
  · exact Yields.throw _

def SecuredMessage.Encodable (message : SecuredMessage) : Prop :=
  ∀ field ∈ message.headerFields, Returns field.serializeBody

theorem yields_headerField (symAlgo : Option SymmetricAlgorithm) (type : HeaderFieldType) :
  Yields (HeaderField.deserialize symAlgo type) fun out => Returns out.1.serializeBody := by
  cases type with
  | signerInfo => exact yields_signerInfo.bind fun info hin => Yields.pure hin
  | generationTimeConfidence | requestUnrecognizedCertificate =>
    exact Yields.then fun _ => Yields.then fun _ =>
      Yields.pure (pure _)
  | recipientInfo =>
    cases symAlgo with
    | some algo => exact Yields.then fun _ => Yields.pure (pure _)
    | none => exact Yields.throw _
  | _ => exact Yields.then fun _ => Yields.pure (pure _)

theorem yields_headerFields (size fuel read : Nat) (symAlgo : Option SymmetricAlgorithm) :
  Yields (HeaderField.deserializeFields size fuel read symAlgo)
    fun out => ∀ field ∈ out.1, Returns field.serializeBody := by
  induction fuel generalizing read symAlgo with
  | zero => exact Yields.pure (by simp)
  | succ fuel ih =>
    rw [HeaderField.deserializeFields]
    refine Yields.then fun good => ?_
    split
    · refine Yields.then fun code => ?_
      split
      · refine (yields_headerField _ _).bind fun field hfld => ?_
        refine (ih _ _).bind fun fields hf => Yields.pure ?_
        exact List.forall_mem_cons.2 ⟨hfld, hf⟩
      · exact Yields.throw _
    · exact Yields.pure (by simp)

theorem yields_securedMessage : Yields SecuredMessage.deserialize fun out => out.1.Encodable := by
  refine Yields.then fun version => ?_
  split
  · have hh : Yields HeaderField.deserializeList
        fun out => ∀ field ∈ out.1, Returns field.serializeBody := by
      refine Yields.then fun size => ?_
      split
      · exact Yields.then fun _ => yields_headerFields _ _ _ _
      · exact yields_headerFields _ _ _ _
    refine hh.bind fun header hh => ?_
    refine Yields.then fun pay => Yields.then fun trailer => ?_
    exact Yields.pure hh
  · exact Yields.throw _

namespace SecuredMessage

variable {message : SecuredMessage}

theorem serializeSigned_returns : Returns message.serializeSigned ↔ message.Encodable := by
  rw [serializeSigned, bind_iff_left fun _ => pure _, mapM_iff]
  refine forall₂_congr fun field _ => ?_
  rw [HeaderField.serialize, bind_iff_left fun _ => pure _]

theorem convertForSigning_returns {trailerFields : List TrailerField} :
  Returns (message.convertForSigning trailerFields) ↔ message.Encodable := by
  unfold convertForSigning
  rw [bind_iff_left fun _ => pure _, serializeSigned_returns]

theorem Encodable.certificates (h : message.Encodable) (hin : message.signerInfo = some info) :
  ∀ cert ∈ info.certificates, cert.Encodable := by
  unfold signerInfo at hin
  split at hin
  · next info' hf =>
    obtain rfl := Option.some.inj hin
    exact serialize_returns.1 (h _ (List.mem_of_find?_eq_some hf))
  · cases hin

end SecuredMessage

end Vanetza.Security.V2
