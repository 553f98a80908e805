import Vanetza.Security.V2.Encodable
import Vanetza.Security.V2.MessageReading

/-!
# What the serializers write

What is written for a message is one of the writings the format has for it, provided that the
message is well formed.
-/

namespace Vanetza.Security.V2

open InputArchive Lib Lib.Decoder

structure Dialect.Admits (D : Dialect) : Prop where
  call : ∀ n m, D.call n m
  key : ∀ n ≤ 512, D.key n
  length : ∀ n, D.length n (lengthCodingSize n)
  request : ∀ n, 3 ∣ n → D.request n

theorem Dialect.any_admits : Dialect.any.Admits where
  call _ _ := trivial
  key _ _ := trivial
  length _ := trivial
  request _ _ := trivial

def GeographicRegion.WellFormed : GeographicRegion → Prop
  | .id region => region.localRegion.toNat < 2 ^ 56
  | _ => True

def SubjectAttribute.WellFormed : SubjectAttribute → Prop
  | .verificationKey key => key.WellFormed
  | .encryptionKey key => key.WellFormed
  | .itsAidList list => ∀ id ∈ list, id.toNat < 2 ^ 56
  | .itsAidSspList list => ∀ ssp ∈ list, ssp.itsAid.toNat < 2 ^ 56
  | .assuranceLevel _ => True
  | .reconstructionValue _ => True

def ValidityRestriction.WellFormed : ValidityRestriction → Prop
  | .region area => area.WellFormed
  | _ => True

structure Certificate.WellFormed (cert : Certificate) : Prop where
  signerInfo : cert.signerInfo.getType ≠ .certificate ∧ cert.signerInfo.getType ≠ .certificateChain
  subjectAttributes : ∀ sub ∈ cert.subjectAttributes, sub.WellFormed
  validityRestriction : ∀ restriction ∈ cert.validityRestriction, restriction.WellFormed
  signature : cert.signature.WellFormed

def RecipientInfo.WellFormed (info : RecipientInfo) : Prop :=
  match info.encKey with
  | .ecies key => key.v.HasSize 32 ∧ key.c.length = 16
  | .opaqueKey data => data.length ≤ 512

def HeaderField.WellFormed : HeaderField → Prop
  | .itsAid id => id.toNat < 2 ^ 56
  | .signerInfo info => ∀ cert ∈ info.certificates, cert.WellFormed
  | .recipientInfo list => ∀ info ∈ list, info.WellFormed
  | _ => True

def HeaderField.NoReconstruction : HeaderField → Prop
  | .signerInfo info => ∀ cert ∈ info.certificates, ∀ point,
      .reconstructionValue point ∉ cert.subjectAttributes
  | _ => True

section Lists

variable {D : Dialect} {α : Type} {getSize : α → Nat} {F : Format α}

theorem number_encodeLength (hD : D.Admits) {n : Nat} (hn : n < 2 ^ 56) :
  number D.length n (encodeLength n) := by
  refine ⟨announces_encodeLength hn, ?_⟩
  rw [length_encodeLength hn]
  exact hD.length n

theorem getSize_le_list {a : α} {list : List α} (ha : a ∈ list) :
  getSize a ≤ getSizeList getSize list :=
  List.le_sum_of_mem (List.mem_map_of_mem ha)

theorem elements_flatMap (hD : D.Admits) {serialize : α → ByteBuffer}
  {list : List α} (h : ∀ a ∈ list, F a (serialize a)) :
  elements D.call getSize F list (list.flatMap serialize) := by
  induction list with
  | nil => exact Format.each_nil.2 rfl
  | cons a list ih =>
    rw [List.forall_mem_cons] at h
    exact Format.each_cons.2 ⟨_, _, ⟨h.1, hD.call _ _⟩, ih h.2, List.flatMap_cons⟩

theorem elements_mapM (hD : D.Admits) (getSize : α → Nat)
  {serialize : α → Except Exception ByteBuffer} {list : List α}
  (h : ∀ a ∈ list, ∃ w, serialize a = .ok w ∧ F a w) :
  ∃ parts, list.mapM serialize = .ok parts ∧ elements D.call getSize F list parts.flatten := by
  induction list with
  | nil => exact ⟨[], rfl, Format.each_nil.2 rfl⟩
  | cons a list ih =>
    rw [List.forall_mem_cons] at h
    obtain ⟨⟨w, hs, hw⟩, hl⟩ := h
    obtain ⟨parts, hp, hel⟩ := ih hl
    refine ⟨w :: parts, ?_, Format.each_cons.2
      ⟨w, parts.flatten, ⟨hw, hD.call _ _⟩, hel, List.flatten_cons⟩⟩
    rw [List.mapM_cons, hs, hp]
    rfl

theorem listOf_written {rule : Nat → Nat → Prop} {list : List α}
  {w : ByteBuffer} (hs : getSizeList getSize list ≤ 1024)
  (hr : rule (getSizeList getSize list) (lengthCodingSize (getSizeList getSize list)))
  (hw : elements D.call getSize F list w) :
  listOf rule D.call getSize F list (encodeLength (getSizeList getSize list) ++ w) := by
  have hlt : getSizeList getSize list < 2 ^ 56 := by omega
  refine ⟨_, w, ⟨announces_encodeLength hlt, ?_⟩, by omega, hw, rfl⟩
  rwa [length_encodeLength hlt]

end Lists

variable {D : Dialect}

theorem IntX.written (hD : D.Admits) {x : IntX} (hx : x.toNat < 2 ^ 56) :
  IntX.wire D x x.serialize :=
  number_encodeLength hD hx

theorem ItsAidSsp.written (hD : D.Admits) {ssp : ItsAidSsp}
  (hid : ssp.itsAid.toNat < 2 ^ 56) (hs : ssp.getSize ≤ 1024) :
  ItsAidSsp.wire D ssp ssp.serialize := by
  rw [getSize] at hs
  refine ⟨_, _, IntX.written hD hid, number_encodeLength hD (by omega), by omega, ?_⟩
  rw [serialize, List.append_assoc]

theorem regionList_written (hD : D.Admits) {α : Type} {getSize : α → Nat}
  {serialize : α → ByteBuffer} {list : List α} (hs : getSizeList getSize list ≤ 1024) :
  regionList D getSize serialize list
    (encodeLength (getSizeList getSize list) ++ list.flatMap serialize) :=
  ⟨_, number_encodeLength hD (by omega), fun _ _ => hD.call _ _, rfl⟩

theorem GeographicRegion.written (hD : D.Admits) {region : GeographicRegion}
  (h : region.WellFormed) (hs : region.getSize ≤ 1024) :
  region.wire D region.serialize := by
  cases region with
  | none => exact ⟨[], rfl, rfl⟩
  | circle region => exact ⟨_, rfl, rfl⟩
  | rectangle list | polygon points =>
    rw [getSize] at hs
    exact ⟨_, regionList_written hD (by omega), rfl⟩
  | id region => exact ⟨_, ⟨_, IntX.written hD h, rfl⟩, rfl⟩

theorem ValidityRestriction.written (hD : D.Admits)
  {restr : ValidityRestriction} (h : restr.WellFormed) (hs : restr.getSize ≤ 1024) :
  restr.wire D restr.serialize := by
  cases restr with
  | region area =>
    rw [getSize] at hs
    exact ⟨_, GeographicRegion.written hD h (by omega), rfl⟩
  | _ => exact ⟨_, rfl, rfl⟩

theorem SubjectAttribute.written (hD : D.Admits) {sub : SubjectAttribute}
  (h : sub.WellFormed) (hsub : ∀ point, sub ≠ .reconstructionValue point)
  (hs : sub.getSize ≤ 1024) :
  ∃ w, sub.serialize = .ok w ∧ sub.wire D w := by
  cases sub with
  | verificationKey key | encryptionKey key => exact ⟨_, rfl, _, ⟨h, rfl⟩, rfl⟩
  | assuranceLevel level => exact ⟨_, rfl, _, rfl, rfl⟩
  | reconstructionValue point => exact absurd rfl (hsub point)
  | itsAidList list =>
    rw [getSize] at hs
    exact ⟨_, rfl, _, listOf_written (by omega) (hD.length _)
      (elements_flatMap hD fun id hid => IntX.written hD (h id hid)), rfl⟩
  | itsAidSspList list =>
    rw [getSize] at hs
    refine ⟨_, rfl, _, listOf_written (by omega) (hD.length _)
      (elements_flatMap hD fun ssp hssp => ?_), rfl⟩
    have hle : ssp.getSize ≤ getSizeList ItsAidSsp.getSize list := getSize_le_list hssp
    exact ItsAidSsp.written hD (h ssp hssp) (by omega)

theorem SignerInfo.digest_written {info : SignerInfo}
  (h : info.getType ≠ .certificate ∧ info.getType ≠ .certificateChain) :
  ∃ w, info.serialize = .ok (info.getType.code :: w) ∧ info.digest w := by
  cases info with
  | certificate cert => exact absurd rfl h.1
  | certificateChain list => exact absurd rfl h.2
  | self => exact ⟨[], rfl, rfl⟩
  | certificateDigestWithSha256 id
  | certificateDigestWithOtherAlgorithm digest => exact ⟨_, rfl, rfl⟩

theorem Certificate.written (hD : D.Admits) {cert : Certificate} (h : cert.WellFormed)
  (hsub : ∀ point, .reconstructionValue point ∉ cert.subjectAttributes) (hs : cert.getSize ≤ 1024) :
  ∃ w, cert.serialize = .ok w ∧ cert.wire D w := by
  obtain ⟨info, subject, attributes, restrictions, sig⟩ := cert
  obtain ⟨hin, hatt, hres, hsig⟩ := h
  dsimp only at hin hatt hres hsig hsub
  simp only [getSize, SubjectInfo.getSize] at hs
  obtain ⟨signer, hsgn, hd⟩ := SignerInfo.digest_written hin
  have ha : ∀ sub ∈ attributes, ∃ w, sub.serialize = .ok w ∧ sub.wire D w := by
    intro sub hm
    have hle : sub.getSize ≤ getSizeList SubjectAttribute.getSize attributes := getSize_le_list hm
    refine SubjectAttribute.written hD (hatt sub hm) ?_ (by omega)
    rintro point rfl
    exact hsub point hm
  obtain ⟨parts, hp, hel⟩ := elements_mapM hD SubjectAttribute.getSize ha
  have hr : ∀ restr ∈ restrictions, restr.wire D restr.serialize := by
    intro restr hm
    have hle : restr.getSize ≤ getSizeList ValidityRestriction.getSize restrictions :=
      getSize_le_list hm
    exact ValidityRestriction.written hD (hres restr hm) (by omega)
  refine ⟨_, ?_, signer, _, _, _, hd, number_encodeLength hD ?_,
    listOf_written (by dsimp only; omega) (hD.length _) hel,
    listOf_written (by dsimp only; omega) (hD.length _) (elements_flatMap hD hr), hsig, rfl⟩
  · rw [serialize, serializeAttributes, hsgn, hp]
    simp [serializeRestrictions, SubjectInfo.serialize]
    rfl
  · dsimp only
    omega

theorem Certificate.serializes_eq (list : List Certificate) : Certificate.serializes list =
    List.flatten <$> list.mapM Certificate.serialize := by
  induction list with
  | nil => rfl
  | cons cert list ih =>
    rw [Certificate.serializes, List.mapM_cons, ih]
    cases cert.serialize with
    | error e => rfl
    | ok w => cases list.mapM Certificate.serialize <;> rfl

theorem SignerInfo.written (hD : D.Admits) {info : SignerInfo}
  (h : ∀ cert ∈ info.certificates, cert.WellFormed) (hsub : ∀ cert ∈ info.certificates, ∀ point,
    .reconstructionValue point ∉ cert.subjectAttributes)
  (hc : ∀ list, info = .certificateChain list → D.chain (Certificate.getSizes list)
      (lengthCodingSize (Certificate.getSizes list))) (hs : info.getSize ≤ 1024) :
  ∃ w, info.serialize = .ok w ∧ info.wire D w := by
  cases info with
  | certificate cert =>
    rw [getSize] at hs
    have hm : cert ∈ (SignerInfo.certificate cert).certificates := List.mem_singleton_self cert
    obtain ⟨w, hser, hw⟩ := Certificate.written hD (h cert hm) (hsub cert hm) (by omega)
    refine ⟨_, ?_, w, hw, rfl⟩
    rw [serialize, hser]
    rfl
  | certificateChain list =>
    have hc := hc list rfl
    rw [getSize] at hs
    rw [getSizes_eq] at hs hc
    have hcert : ∀ cert ∈ list, ∃ w, cert.serialize = .ok w ∧ cert.wire D w := by
      intro cert hm
      have hle : cert.getSize ≤ getSizeList Certificate.getSize list := getSize_le_list hm
      exact Certificate.written hD (h cert hm) (hsub cert hm) (by omega)
    obtain ⟨parts, hp, hel⟩ := elements_mapM hD Certificate.getSize hcert
    refine ⟨_, ?_, _, listOf_written (by omega) hc hel, rfl⟩
    rw [serialize, Certificate.serializes_eq, hp, getSizes_eq]
    rfl
  | self => exact ⟨_, rfl, [], rfl, rfl⟩
  | certificateDigestWithSha256 id
  | certificateDigestWithOtherAlgorithm digest => exact ⟨_, rfl, _, rfl, rfl⟩

theorem RecipientInfo.written (hD : D.Admits) {info : RecipientInfo}
  (h : info.WellFormed) : RecipientInfo.wire D info info.serialize := by
  obtain ⟨certId, encKey⟩ := info
  cases encKey with
  | ecies key => exact ⟨h.1, h.2, rfl⟩
  | opaqueKey data =>
    have hle : data.length ≤ 512 := h
    exact ⟨.ecdsaNistp256WithSha256, data.length, _, by decide,
      number_encodeLength hD (by omega), hD.key _ hle, (if_pos hle).symm, rfl⟩

namespace HeaderField

def countedSize : HeaderField → Nat
  | .signerInfo info => 1 + info.countedSize
  | field => field.getSize

theorem body_written (hD : D.Admits) {symAlgo : Option SymmetricAlgorithm}
  {field : HeaderField} (h : field.WellFormed) (hsub : field.NoReconstruction)
  (hc : ∀ list, field = .signerInfo (.certificateChain list) →
    D.chain (Certificate.getSizes list) (lengthCodingSize (Certificate.getSizes list)))
  (hsym : ∀ list, field = .recipientInfo list → symAlgo.isSome) (hs : field.getSize ≤ 1024) :
  ∃ size u, field.serializeBody = .ok u ∧ body D symAlgo (field, size) u ∧
    field.countedSize = 1 + size := by
  cases field with
  | generationTime time => exact ⟨_, _, rfl, ⟨rfl, rfl⟩, rfl⟩
  | generationTimeConfidence time logStdDev => exact ⟨_, _, rfl, ⟨rfl, rfl⟩, rfl⟩
  | expiration time | generationLocation loc | encryptionParameters param =>
    exact ⟨_, _, rfl, ⟨rfl, rfl⟩, rfl⟩
  | itsAid id => exact ⟨_, _, rfl, ⟨IntX.written hD h, rfl⟩, rfl⟩
  | signerInfo info =>
    rw [getSize] at hs
    obtain ⟨u, hser, hu⟩ := SignerInfo.written hD h hsub
      (fun list hl => hc list (congrArg _ hl)) (by omega)
    exact ⟨_, u, hser, ⟨hu, rfl⟩, rfl⟩
  | requestUnrecognizedCertificate list =>
    have hl : getSizeList (fun _ : HashedId3 => 3) list =
        3 * list.length := getSizeList_const (fun _ => rfl) list
    rw [getSize] at hs
    refine ⟨_, _, rfl, ⟨_, _, number_encodeLength hD (by omega),
      hD.request _ (by omega), by omega, rfl, rfl⟩, rfl⟩
  | recipientInfo list =>
    rw [getSize] at hs
    refine ⟨_, _, rfl, ⟨hsym list rfl, listOf_written (by omega)
      (hD.length _) (elements_flatMap hD fun info hin =>
        RecipientInfo.written hD (h info hin)), rfl⟩, rfl⟩

end HeaderField

section Formed

variable {w : ByteBuffer}

theorem IntX.lt_of_wire (x : IntX) (w : ByteBuffer) (h : IntX.wire D x w) :
  x.toNat < 2 ^ 56 := h.1.lt

theorem forall_of_elements {α : Type} {call : Nat → Nat → Prop}
  {getSize : α → Nat} {F : Format α} {P : α → Prop} (hF : ∀ a w, F a w → P a) {list : List α}
  (h : elements call getSize F list w) : ∀ a ∈ list, P a := by
  induction list generalizing w with
  | nil => exact fun a ha => nomatch ha
  | cons a list ih =>
    obtain ⟨u, v, ⟨hu, -⟩, hv, rfl⟩ := Format.each_cons.1 h
    exact List.forall_mem_cons.2 ⟨hF a u hu, ih hv⟩

theorem forall_of_listOf {α : Type} {rule call : Nat → Nat → Prop}
  {getSize : α → Nat} {F : Format α} {P : α → Prop} (hF : ∀ a w, F a w → P a) {list : List α}
  (h : listOf rule call getSize F list w) : ∀ a ∈ list, P a := by
  obtain ⟨u, v, -, -, hv, rfl⟩ := h
  exact forall_of_elements hF hv

theorem SubjectAttribute.wellFormed_of_wire (sub : SubjectAttribute)
  (w : ByteBuffer) (h : sub.wire D w) : sub.WellFormed := by
  obtain ⟨v, hv, rfl⟩ := h
  cases sub with
  | verificationKey key | encryptionKey key => exact hv.1
  | assuranceLevel level | reconstructionValue point => trivial
  | itsAidList list => exact forall_of_listOf IntX.lt_of_wire hv
  | itsAidSspList list =>
    refine forall_of_listOf (fun ssp w hs => ?_) hv
    obtain ⟨u, v, hu, -⟩ := hs
    exact IntX.lt_of_wire _ u hu

theorem ValidityRestriction.wellFormed_of_wire (restr : ValidityRestriction) (w : ByteBuffer)
  (h : restr.wire D w) : restr.WellFormed := by
  obtain ⟨v, hv, rfl⟩ := h
  cases restr with
  | region area =>
    obtain ⟨v, hv, rfl⟩ := hv
    cases area with
    | id region =>
      obtain ⟨u, hu, rfl⟩ := hv
      exact IntX.lt_of_wire _ u hu
    | _ => trivial
  | _ => trivial

theorem Certificate.wellFormed_of_wire (cert : Certificate) (w : ByteBuffer)
  (h : cert.wire D w) : cert.WellFormed := by
  obtain ⟨signer, name, u, v, hs, -, hu, hv, hsig, rfl⟩ := h
  refine ⟨?_, forall_of_listOf SubjectAttribute.wellFormed_of_wire hu,
    forall_of_listOf ValidityRestriction.wellFormed_of_wire hv, hsig⟩
  generalize cert.signerInfo = info at hs
  cases info with
  | certificate cert | certificateChain list => exact hs.elim
  | _ => exact ⟨nofun, nofun⟩

theorem RecipientInfo.wellFormed_of_wire (info : RecipientInfo) (w : ByteBuffer)
  (h : RecipientInfo.wire D info w) : info.WellFormed := by
  obtain ⟨certId, encKey⟩ := info
  cases encKey with
  | ecies key => exact ⟨h.1, h.2.1⟩
  | opaqueKey data =>
    obtain ⟨algo, length, u, -, -, -, hd, -⟩ := h
    show data.length ≤ 512
    split at hd <;> omega

theorem HeaderField.wellFormed_of_body {symAlgo : Option SymmetricAlgorithm}
  {field : HeaderField} {size : Nat} (h : body D symAlgo (field, size) w) :
  field.WellFormed := by
  cases field with
  | itsAid id => exact IntX.lt_of_wire id w h.1
  | recipientInfo list => exact forall_of_listOf RecipientInfo.wellFormed_of_wire h.2.1
  | signerInfo info =>
    obtain ⟨⟨v, hv, -⟩, -⟩ := h
    cases info with
    | certificate cert => exact List.forall_mem_singleton.2 (cert.wellFormed_of_wire v hv)
    | certificateChain list => exact forall_of_listOf Certificate.wellFormed_of_wire hv
    | _ => exact fun cert hcert => nomatch hcert
  | _ => trivial

end Formed

end Vanetza.Security.V2
