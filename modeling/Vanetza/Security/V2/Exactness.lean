import Vanetza.Security.V2.MessageReading

/-!
# When counted sizes are right

The deserializers work out the size of what they have read as if every length were announced with as
few octets as possible.
-/

namespace Vanetza.Security.V2

open InputArchive Lib Lib.Decoder Dialect GeographicRegion

def Demand.exactCalls : Demand := ⟨(· = ·), fun _ => True⟩

def Dialect.exact : Dialect where
  call := fun _ _ => True
  key := (· ≤ 512)
  length := fun n width => width = lengthCodingSize n
  chain := fun n width => width = lengthCodingSize (1 + n)
  request := (3 ∣ ·)
  message := (· = ·)

/-- `E` has the writings of `F` that are as long as the size says. -/
def Tight {α : Type} (getSize : α → Nat) (F E : Format α) : Prop :=
  ∀ a w, E a w ↔ F a w ∧ getSize a = w.length

section Tight

variable {α τ : Type} {getSize : α → Nat} {F E : Format α}

theorem tight_tagged {code : τ → UInt8} {getType : α → τ}
  (h : ∀ a v, E a v ↔ F a v ∧ getSize a = 1 + v.length) :
  Tight getSize (fun a w => ∃ v, F a v ∧ w = code (getType a) :: v)
    (fun a w => ∃ v, E a v ∧ w = code (getType a) :: v) := by
  intro a w
  constructor
  · rintro ⟨v, hv, rfl⟩
    obtain ⟨hF, hs⟩ := (h a v).1 hv
    refine ⟨⟨v, hF, rfl⟩, ?_⟩
    rw [List.length_cons]
    omega
  · rintro ⟨⟨v, hF, rfl⟩, hs⟩
    rw [List.length_cons] at hs
    exact ⟨v, (h a v).2 ⟨hF, by omega⟩, rfl⟩

theorem tight_elements (h : Tight getSize F E) (list : List α) (w : ByteBuffer) :
  elements (fun _ _ => True) getSize E list w ↔ elements (· = ·) getSize F list w := by
  have heq : (fun a w => E a w ∧ True) = fun a w => F a w ∧ getSize a = w.length := by
    funext a w
    rw [and_true, propext (h a w)]
  rw [elements, elements, heq]

theorem length_elements {list : List α} {w : ByteBuffer} (h : elements (· = ·) getSize F list w) :
  w.length = getSizeList getSize list := by
  induction list generalizing w with
  | nil =>
    obtain rfl := Format.each_nil.1 h
    rfl
  | cons a list ih =>
    obtain ⟨u, v, ⟨-, hu⟩, hv, rfl⟩ := Format.each_cons.1 h
    rw [List.length_append, ih hv, getSizeList_cons, hu]

theorem listOf_size_le {list : List α} {w : ByteBuffer}
  (h : listOf (fun _ _ => True) (· = ·) getSize F list w) :
  getSizeList getSize list + lengthCodingSize (getSizeList getSize list) ≤ w.length := by
  obtain ⟨u, v, ⟨hu, -⟩, -, hv, rfl⟩ := h
  have hm := hu.size_le
  rw [List.length_append, length_elements hv]
  omega

theorem tight_list (f : Nat → Nat) (h : Tight getSize F E) (list : List α) (w : ByteBuffer) :
  listOf (fun n width => width = f n) (fun _ _ => True) getSize E list w ↔
    listOf (fun _ _ => True) (· = ·) getSize F list w ∧
      getSizeList getSize list + f (getSizeList getSize list) = w.length := by
  constructor
  · rintro ⟨u, v, ⟨hu, hw⟩, hle, hv, rfl⟩
    have hv := (tight_elements h list v).1 hv
    refine ⟨⟨u, v, ⟨hu, trivial⟩, hle, hv, rfl⟩, ?_⟩
    rw [List.length_append, length_elements hv, hw, Nat.add_comm]
  · rintro ⟨⟨u, v, ⟨hu, -⟩, hle, hv, rfl⟩, hl⟩
    rw [List.length_append, length_elements hv] at hl
    exact ⟨u, v, ⟨hu, by omega⟩, hle, (tight_elements h list v).2 hv, rfl⟩

end Tight

theorem tight_intX : Tight IntX.getSize (IntX.wire Demand.exactCalls.dialect)
  (IntX.wire .exact) := by
  intro x w
  constructor
  · rintro ⟨hx, hw⟩
    exact ⟨⟨hx, trivial⟩, hw.symm⟩
  · rintro ⟨⟨hx, -⟩, hw⟩
    exact ⟨hx, hw.symm⟩

theorem tight_itsAidSsp : Tight ItsAidSsp.getSize
  (ItsAidSsp.wire Demand.exactCalls.dialect) (ItsAidSsp.wire .exact) := by
  intro ssp w
  constructor
  · rintro ⟨u, v, ⟨hu, hwu⟩, ⟨hv, hwv⟩, hle, rfl⟩
    refine ⟨⟨u, v, ⟨hu, trivial⟩, ⟨hv, trivial⟩, hle, rfl⟩, ?_⟩
    rw [ItsAidSsp.getSize, IntX.getSize, List.length_append, List.length_append, hwu, hwv]
    omega
  rintro ⟨⟨u, v, ⟨hu, -⟩, ⟨hv, -⟩, hle, rfl⟩, hs⟩
  have hm := hu.size_le
  have hm' := hv.size_le
  rw [ItsAidSsp.getSize, IntX.getSize, List.length_append, List.length_append] at hs
  exact ⟨u, v, ⟨hu, by dsimp only [exact]; omega⟩, ⟨hv, by dsimp only [exact]; omega⟩, hle, rfl⟩

theorem EccPoint.length_serialize (point : EccPoint) : point.serialize.length = point.getSize := by
  rw [serialize, getSize, List.length_cons, Nat.add_comm]

theorem PublicKey.length_serialize (key : PublicKey) : key.serialize.length = key.getSize := by
  cases key with
  | ecdsaNistp256WithSha256 point =>
    rw [serialize, getSize, List.length_cons, point.length_serialize, Nat.add_comm]
  | eciesNistp256 algo point =>
    rw [serialize, getSize, List.length_cons, List.length_cons,
      point.length_serialize, Nat.add_comm]

theorem Signature.length_serialize (sig : Signature) : sig.serialize.length = sig.getSize := by
  rw [serialize, getSize, EcdsaSignature.serialize, EcdsaSignature.getSize,
    List.length_cons, List.length_append, EccPoint.length_serialize]
  omega

theorem tight_subjectAttribute : Tight SubjectAttribute.getSize
  (SubjectAttribute.wire Demand.exactCalls.dialect) (SubjectAttribute.wire .exact) := by
  refine tight_tagged fun sub v => ?_
  cases sub with
  | verificationKey key | encryptionKey key =>
    constructor
    · rintro ⟨hk, rfl⟩
      exact ⟨⟨hk, rfl⟩, by rw [key.length_serialize]; rfl⟩
    · rintro ⟨h, -⟩
      exact h
  | assuranceLevel level =>
    constructor
    · rintro rfl
      exact ⟨rfl, rfl⟩
    · rintro ⟨rfl, -⟩
      rfl
  | reconstructionValue point => exact iff_of_false id fun h => h.1
  | itsAidList list =>
    refine (tight_list lengthCodingSize tight_intX list v).trans (and_congr_right fun _ => ?_)
    rw [SubjectAttribute.getSize]
    omega
  | itsAidSspList list =>
    refine (tight_list lengthCodingSize tight_itsAidSsp list v).trans (and_congr_right fun _ => ?_)
    rw [SubjectAttribute.getSize]
    omega

theorem TwoDLocation.length_serialize (loc : TwoDLocation) :
  loc.serialize.length = loc.getSize := by
  rw [serialize, List.length_append, length_toBigEndian, length_toBigEndian, getSize]

theorem RectangularRegion.length_serialize (rectangle : RectangularRegion) :
  rectangle.serialize.length = rectangle.getSize := by
  rw [serialize, List.length_append, TwoDLocation.length_serialize,
    TwoDLocation.length_serialize, getSize]

theorem ThreeDLocation.length_serialize (loc : ThreeDLocation) :
  loc.serialize.length = loc.getSize := by
  rw [serialize, List.length_append, List.length_append, length_toBigEndian,
    length_toBigEndian, loc.elevation.toList_length, getSize]

theorem length_flatMap {α : Type} {getSize : α → Nat} {serialize : α → ByteBuffer}
  (h : ∀ a, (serialize a).length = getSize a) (list : List α) :
  (list.flatMap serialize).length = getSizeList getSize list := by
  rw [List.length_flatMap, funext h]
  rfl

theorem tight_regionList {α : Type} {getSize : α → Nat} {serialize : α → ByteBuffer}
  (h : ∀ a, (serialize a).length = getSize a) (list : List α) (w : ByteBuffer) :
  regionList .exact getSize serialize list w ↔
    regionList Demand.exactCalls.dialect getSize serialize list w ∧ getSizeList getSize list +
        lengthCodingSize (getSizeList getSize list) = w.length := by
  constructor
  · rintro ⟨u, ⟨hu, hw⟩, -, rfl⟩
    refine ⟨⟨u, ⟨hu, trivial⟩, fun a _ => (h a).symm, rfl⟩, ?_⟩
    rw [List.length_append, length_flatMap h, hw, Nat.add_comm]
  rintro ⟨⟨u, ⟨hu, -⟩, -, rfl⟩, hl⟩
  rw [List.length_append, length_flatMap h] at hl
  exact ⟨u, ⟨hu, by dsimp only [exact]; omega⟩, fun _ _ => trivial,
    rfl⟩

theorem tight_region : Tight GeographicRegion.getSize
  (GeographicRegion.wire Demand.exactCalls.dialect) (GeographicRegion.wire .exact) := by
  refine tight_tagged fun region v => ?_
  cases region with
  | none =>
    constructor
    · rintro rfl
      exact ⟨rfl, rfl⟩
    · intro h
      exact h.1
  | circle region =>
    constructor
    · rintro rfl
      refine ⟨rfl, ?_⟩
      rw [List.length_append, TwoDLocation.length_serialize, length_toBigEndian]
      rfl
    · intro h
      exact h.1
  | rectangle list =>
    refine (tight_regionList RectangularRegion.length_serialize list v).trans
      (and_congr_right fun _ => ?_)
    rw [getSize]
    omega
  | polygon points =>
    refine (tight_regionList TwoDLocation.length_serialize points v).trans
      (and_congr_right fun _ => ?_)
    rw [getSize]
    omega
  | id region =>
    constructor
    · rintro ⟨u, hu, rfl⟩
      obtain ⟨hu, hw⟩ := (tight_intX region.localRegion u).1 hu
      refine ⟨⟨u, hu, rfl⟩, ?_⟩
      rw [List.length_cons, List.length_append, length_toBigEndian,
        getSize, IdentifiedRegion.getSize, hw]
      omega
    · rintro ⟨⟨u, hu, rfl⟩, hl⟩
      rw [List.length_cons, List.length_append, length_toBigEndian,
        getSize, IdentifiedRegion.getSize] at hl
      exact ⟨u, (tight_intX region.localRegion u).2 ⟨hu, by omega⟩, rfl⟩

theorem tight_validityRestriction : Tight ValidityRestriction.getSize
  (ValidityRestriction.wire Demand.exactCalls.dialect) (ValidityRestriction.wire .exact) := by
  refine tight_tagged fun restr v => ?_
  cases restr with
  | region area =>
    refine (tight_region area v).trans (and_congr_right fun _ => ?_)
    rw [ValidityRestriction.getSize]
    omega
  | _ =>
    constructor
    · rintro rfl
      refine ⟨rfl, ?_⟩
      simp [ValidityRestriction.getSize, length_toBigEndian]
    · intro h
      exact h.1

theorem SignerInfo.length_digest {info : SignerInfo} {w : ByteBuffer}
  (h : info.digest w) : info.getSize = 1 + w.length := by
  cases info with
  | self => rw [show w = [] from h]; rfl
  | certificateDigestWithSha256 id =>
    rw [show w = id.toList from h, id.toList_length]
    rfl
  | certificateDigestWithOtherAlgorithm digest =>
    rw [show w = digest.algorithm.raw :: digest.digest.toList from h,
      List.length_cons, digest.digest.toList_length]
    rfl
  | certificate cert | certificateChain list => exact h.elim

theorem tight_certificate : Tight Certificate.getSize (Certificate.wire Demand.exactCalls.dialect)
  (Certificate.wire .exact) := by
  rintro ⟨info, subject, attrs, restrs, sig⟩ w
  have ha := tight_list lengthCodingSize tight_subjectAttribute attrs
  have hr := tight_list lengthCodingSize tight_validityRestriction restrs
  constructor
  · rintro ⟨signer, name, u, v, hs, ⟨hn, hw⟩, hu, hv, hsig, rfl⟩
    obtain ⟨hu, hul⟩ := (ha u).1 hu
    obtain ⟨hv, hvl⟩ := (hr v).1 hv
    refine ⟨⟨signer, name, u, v, hs, ⟨hn, trivial⟩, hu, hv, hsig, rfl⟩, ?_⟩
    have hin := SignerInfo.length_digest hs
    dsimp only [exact] at hw hin
    simp only [List.length_cons, List.length_append,
      sig.length_serialize, Certificate.getSize, SubjectInfo.getSize]
    omega
  · rintro ⟨⟨signer, name, u, v, hs, ⟨hn, -⟩, hu, hv, hsig, rfl⟩, hl⟩
    have hin := SignerInfo.length_digest hs
    have hm := hn.size_le
    have hu' := listOf_size_le hu
    have hv' := listOf_size_le hv
    dsimp only at hin hm hu' hv'
    simp only [List.length_cons, List.length_append,
      sig.length_serialize, Certificate.getSize, SubjectInfo.getSize] at hl
    exact ⟨signer, name, u, v, hs, ⟨hn, by dsimp only [exact]; omega⟩,
      (ha u).2 ⟨hu, by omega⟩, (hr v).2 ⟨hv, by omega⟩, hsig, rfl⟩

theorem tight_signerInfo : Tight SignerInfo.countedSize
  (SignerInfo.wire Demand.exactCalls.dialect) (SignerInfo.wire .exact) := by
  refine tight_tagged fun info v => ?_
  cases info with
  | certificate cert =>
    refine (tight_certificate cert v).trans (and_congr_right fun _ => ?_)
    show _ ↔ 1 + cert.getSize = _
    omega
  | certificateChain list =>
    refine (tight_list (fun n => lengthCodingSize (1 + n)) tight_certificate
      list v).trans (and_congr_right fun _ => ?_)
    rw [SignerInfo.countedSize, getSizes_eq]
    omega
  | self => exact (and_iff_left_of_imp (@SignerInfo.length_digest .self v)).symm
  | certificateDigestWithSha256 id =>
    exact (and_iff_left_of_imp (@SignerInfo.length_digest (.certificateDigestWithSha256 id) v)).symm
  | certificateDigestWithOtherAlgorithm digest =>
    exact (and_iff_left_of_imp (@SignerInfo.length_digest
      (.certificateDigestWithOtherAlgorithm digest) v)).symm

theorem tight_recipientInfo : Tight RecipientInfo.getSize
  (RecipientInfo.wire Demand.exactCalls.dialect) (RecipientInfo.wire .exact) := by
  rintro ⟨certId, encKey⟩ w
  cases encKey with
  | ecies key =>
    constructor
    · rintro ⟨hv, hc, rfl⟩
      refine ⟨⟨hv, hc, rfl⟩, ?_⟩
      simp only [RecipientInfo.serialize, RecipientInfo.getSize,
        List.length_append, List.length_cons, certId.toList_length,
        key.t.toList_length, key.v.length_serialize]
      omega
    · intro h
      exact h.1
  | opaqueKey data =>
    constructor
    · rintro ⟨algo, length, u, ha, ⟨hu, hw⟩, hk, hd, rfl⟩
      refine ⟨⟨algo, length, u, ha, ⟨hu, trivial⟩, trivial, hd, rfl⟩, ?_⟩
      dsimp only [exact] at hw hk
      rw [if_pos hk] at hd
      simp only [RecipientInfo.getSize, List.length_append, List.length_cons,
        certId.toList_length, hw, hd]
      omega
    · rintro ⟨⟨algo, length, u, ha, ⟨hu, -⟩, -, hd, rfl⟩, hl⟩
      simp only [RecipientInfo.getSize, List.length_append, List.length_cons,
        certId.toList_length] at hl
      have hk : length ≤ 512 := by
        -- a length beyond the limit is announced with two octets or more
        by_contra hlong
        have hlcs := (lengthCodingSize_le_iff (m := 1) (by decide) (by decide)
          length).not.2 (by omega)
        rw [if_neg hlong] at hd
        have hm := hu.size_le
        have hz : lengthCodingSize data.length = 1 := by
          rw [hd]
          rfl
        omega
      have hd' := hd
      rw [if_pos hk] at hd'
      refine ⟨algo, length, u, ha, ⟨hu, ?_⟩, hk, hd, rfl⟩
      dsimp only [exact]
      rw [← hd']
      omega

theorem tight_body (symAlgo : Option SymmetricAlgorithm) (field : HeaderField)
  (size : Nat) (w : ByteBuffer) :
  HeaderField.body .exact symAlgo (field, size) w ↔
    HeaderField.body Demand.exactCalls.dialect symAlgo (field, size) w ∧ size = w.length := by
  cases field with
  | requestUnrecognizedCertificate list =>
    have hl : (list.flatMap List.Vector.toList).length = 3 * list.length := by
      have hid : ∀ id : HashedId3, id.toList.length = (fun _ => 3) id := List.Vector.toList_length
      rw [length_flatMap hid, getSizeList_const fun _ => rfl]
    constructor
    · rintro ⟨announced, u, ⟨hu, hwid⟩, hd, hc, rfl, rfl⟩
      refine ⟨⟨announced, u, ⟨hu, trivial⟩, trivial, hc, rfl, rfl⟩, ?_⟩
      dsimp only [exact] at hwid hd
      rw [List.length_append, hl]
      omega
    · rintro ⟨⟨announced, u, ⟨hu, -⟩, -, hc, rfl, rfl⟩, hlen⟩
      have hm := hu.size_le
      rw [List.length_append, hl] at hlen
      exact ⟨announced, u, ⟨hu, by dsimp only [exact]; omega⟩,
        by dsimp only [exact]; omega, hc, rfl, rfl⟩
  | itsAid id =>
    constructor
    · rintro ⟨hid, rfl⟩
      obtain ⟨hid, hlen⟩ := (tight_intX id w).1 hid
      exact ⟨⟨hid, rfl⟩, hlen⟩
    · rintro ⟨⟨hid, rfl⟩, hlen⟩
      exact ⟨(tight_intX id w).2 ⟨hid, hlen⟩, rfl⟩
  | signerInfo info =>
    constructor
    · rintro ⟨hin, rfl⟩
      obtain ⟨hin, hlen⟩ := (tight_signerInfo info w).1 hin
      exact ⟨⟨hin, rfl⟩, hlen⟩
    · rintro ⟨⟨hin, rfl⟩, hlen⟩
      exact ⟨(tight_signerInfo info w).2 ⟨hin, hlen⟩, rfl⟩
  | recipientInfo list =>
    have hl := tight_list lengthCodingSize tight_recipientInfo list w
    constructor
    · rintro ⟨hs, hw, rfl⟩
      obtain ⟨hw, hlen⟩ := hl.1 hw
      exact ⟨⟨hs, hw, rfl⟩, hlen⟩
    · rintro ⟨⟨hs, hw, rfl⟩, hlen⟩
      exact ⟨hs, hl.2 ⟨hw, hlen⟩, rfl⟩
  | generationLocation loc =>
    constructor
    · rintro ⟨rfl, rfl⟩
      exact ⟨⟨rfl, rfl⟩, loc.length_serialize.symm⟩
    · intro h
      exact h.1
  | encryptionParameters param =>
    constructor
    · rintro ⟨rfl, rfl⟩
      refine ⟨⟨rfl, rfl⟩, ?_⟩
      rw [EncryptionParameter.serialize, List.length_cons, param.nonce.toList_length]
    · intro h
      exact h.1
  | _ =>
    constructor
    · rintro ⟨rfl, rfl⟩
      refine ⟨⟨rfl, rfl⟩, ?_⟩
      simp [length_toBigEndian]
    · intro h
      exact h.1

theorem tight_fields {size read total : Nat}
  {symAlgo : Option SymmetricAlgorithm} {list : List HeaderField} {w : ByteBuffer} :
  HeaderField.fields .exact size read symAlgo list total w ↔
    HeaderField.fields Demand.exactCalls.dialect size read symAlgo list total w := by
  induction list generalizing read symAlgo w with
  | nil => exact Iff.rfl
  | cons field list ih =>
    constructor
    · rintro ⟨hlt, fieldSize, u, v, hu, -, hv, rfl⟩
      obtain ⟨hu, hl⟩ := (tight_body symAlgo field fieldSize u).1 hu
      exact ⟨hlt, fieldSize, u, v, hu, hl, ih.1 hv, rfl⟩
    · rintro ⟨hlt, fieldSize, u, v, hu, hl, hv, rfl⟩
      exact ⟨hlt, fieldSize, u, v, (tight_body symAlgo field fieldSize u).2 ⟨hu, hl⟩, trivial,
        ih.2 hv, rfl⟩

theorem length_fields {size read total : Nat}
  {symAlgo : Option SymmetricAlgorithm} {list : List HeaderField} {w : ByteBuffer}
  (h : HeaderField.fields Demand.exactCalls.dialect size read symAlgo list
    total w) : total = read + w.length := by
  induction list generalizing read symAlgo w with
  | nil =>
    obtain ⟨-, rfl, rfl⟩ := h
    rfl
  | cons field list ih =>
    obtain ⟨-, fieldSize, u, v, -, hl, hv, rfl⟩ := h
    have hf : fieldSize = u.length := hl
    rw [ih hv, List.length_cons, List.length_append, hf]
    omega

theorem TrailerField.length_serialize (field : TrailerField) :
  field.serialize.length = field.getSize := by
  rw [serialize, List.length_cons, field.signature.length_serialize, getSize, Nat.add_comm]

theorem tight_trailerField : Tight TrailerField.getSize TrailerField.wire TrailerField.wire := by
  intro field w
  constructor
  · rintro ⟨hs, rfl⟩
    exact ⟨⟨hs, rfl⟩, field.length_serialize.symm⟩
  · intro h
    exact h.1

theorem tight_securedMessage (msg : SecuredMessage) (total : Nat) (w : ByteBuffer) :
  SecuredMessage.wire .exact (msg, total) w ↔
    SecuredMessage.wire Demand.exactCalls.dialect (msg, total) w ∧ total = w.length := by
  constructor
  · rintro ⟨size, header, counted, fields, pay, data, trailer, trailers,
      hh, hs, hf, hd, hle, hp, htrl, htr, ht, hw, rfl, rfl⟩
    have hf := tight_fields.1 hf
    have ht := (tight_elements tight_trailerField _ _).1 ht
    refine ⟨⟨size, header, counted, fields, pay, data, trailer, trailers,
      hh, hs, hf, hd, hle, hp, htrl, htr, ht, trivial, rfl, rfl⟩, ?_⟩
    have hc := length_fields hf
    have htra := length_elements ht
    dsimp only [exact] at hw
    simp only [List.length_cons, List.length_append]
    omega
  · rintro ⟨⟨size, header, counted, fields, pay, data, trailer, trailers,
      hh, hs, hf, hd, hle, hp, htrl, htr, ht, -, htot, rfl⟩, hl⟩
    refine ⟨size, header, counted, fields, pay, data, trailer, trailers,
      hh, hs, tight_fields.2 hf, hd, hle, hp, htrl,
      htr, (tight_elements tight_trailerField _ _).2 ht, ?_, htot, rfl⟩
    have hc := length_fields hf
    have htra := length_elements ht
    simp only [List.length_cons, List.length_append] at hl
    dsimp only [exact]
    omega

end Vanetza.Security.V2
