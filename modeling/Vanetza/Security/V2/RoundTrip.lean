import Vanetza.Security.V2.Exactness
import Vanetza.Security.V2.Writing

/-!
# Messages there and back

A message that is written and read again comes back as it was, and its size is right, if it is well
formed and no chain of certificates in its header has 127 octets: the length of such a chain is
taken to be announced with two octets instead of one when it is read.
-/

namespace Vanetza.Security.V2

open InputArchive Lib Lib.Decoder List

theorem Dialect.exact_admits : Dialect.exact.Admits where
  call _ _ := trivial
  key _ h := h
  length _ := rfl
  request _ h := h

theorem lengthCodingSize_succ {n : Nat} (hn : n ≤ 1024) :
  lengthCodingSize (1 + n) = lengthCodingSize n + if n = 127 then 1 else 0 := by
  have h1 := fun n => lengthCodingSize_le_iff (m := 1) (by decide) (by decide) n
  have h2 := fun n => lengthCodingSize_le_iff (m := 2) (by decide) (by decide) n
  have hp := lengthCodingSize_pos n
  have hp' := lengthCodingSize_pos (1 + n)
  have ha := h1 n
  have hb := h1 (1 + n)
  have hc := (h2 n).2 (by omega)
  have hd := (h2 (1 + n)).2 (by omega)
  split <;> omega

theorem HeaderField.countedSize_eq (field : HeaderField) (hs : field.getSize ≤ 1024) :
  field.getSize ≤ field.countedSize ∧ (field.countedSize = field.getSize ↔
      ∀ list, field = .signerInfo (.certificateChain list) → Certificate.getSizes list ≠ 127) := by
  cases field with
  | signerInfo info =>
    cases info with
    | certificateChain list =>
      rw [getSize, SignerInfo.getSize] at hs
      rw [countedSize, SignerInfo.countedSize, getSize, SignerInfo.getSize]
      rw [lengthCodingSize_succ (by omega)]
      refine ⟨by split <;> omega, ?_⟩
      constructor
      · rintro h _ ⟨⟩ h127
        rw [if_pos h127] at h
        omega
      · intro h
        rw [if_neg (h list rfl)]
        omega
    | _ =>
      refine ⟨le_rfl, iff_of_true rfl ?_⟩
      rintro _ ⟨⟩
  | _ =>
    refine ⟨le_rfl, iff_of_true rfl ?_⟩
    rintro _ ⟨⟩

namespace SecuredMessage

structure WithinLimits (message : SecuredMessage) : Prop where
  header : getSizeList HeaderField.getSize message.headerFields ≤ 1024
  payload : message.payload.data.size .network .application ≤ 4096
  trailer : getSizeList TrailerField.getSize message.trailerFields ≤ 4096
  recipients : ∀ before list after, message.headerFields = before ++ .recipientInfo list :: after →
      ∃ param, .encryptionParameters param ∈ before
  reconstruction : ∀ field ∈ message.headerFields, field.NoReconstruction
  layers : message.payload.data.size .network .application = message.payload.data.bytes.length

structure WellFormed (message : SecuredMessage) : Prop where
  header : ∀ field ∈ message.headerFields, field.WellFormed
  chain : ∀ list, .signerInfo (.certificateChain list) ∈ message.headerFields →
      Certificate.getSizes list ≠ 127
  trailer : ∀ field ∈ message.trailerFields, field.signature.WellFormed

def received (message : SecuredMessage) : SecuredMessage :=
  { message with payload :=
      ⟨message.payload.type, .cohesive (.ofBuffer message.payload.data.bytes .network)⟩ }

def RoundTrips (message : SecuredMessage) : Prop :=
  ∃ bytes, message.serialize = .ok bytes ∧ bytes.length = message.getSize ∧
    ∀ rest, deserialize ⟨bytes ++ rest, none⟩ =
      .ok ((message.received, message.getSize), ⟨rest, none⟩)

end SecuredMessage

theorem fields_written {D : Dialect} (hD : D.Admits) {size read : Nat}
  (symAlgo : Option SymmetricAlgorithm) {list : List HeaderField}
  (hsi : read + getSizeList HeaderField.getSize list = size)
  (hle : getSizeList HeaderField.getSize list ≤ 1024) (h : ∀ field ∈ list, field.WellFormed)
  (hchn : ∀ chain, .signerInfo (.certificateChain chain) ∈ list →
    Certificate.getSizes chain ≠ 127 ∧ D.chain (Certificate.getSizes chain)
      (lengthCodingSize (Certificate.getSizes chain)))
  (hsub : ∀ field ∈ list, field.NoReconstruction)
  (hsym : ∀ before recipients after, list = before ++ .recipientInfo recipients :: after →
      symAlgo.isSome ∨ ∃ param, .encryptionParameters param ∈ before) :
  ∃ parts, list.mapM HeaderField.serialize = .ok parts ∧
    HeaderField.fields D size read symAlgo list size parts.flatten := by
  induction list generalizing read symAlgo with
  | nil =>
    rw [getSizeList_nil] at hsi
    exact ⟨[], rfl, by omega, by omega, rfl⟩
  | cons field list ih =>
    rw [getSizeList_cons] at hsi hle
    rw [forall_mem_cons] at h hsub
    have hfld : ∀ recipients, field = .recipientInfo recipients → symAlgo.isSome := by
      rintro recipients rfl
      obtain hs | ⟨param, ⟨⟩⟩ := hsym [] recipients list rfl
      exact hs
    have hc := (field.countedSize_eq (by omega)).2.2 fun chain hfld =>
      (hchn chain (hfld ▸ mem_cons_self)).1
    obtain ⟨fieldSize, u, hser, hu, hfi⟩ :=
      HeaderField.body_written hD h.1 hsub.1
        (fun chain hfld => (hchn chain (hfld ▸ mem_cons_self)).2) hfld (by omega)
    have hn : ∀ before recipients after, list = before ++ .recipientInfo recipients :: after →
          (HeaderField.nextAlgorithm symAlgo field).isSome ∨
            ∃ param, .encryptionParameters param ∈ before := by
      rintro before recipients after rfl
      obtain hs | ⟨param, hp⟩ := hsym (field :: before) recipients after rfl
      · left
        cases field with
        | encryptionParameters param => rfl
        | _ => exact hs
      · obtain rfl | hm := mem_cons.1 hp
        · exact .inl rfl
        · exact .inr ⟨param, hm⟩
    obtain ⟨parts, hpar, hf⟩ := @ih (read + 1 + fieldSize)
      (HeaderField.nextAlgorithm symAlgo field) (by omega) (by omega) h.2
      (fun chain hm => hchn chain (mem_cons_of_mem field hm)) hsub.2 hn
    refine ⟨(field.getType.code :: u) :: parts, ?_, ?_, fieldSize, u,
      parts.flatten, hu, hD.call _ _, hf, rfl⟩
    · rw [mapM_cons, HeaderField.serialize, hser, hpar]
      rfl
    · omega

namespace SecuredMessage

variable {message : SecuredMessage}

theorem TrailerField_written {D : Dialect} (hD : D.Admits) {list : List TrailerField}
  (h : ∀ field ∈ list, field.signature.WellFormed) :
  elements D.call TrailerField.getSize TrailerField.wire list
    (list.flatMap TrailerField.serialize) :=
  elements_flatMap hD fun field hf => ⟨h field hf, rfl⟩

theorem exact_written (hlim : message.WithinLimits) (h : message.WellFormed) :
  ∃ bytes, message.serialize = .ok bytes ∧
    wire .exact (message.received, message.getSize) bytes := by
  have hc : ∀ chain, .signerInfo (.certificateChain chain) ∈ message.headerFields →
      Certificate.getSizes chain ≠ 127 ∧ Dialect.exact.chain (Certificate.getSizes chain)
          (lengthCodingSize (Certificate.getSizes chain)) := by
    intro chain hm
    have hle : (HeaderField.signerInfo (.certificateChain chain)).getSize ≤
        getSizeList HeaderField.getSize message.headerFields :=
      getSize_le_list hm
    have hli := hlim.header
    rw [HeaderField.getSize, SignerInfo.getSize] at hle
    refine ⟨h.chain chain hm, ?_⟩
    dsimp only [Dialect.exact]
    rw [lengthCodingSize_succ (by omega), if_neg (h.chain chain hm)]
    rfl
  obtain ⟨parts, hp, hf⟩ := fields_written Dialect.exact_admits none
    (Nat.zero_add _) hlim.header h.header hc hlim.reconstruction fun before list after hl =>
      .inr (hlim.recipients before list after hl)
  have hh := hlim.header
  have hpay := hlim.payload
  have ht := hlim.trailer
  have hlay := hlim.layers
  refine ⟨_, ?_, _, _, _, _, _, _, _, _,
    announces_encodeLength (n := getSizeList HeaderField.getSize
      message.headerFields) (by omega), hh, hf, announces_encodeLength (by omega), by omega, rfl,
    announces_encodeLength (by dsimp only [received]; omega), ht,
    TrailerField_written Dialect.exact_admits h.trailer, ?_, ?_, rfl⟩
  · rw [serialize, serializeSigned, hp]
    simp [Payload.serialize, hlay, received]
  · dsimp only [Dialect.exact, received]
    rw [length_encodeLength (by omega), length_encodeLength (by omega),
      length_encodeLength (by omega)]
  · simp only [getSize, Payload.getSize, received, hlay]
    omega

theorem roundTrips_of_wellFormed (hlim : message.WithinLimits)
  (h : message.WellFormed) : message.RoundTrips := by
  obtain ⟨bytes, hs, hw⟩ := exact_written hlim h
  obtain ⟨hc, hl⟩ := (tight_securedMessage _ _ _).1 hw
  have ha := audits_securedMessage .exactCalls
  exact ⟨bytes, hs, hl.symm, fun rest =>
    ha.recognizes.complete rest (ha.within hc)⟩

end SecuredMessage

theorem fields_read {size read counted : Nat} {symAlgo : Option SymmetricAlgorithm}
  (hsym : ∀ algo, symAlgo = some algo → algo = .aes128Ccm)
  {list : List HeaderField} {w rest rest' : ByteBuffer} {parts : List ByteBuffer}
  (h : HeaderField.fields .any size read symAlgo list counted w)
  (hsub : ∀ field ∈ list, field.NoReconstruction) (hle : ∀ field ∈ list, field.getSize ≤ 1024)
  (hp : list.mapM HeaderField.serialize = .ok parts) (heq : w ++ rest = parts.flatten ++ rest') :
  (∀ field ∈ list, field.WellFormed) ∧
    counted = read + getSizeList HeaderField.countedSize list := by
  induction list generalizing read symAlgo w parts with
  | nil => exact ⟨nofun, h.2.1⟩
  | cons field list ih =>
    obtain ⟨-, fieldSize, u, v, hu, -, hv, rfl⟩ := h
    rw [forall_mem_cons] at hsub hle
    have hf := HeaderField.wellFormed_of_body hu
    have hkn : ∀ recipients, field = .recipientInfo recipients → symAlgo.isSome := by
      rintro recipients rfl
      exact hu.1
    obtain ⟨size', u', hser, hu', hc⟩ :=
      HeaderField.body_written Dialect.any_admits hf hsub.1 (fun _ _ => trivial) hkn hle.1
    rw [mapM_cons, HeaderField.serialize, hser] at hp
    obtain ⟨_, ⟨⟩, hp⟩ := bind_eq_ok_iff.1 hp
    obtain ⟨parts, ht, ⟨⟩⟩ := bind_eq_ok_iff.1 hp
    rw [flatten_cons, cons_append, append_assoc, cons_append, cons_append, append_assoc,
      cons.injEq] at heq
    have hr := (audits_headerField .none hsym field.getType).recognizes
    obtain ⟨hs, hre⟩ : (field, fieldSize) = (field, size') ∧ _ :=
      hr.unique ⟨rfl, hu⟩ ⟨rfl, hu'⟩ heq.2
    cases hs
    obtain ⟨hl, htot⟩ := ih (HeaderField.nextAlgorithm_aes hsym field) hv hsub.2 hle.2 ht hre
    refine ⟨forall_mem_cons.2 ⟨hf, hl⟩, ?_⟩
    rw [htot, getSizeList_cons, hc]
    omega

theorem getSizeList_eq {α : Type} {getSize getSize' : α → Nat} {list : List α}
  (hle : ∀ a ∈ list, getSize a ≤ getSize' a)
  (h : getSizeList getSize' list ≤ getSizeList getSize list) :
  ∀ a ∈ list, getSize' a = getSize a := by
  induction list with
  | nil => exact nofun
  | cons a list ih =>
    rw [forall_mem_cons] at hle ⊢
    rw [getSizeList_cons, getSizeList_cons] at h
    have hs : getSizeList getSize list ≤ getSizeList getSize' list := sum_le_sum hle.2
    exact ⟨by omega, ih hle.2 (by omega)⟩

namespace SecuredMessage

variable {message : SecuredMessage}

theorem wellFormed_of_roundTrips (hlim : message.WithinLimits)
  (h : message.RoundTrips) : message.WellFormed := by
  obtain ⟨bytes, hser, -, hr⟩ := h
  have hr := hr []
  obtain ⟨w, hw, hbs⟩ := (audits_securedMessage .none).recognizes.sound hr
  rw [append_nil, append_nil] at hbs
  subst hbs
  obtain ⟨size, header, counted, fields, pay, data, trailer, trailers,
    hh, -, hf, -, -, hd, -, -, ht, -, htot, hbs⟩ := hw
  obtain ⟨signed, hsig, ⟨⟩⟩ := bind_eq_ok_iff.1 hser
  obtain ⟨parts, hp, ⟨⟩⟩ := bind_eq_ok_iff.1 hsig
  have hl := hlim.header
  have hs : ∀ field ∈ message.headerFields, field.getSize ≤ 1024 :=
    fun field hfld => (getSize_le_list hfld).trans hl
  have hwr := announces_encodeLength
    (n := getSizeList HeaderField.getSize message.headerFields) (by omega)
  simp only [cons_append, append_assoc, cons.injEq, true_and] at hbs
  obtain ⟨-, hre⟩ := recognizes_length.unique hwr hh hbs
  have hn : ∀ algo, (none : Option SymmetricAlgorithm) = some algo → algo = .aes128Ccm := nofun
  obtain ⟨hfor, hc⟩ := fields_read hn hf hlim.reconstruction hs hp hre.symm
  refine ⟨hfor, ?_, forall_of_elements (fun field w h => h.1) ht⟩
  have hco : ∀ field ∈ message.headerFields, field.getSize ≤ field.countedSize :=
    fun field hfld => (field.countedSize_eq (hs field hfld)).1
  have hsum : getSizeList HeaderField.getSize message.headerFields ≤ counted := by
    rw [hc, Nat.zero_add]
    exact sum_le_sum hco
  have hd : message.payload.data.bytes = data :=
    congrArg CohesivePacket.buffer (PacketVariant.cohesive.inj hd)
  have hlay := hlim.layers
  have heq : counted = getSizeList HeaderField.getSize message.headerFields := by
    simp only [getSize, Payload.getSize, received, hlay, hd] at htot
    have hcod := (lengthCodingSize_le_iff (m := 2) (by decide) (by decide)
      (getSizeList HeaderField.getSize message.headerFields)).2 (by omega)
    have hm := lengthCodingSize_mono hsum (by omega)
    omega
  intro list hmem
  refine (HeaderField.countedSize_eq _ (hs _ hmem)).2.1 ?_ list rfl
  refine getSizeList_eq hco (le_of_eq ?_) _ hmem
  rw [← heq, hc, Nat.zero_add]
  rfl

/-- Within the limits of the deserializer, it is the well-formed messages that
come back. -/
theorem round_trips_iff (hlimits : message.WithinLimits) :
  message.RoundTrips ↔ message.WellFormed :=
  ⟨wellFormed_of_roundTrips hlimits, roundTrips_of_wellFormed hlimits⟩

def ofChain (subjectName : ByteBuffer) : SecuredMessage :=
  let signature : Signature := ⟨⟨.xCoordinateOnly (.replicate 32 0), .replicate 32 0⟩⟩
  let cert : Certificate := ⟨.self, ⟨.authorizationTicket, subjectName⟩, [], [], signature⟩
  ⟨[.signerInfo (.certificateChain [cert])], [⟨signature⟩], ⟨.signed, .chunk .empty⟩⟩

theorem ofChain_limits {subjectName : ByteBuffer} (hs : getSizeList HeaderField.getSize
    (ofChain subjectName).headerFields ≤ 1024) :
  (ofChain subjectName).WithinLimits where
  header := hs
  payload := Nat.zero_le 4096
  trailer := Nat.le_of_ble_eq_true rfl
  recipients := by
    intro before list after h
    have hm : .recipientInfo list ∈ (ofChain subjectName).headerFields := by
      rw [h]
      exact mem_append_right _ mem_cons_self
    cases hm with
    | tail _ hm => cases hm
  reconstruction := by
    intro field hf
    obtain rfl := mem_singleton.1 hf
    intro cert hcert point hpt
    obtain rfl := mem_singleton.1 hcert
    cases hpt
  layers := rfl

theorem ofChain_72_round_trips : (ofChain []).RoundTrips := by
  refine (round_trips_iff (ofChain_limits (by decide))).2 ⟨?_, ?_, ?_⟩
  · intro field hf
    obtain rfl := mem_singleton.1 hf
    intro cert hcert
    obtain rfl := mem_singleton.1 hcert
    exact ⟨⟨nofun, nofun⟩, nofun, nofun, rfl, rfl⟩
  · intro list hm
    cases mem_singleton.1 hm
    decide
  · intro field hf
    obtain rfl := mem_singleton.1 hf
    exact ⟨rfl, rfl⟩

/-- A chain of 127 octets counts for one octet too many. -/
theorem ofChain_127_not_round_trips : (ofChain (.replicate 55 0)).WithinLimits ∧
    ¬ (ofChain (.replicate 55 0)).RoundTrips := by
  have hl : (ofChain (.replicate 55 0)).WithinLimits := ofChain_limits (by decide)
  refine ⟨hl, fun h => ?_⟩
  exact (wellFormed_of_roundTrips hl h).chain _ mem_cons_self (by decide)

end SecuredMessage

end Vanetza.Security.V2
