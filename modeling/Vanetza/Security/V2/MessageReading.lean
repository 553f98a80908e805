import Vanetza.Security.V2.Reading

/-!
# Reading messages

The deserializer of a message recognizes the format of messages, and demands on
the calls it makes are demands on the dialect. What remains after certificates
are recipients, header fields, payload and trailer.
-/

namespace Vanetza.Security.V2

open InputArchive Lib Lib.Decoder Audits RecipientInfo

namespace RecipientInfo

def meets (demand : Demand) : Input ErrorCode → Prop :=
  After (loadOctets 8) fun _ => After loadByte fun byte input =>
    (⟨byte⟩ : PublicKeyAlgorithm) ≠ .eciesNistp256 →
      After deserializeLength (fun length _ => demand.key length) input

theorem getSize_pos (info : RecipientInfo) : 1 ≤ info.getSize := by
  rw [getSize]
  omega

end RecipientInfo

theorem recognizes_ecies :
  Recognizes (RecipientInfo.deserializeEcies .aes128Ccm)
    fun key w => key.v.HasSize 32 ∧ key.c.length = 16 ∧
      w = key.v.serialize ++ (key.c ++ key.t.toList) := by
  have h : Recognizes (deserializeEcies .aes128Ccm) _ :=
    (recognizes_eccPoint .eciesNistp256).bind fun v =>
      (recognizes_binary 16).bind fun c =>
      (recognizes_octets 16).map fun t => EciesEncryptedKey.mk v c t
  refine h.congr fun key w => ?_
  constructor
  · rintro ⟨v, _, _, ⟨hv, rfl⟩, ⟨_, c, _, ⟨rfl, hc⟩, ⟨t, rfl, rfl⟩, rfl⟩, rfl⟩
    exact ⟨hv, hc, rfl⟩
  · rintro ⟨hv, hc, rfl⟩
    exact ⟨key.v, _, _, ⟨hv, rfl⟩, ⟨key.c, _, _, ⟨rfl, hc⟩, ⟨key.t, rfl, rfl⟩,
      rfl⟩, rfl⟩

/-- An opaque key behind its announced length, of which `key` is demanded. -/
def opaqueData (key : Nat → Prop) : Format ByteBuffer :=
  fun data w => ∃ length u, Announces length u ∧ key length ∧
    data.length = (if length ≤ 512 then length else 0) ∧ w = u ++ data

theorem opaqueData_iff (key : Nat → Prop) (data w : ByteBuffer) :
  Format.bind Announces (fun length data w => key length ∧
    (length ≤ 512 ∧ w = data ∧ data.length = length ∨
      ¬ length ≤ 512 ∧ Format.pure [] data w)) data w ↔
  opaqueData key data w := by
  have hd : ∀ (length : Nat) (data w : ByteBuffer),
      (length ≤ 512 ∧ w = data ∧ data.length = length ∨ ¬ length ≤ 512 ∧ Format.pure [] data w) ↔
      data.length = (if length ≤ 512 then length else 0) ∧ w = data := by
    intro length data w
    split
    · next hle =>
      rw [and_iff_right hle, or_iff_left fun h => h.1 hle, and_comm]
    next hle =>
    rw [and_iff_right hle, or_iff_right fun h => hle h.1, List.length_eq_zero_iff]
    constructor
    · rintro ⟨rfl, rfl⟩
      exact ⟨rfl, rfl⟩
    · rintro ⟨rfl, rfl⟩
      exact ⟨rfl, rfl⟩
  constructor
  · rintro ⟨length, u, _, hu, ⟨hk, hv⟩, rfl⟩
    obtain ⟨hl, rfl⟩ := (hd length data _).1 hv
    exact ⟨length, u, hu, hk, hl, rfl⟩
  · rintro ⟨length, u, hu, hk, hl, rfl⟩
    exact ⟨length, u, data, hu, ⟨hk, (hd length data _).2 ⟨hl, rfl⟩⟩,
      rfl⟩

theorem audits_opaqueKey (demand : Demand) :
  Audits RecipientInfo.deserializeOpaque (After deserializeLength fun length _ => demand.key length)
    (opaqueData fun _ => True) (opaqueData demand.key) := by
  have h : Audits deserializeOpaque _ _ _ :=
    bind_right recognizes_length fun length =>
      (of_prop (demand.key length)
        (Recognizes.ite_else (c := length ≤ 512) (recognizes_binary length)
          (.pure []))).congr (fun _ _ => (and_iff_right trivial).symm) (fun _ _ => Iff.rfl)
  exact h.congr (opaqueData_iff fun _ => True) (opaqueData_iff demand.key)

theorem audits_recipientInfo (demand : Demand) :
  Audits (RecipientInfo.deserialize .aes128Ccm) (RecipientInfo.meets demand)
    (sized RecipientInfo.getSize (RecipientInfo.wire .any))
    (sized RecipientInfo.getSize (RecipientInfo.wire demand.dialect)) := by
  have hend : ∀ certId encKey, Recognizes (pure ((⟨certId, encKey⟩ : RecipientInfo),
        (⟨certId, encKey⟩ : RecipientInfo).getSize) :
          Deserialize (RecipientInfo × Nat)) _ :=
    fun certId encKey => .pure _
  have h : Audits (deserialize .aes128Ccm) _ _ _ :=
    bind_right (recognizes_octets 8) fun certId =>
      bind_right recognizes_byte fun byte =>
      ite_else (c := (⟨byte⟩ : PublicKeyAlgorithm) = .eciesNistp256)
        (of_recognizes ((recognizes_ecies.map Key.ecies).bind (hend certId)))
        (((audits_opaqueKey demand).map Key.opaqueKey).bind_left (hend certId))
  refine (h.congr ?_ ?_).congr_demand fun input => ?_
  case refine_3 =>
    refine after_congr (fun certId _ => after_congr (fun byte _ => ?_) _) _
    exact (and_iff_right fun _ => trivial).symm
  all_goals
    intro out w
    constructor
    · rintro ⟨certId, _, _, rfl, ⟨byte, _, _, rfl, hb, rfl⟩, rfl⟩
      obtain ⟨ha, _, _, _, ⟨key, ⟨hv, hc, rfl⟩, rfl⟩, ⟨rfl, rfl⟩, rfl⟩ |
        ⟨ha, _, _, _, ⟨data, ⟨length, u, hu, hk, hl, rfl⟩, rfl⟩, ⟨rfl, rfl⟩, rfl⟩ := hb
      · cases ha
        refine ⟨⟨certId, .ecies key⟩, ⟨hv, hc, ?_⟩, rfl⟩
        simp [serialize, pkEncryption, PublicKeyAlgorithm.eciesNistp256]
      · refine ⟨⟨certId, .opaqueKey data⟩, ⟨⟨byte⟩, length, u, ha, ⟨hu, trivial⟩, hk, hl, ?_⟩, rfl⟩
        simp
    · rintro ⟨⟨certId, encKey⟩, hw, rfl⟩
      cases encKey with
      | ecies key =>
        obtain ⟨hv, hc, rfl⟩ := hw
        refine ⟨certId, _, _, rfl, ⟨1, _, _, rfl, .inl ⟨rfl, _, _, _,
          ⟨key, ⟨hv, hc, rfl⟩, rfl⟩, ⟨rfl, rfl⟩, rfl⟩, rfl⟩, ?_⟩
        simp [serialize, pkEncryption, PublicKeyAlgorithm.eciesNistp256]
      | opaqueKey data =>
        obtain ⟨algo, length, u, ha, ⟨hu, -⟩, hk, hl, rfl⟩ := hw
        refine ⟨certId, _, _, rfl, ⟨algo.raw, _, _, rfl, .inr ⟨ha, _, _, _,
          ⟨data, ⟨length, u, hu, hk, hl, rfl⟩, rfl⟩, ⟨rfl, rfl⟩, rfl⟩,
          rfl⟩, ?_⟩
        simp

theorem HeaderFieldType.ofCode_code (type : HeaderFieldType) :
  ofCode type.code = some type := by
  cases type <;> rfl

theorem recognizes_encryptionParameter :
  Recognizes EncryptionParameter.deserialize (sized EncryptionParameter.getSize
      fun param w => w = param.serialize) := by
  have h : Recognizes EncryptionParameter.deserialize _ :=
    recognizes_byte.bind_written fun byte =>
      Recognizes.ite ((recognizes_octets 12).map fun nonce =>
        ((⟨nonce⟩ : EncryptionParameter), 1 + 12)) (.throw _)
  refine h.congr fun out w => ?_
  constructor
  · rintro ⟨byte, _, ⟨ha, nonce, rfl, rfl⟩, rfl⟩
    cases ha
    exact ⟨⟨nonce⟩, rfl, rfl⟩
  · rintro ⟨param, rfl, rfl⟩
    exact ⟨0, _, ⟨rfl, param.nonce, rfl, rfl⟩, rfl⟩

theorem recognizes_ids (n : Nat) :
  Recognizes (HeaderField.deserializeIds n) fun list w =>
    list.length = n ∧ w = list.flatMap List.Vector.toList := by
  induction n with
  | zero =>
    refine (Recognizes.pure []).congr fun list w => ?_
    constructor
    · rintro ⟨rfl, rfl⟩
      exact ⟨rfl, rfl⟩
    · rintro ⟨hl, rfl⟩
      obtain rfl := List.length_eq_zero_iff.1 hl
      exact ⟨rfl, rfl⟩
  | succ n ih =>
    have h : Recognizes (HeaderField.deserializeIds (n + 1)) _ :=
      (recognizes_octets 3).bind_written fun id => ih.map fun list =>
        id :: list
    refine h.congr fun list w => ?_
    constructor
    · rintro ⟨id, _, ⟨list, ⟨rfl, rfl⟩, rfl⟩, rfl⟩
      exact ⟨rfl, rfl⟩
    rintro ⟨hl, rfl⟩
    cases list with
    | nil => cases hl
    | cons id list => exact ⟨id, _, ⟨list, ⟨Nat.succ.inj hl, rfl⟩, rfl⟩, rfl⟩

namespace HeaderField

def bodyMeets (demand : Demand) (symAlgo : Option SymmetricAlgorithm) :
  HeaderFieldType → Input ErrorCode → Prop
  | .signerInfo => SignerInfo.meets demand.call
  | .recipientInfo => fun input => ∀ algo, symAlgo = some algo →
      listMeets demand.call (RecipientInfo.deserialize algo)
        (RecipientInfo.meets demand) input
  | _ => fun _ => True

end HeaderField

theorem audits_headerField (demand : Demand) {symAlgo : Option SymmetricAlgorithm}
  (hs : ∀ algo, symAlgo = some algo → algo = .aes128Ccm) (type : HeaderFieldType) :
  Audits (HeaderField.deserialize symAlgo type) (HeaderField.bodyMeets demand symAlgo type)
    (fun out w => out.1.getType = type ∧ HeaderField.body .any symAlgo out w)
    (fun out w => out.1.getType = type ∧ HeaderField.body demand.dialect symAlgo out w) := by
  have hl : ∀ {type} {d : Deserialize (HeaderField × Nat)}
      {H : Format (HeaderField × Nat)}, Recognizes d H →
      (∀ (D : Dialect) field size w, H (field, size) w ↔
        field.getType = type ∧ HeaderField.body D symAlgo (field, size) w) →
      Audits d (fun _ => True) (fun out w => out.1.getType = type ∧
          HeaderField.body .any symAlgo out w) (fun out w => out.1.getType = type ∧
          HeaderField.body demand.dialect symAlgo out w) :=
    fun hd hkind => (of_recognizes hd).congr (fun out w => hkind .any out.1 out.2 w)
      (fun out w => hkind demand.dialect out.1 out.2 w)
  cases type with
  | generationTime =>
    refine hl (recognizes_uint64.map fun time =>
      (HeaderField.generationTime time, 8)) ?_
    intro D field size w
    constructor
    · rintro ⟨time, rfl, ⟨⟩⟩
      exact ⟨rfl, rfl, rfl⟩
    rintro ⟨ht, hb⟩
    cases field <;> cases ht
    obtain ⟨rfl, rfl⟩ := hb
    exact ⟨_, rfl, rfl⟩
  | generationTimeConfidence =>
    refine hl (recognizes_uint64.bind_written fun time =>
      recognizes_byte.map fun logStdDev =>
        (HeaderField.generationTimeConfidence time logStdDev, 8 + 1)) ?_
    intro D field size w
    constructor
    · rintro ⟨time, _, ⟨logStdDev, rfl, ⟨⟩⟩, rfl⟩
      exact ⟨rfl, rfl, rfl⟩
    rintro ⟨ht, hb⟩
    cases field <;> cases ht
    obtain ⟨rfl, rfl⟩ := hb
    exact ⟨_, _, ⟨_, rfl, rfl⟩, rfl⟩
  | expiration =>
    refine hl (recognizes_uint32.map fun time =>
      (HeaderField.expiration time, 4)) ?_
    intro D field size w
    constructor
    · rintro ⟨time, rfl, ⟨⟩⟩
      exact ⟨rfl, rfl, rfl⟩
    rintro ⟨ht, hb⟩
    cases field <;> cases ht
    obtain ⟨rfl, rfl⟩ := hb
    exact ⟨_, rfl, rfl⟩
  | generationLocation =>
    refine hl (recognizes_threeDLocation.map fun out =>
      (HeaderField.generationLocation out.1, out.2)) ?_
    intro D field size w
    constructor
    · rintro ⟨_, ⟨loc, rfl, rfl⟩, ⟨⟩⟩
      exact ⟨rfl, rfl, rfl⟩
    rintro ⟨ht, hb⟩
    cases field <;> cases ht
    obtain ⟨rfl, rfl⟩ := hb
    exact ⟨_, ⟨_, rfl, rfl⟩, rfl⟩
  | encryptionParameters =>
    refine hl (recognizes_encryptionParameter.map fun out =>
      (HeaderField.encryptionParameters out.1, out.2)) ?_
    intro D field size w
    constructor
    · rintro ⟨_, ⟨param, rfl, rfl⟩, ⟨⟩⟩
      exact ⟨rfl, rfl, rfl⟩
    rintro ⟨ht, hb⟩
    cases field <;> cases ht
    obtain ⟨rfl, rfl⟩ := hb
    exact ⟨_, ⟨_, rfl, rfl⟩, rfl⟩
  | requestUnrecognizedCertificate =>
    have hr := recognizes_length.bind fun size =>
      (recognizes_ids ((size + 2) / 3)).map fun list =>
        (HeaderField.requestUnrecognizedCertificate list, size + lengthCodingSize size)
    refine (of_recognizes hr).congr ?_ ?_ <;>
    · rintro ⟨field, size⟩ w
      constructor
      · rintro ⟨announced, u, _, hu, ⟨list, ⟨hlen, rfl⟩, ⟨⟩⟩, rfl⟩
        exact ⟨rfl, announced, u, ⟨hu, trivial⟩, trivial, hlen, rfl, rfl⟩
      rintro ⟨ht, hb⟩
      cases field <;> cases ht
      obtain ⟨announced, u, ⟨hu, -⟩, -, hlen, rfl, rfl⟩ := hb
      exact ⟨announced, u, _, hu, ⟨_, ⟨hlen, rfl⟩, rfl⟩, rfl⟩
  | itsAid =>
    refine (of_recognizes (recognizes_intX.map fun out =>
      (HeaderField.itsAid out.1, out.2))).congr ?_ ?_ <;>
    · rintro ⟨field, size⟩ w
      constructor
      · rintro ⟨_, ⟨id, hid, rfl⟩, ⟨⟩⟩
        exact ⟨rfl, hid, rfl⟩
      rintro ⟨ht, hb⟩
      cases field <;> cases ht
      obtain ⟨hid, rfl⟩ := hb
      exact ⟨_, ⟨_, hid, rfl⟩, rfl⟩
  | signerInfo =>
    refine ((audits_signerInfo demand).map fun out =>
      (HeaderField.signerInfo out.1, out.2)).congr ?_ ?_ <;>
    · rintro ⟨field, size⟩ w
      constructor
      · rintro ⟨_, ⟨info, hin, rfl⟩, ⟨⟩⟩
        exact ⟨rfl, hin, rfl⟩
      rintro ⟨ht, hb⟩
      cases field <;> cases ht
      obtain ⟨hin, rfl⟩ := hb
      exact ⟨_, ⟨_, hin, rfl⟩, rfl⟩
  | recipientInfo =>
    cases symAlgo with
    | none =>
      refine ((of_recognizes (.throw _)).congr ?_ ?_).congr_demand
        fun input => iff_of_true (fun algo h => nomatch h) trivial <;>
      · rintro ⟨field, size⟩ w
        refine iff_of_false id ?_
        rintro ⟨ht, hb⟩
        cases field <;> cases ht
        exact absurd hb.1 (by decide)
    | some algo =>
      obtain rfl := hs algo rfl
      have hli := audits_list demand.call (audits_recipientInfo demand) getSize_pos
      refine ((hli.map fun out => (HeaderField.recipientInfo out.1,
        out.2 + lengthCodingSize out.2)).congr ?_ ?_).congr_demand ?_
      case refine_3 =>
        intro input
        constructor
        · intro h
          exact h _ rfl
        · rintro h _ ⟨⟩
          exact h
      all_goals
        rintro ⟨field, size⟩ w
        constructor
        · rintro ⟨_, ⟨list, hli, rfl⟩, ⟨⟩⟩
          exact ⟨rfl, rfl, hli, rfl⟩
        rintro ⟨ht, hb⟩
        cases field <;> cases ht
        obtain ⟨-, hli, rfl⟩ := hb
        exact ⟨_, ⟨_, hli, rfl⟩, rfl⟩

namespace HeaderField

def fieldsMeet (demand : Demand) (size : Nat) :
  Nat → Nat → Option SymmetricAlgorithm → Input ErrorCode → Prop
  | 0, _, _ => fun _ => True
  | fuel + 1, read, symAlgo => fun input => read < size →
      After loadByte (fun byte input => ∀ type,
        HeaderFieldType.ofCode byte = some type →
        (bodyMeets demand symAlgo type input ∧
          Takes (deserialize symAlgo type) (fun out => demand.call out.2)
            input) ∧
        After (deserialize symAlgo type) (fun out =>
          fieldsMeet demand size fuel (read + 1 + out.2)
            (nextAlgorithm symAlgo out.1)) input) input

def listMeets (demand : Demand) : Input ErrorCode → Prop :=
  After deserializeLength fun size => fieldsMeet demand size size 0 none

theorem nextAlgorithm_aes {symAlgo : Option SymmetricAlgorithm}
  (hs : ∀ algo, symAlgo = some algo → algo = .aes128Ccm)
  (field : HeaderField) (algo : SymmetricAlgorithm)
  (h : nextAlgorithm symAlgo field = some algo) : algo = .aes128Ccm := by
  cases field with
  | encryptionParameters param => exact (Option.some.inj h).symm
  | _ => exact hs algo h

end HeaderField

theorem fields_end_iff (D : Dialect) {size read : Nat}
  {symAlgo : Option SymmetricAlgorithm} (hle : size ≤ read)
  (out : List HeaderField × Nat) (w : ByteBuffer) :
  Format.pure ([], read) out w ↔ HeaderField.fields D size read symAlgo out.1 out.2 w := by
  obtain ⟨list, total⟩ := out
  cases list with
  | nil =>
    constructor
    · rintro ⟨⟨⟩, rfl⟩
      exact ⟨hle, rfl, rfl⟩
    · rintro ⟨-, rfl, rfl⟩
      exact ⟨rfl, rfl⟩
  | cons field list =>
    refine iff_of_false (fun h => nomatch h.1) ?_
    rintro ⟨hlt, -⟩
    omega

theorem audits_fields (demand : Demand) {size fuel read : Nat}
  {symAlgo : Option SymmetricAlgorithm} (hfu : size ≤ read + fuel)
  (hs : ∀ algo, symAlgo = some algo → algo = .aes128Ccm) :
  Audits (HeaderField.deserializeFields size fuel read symAlgo)
    (HeaderField.fieldsMeet demand size fuel read symAlgo)
    (fun out w => HeaderField.fields .any size read symAlgo out.1 out.2 w)
    (fun out w => HeaderField.fields demand.dialect size read symAlgo out.1 out.2 w) := by
  induction fuel generalizing read symAlgo with
  | zero =>
    exact (of_recognizes (.pure _)).congr (fields_end_iff .any (by omega))
      (fields_end_iff demand.dialect (by omega))
  | succ fuel ih =>
    have hcal := fun type =>
      ((audits_headerField demand hs type).takes
        (Q := fun out => demand.call out.2)).congr
        (fun _ _ => (and_iff_left trivial).symm) (fun _ _ => Iff.rfl)
    have hty := fun type => (hcal type).bind fun out =>
      (@ih (read + 1 + out.2) (HeaderField.nextAlgorithm symAlgo out.1)
        (by omega) (HeaderField.nextAlgorithm_aes hs out.1)).map
        fun tail => (out.1 :: tail.1, tail.2)
    have h : Audits (HeaderField.deserializeFields size (fuel + 1) read symAlgo) _ _ _ :=
      bind_right Recognizes.isGood fun good =>
        ite_else (c := read < size ∧ good = true)
          (audits_byType _ _ _ HeaderFieldType.ofCode_code findCode_eq (fun type => by
              simp only [HeaderFieldType.ofCode_code]
              exact hty type)
            (fun byte hby => by
              simp only [hby]
              exact .throw _))
          (of_recognizes (.pure ([], read)))
    refine (h.congr ?_ ?_).congr_demand ?_
    case refine_3 =>
      intro bytes
      constructor
      · rintro h good output ⟨⟩
        exact ⟨fun hc => h hc.1, fun _ => trivial⟩
      · intro h hlt
        exact (h true ⟨bytes, none⟩ rfl).1 ⟨hlt, rfl⟩
    all_goals
      rintro ⟨list, total⟩ w
      constructor
      · rintro ⟨_, _, _, ⟨rfl, rfl⟩, hb, rfl⟩
        obtain ⟨⟨hlt, -⟩, _, _, ⟨⟨field, fieldSize⟩, u, v, ⟨⟨rfl, hu⟩, hca⟩,
          ⟨⟨tail, total⟩, ht, ⟨⟩⟩, rfl⟩, rfl⟩ | ⟨hge, hp⟩ := hb
        · exact ⟨hlt, fieldSize, u, v, hu, hca, ht, rfl⟩
        · refine (fields_end_iff _ ?_ _ _).1 hp
          by_contra hlt
          exact hge ⟨by omega, rfl⟩
      · intro hf
        cases list with
        | nil =>
          refine ⟨true, [], w, ⟨rfl, rfl⟩, .inr ⟨?_, ?_⟩, rfl⟩
          · rintro ⟨hlt, -⟩
            have := hf.1
            omega
          · exact (fields_end_iff _ hf.1 ([], total) w).2 hf
        | cons field list =>
          obtain ⟨hlt, fieldSize, u, v, hu, hca, ht, rfl⟩ := hf
          exact ⟨true, [], _, ⟨rfl, rfl⟩, .inl ⟨⟨hlt, rfl⟩, field.getType, _,
            ⟨(field, fieldSize), u, v, ⟨⟨rfl, hu⟩, hca⟩,
              ⟨(list, total), ht, rfl⟩, rfl⟩, rfl⟩, rfl⟩

theorem recognizes_payload :
  Recognizes Payload.deserialize fun out w => ∃ data u,
    Announces data.length u ∧ data.length ≤ 4096 ∧
    out.1.data = .cohesive (.ofBuffer data .network) ∧
    out.2 = 1 + lengthCodingSize data.length + data.length ∧ w = out.1.type.raw :: (u ++ data) := by
  have h : Recognizes Payload.deserialize _ :=
    recognizes_byte.bind_written fun type => recognizes_length.bind fun length =>
      Recognizes.ite ((recognizes_binary length).map fun buf =>
          ((⟨⟨type⟩, .cohesive (.ofBuffer buf .network)⟩ : Payload),
            1 + lengthCodingSize length + length))
        ((Recognizes.note _).bind_empty fun _ => .pure _)
  refine h.congr fun out w => ?_
  constructor
  · rintro ⟨type, _, ⟨_, u, data, hu, ⟨hle, _, ⟨rfl, rfl⟩, rfl⟩, rfl⟩, rfl⟩
    exact ⟨data, u, hu, hle, rfl, rfl, rfl⟩
  · obtain ⟨⟨type, pkt⟩, size⟩ := out
    rintro ⟨data, u, hu, hle, rfl, rfl, rfl⟩
    exact ⟨type.raw, _, ⟨_, u, data, hu, ⟨hle, _, ⟨rfl, rfl⟩, rfl⟩, rfl⟩, rfl⟩

theorem recognizes_trailerField :
  Recognizes TrailerField.deserialize (sized TrailerField.getSize TrailerField.wire) := by
  have h : Recognizes TrailerField.deserialize _ :=
    recognizes_byte.bind_written fun type =>
      Recognizes.ite (recognizes_signature.map fun out =>
        ((⟨out.1⟩ : TrailerField), 1 + out.2)) (.throw _)
  refine h.congr fun out w => ?_
  constructor
  · rintro ⟨_, _, ⟨rfl, _, ⟨sig, ⟨hs, rfl⟩, rfl⟩, rfl⟩, rfl⟩
    exact ⟨⟨sig⟩, ⟨hs, rfl⟩, rfl⟩
  · rintro ⟨field, ⟨hs, rfl⟩, rfl⟩
    exact ⟨TrailerField.typeSignature, _, ⟨rfl, _, ⟨field.signature, ⟨hs, rfl⟩, rfl⟩, rfl⟩, rfl⟩

theorem TrailerField.getSize_pos (field : TrailerField) :
  1 ≤ field.getSize := Nat.le_add_right 1 _

theorem audits_headerFields (demand : Demand) :
  Audits HeaderField.deserializeList (HeaderField.listMeets demand)
    (fun out w => ∃ size u v, Announces size u ∧ size ≤ 1024 ∧
      HeaderField.fields .any size 0 none out.1 out.2 v ∧ w = u ++ v)
    (fun out w => ∃ size u v, Announces size u ∧ size ≤ 1024 ∧
      HeaderField.fields demand.dialect size 0 none out.1 out.2 v ∧ w = u ++ v) := by
  have hf : ∀ size, Audits (HeaderField.deserializeFields size size 0 none) _ _ _ :=
    fun size => audits_fields demand (by omega) (fun algo h => nomatch h)
  have h : Audits HeaderField.deserializeList _ _ _ :=
    bind_right recognizes_length fun size =>
      ite_else (c := 1024 < size) (of_empty (HeaderField.fieldsMeet demand size size 0 none)
          ((Recognizes.note _).bind_empty fun _ => (hf size).recognizes)) (hf size)
  refine (h.congr ?_ ?_).congr_demand ?_
  case refine_3 =>
    intro bytes
    refine after_congr (fun size _ => ?_) _
    constructor
    · intro h
      exact ⟨fun _ => h, fun _ => h⟩
    intro h
    by_cases hc : 1024 < size
    · exact h.1 hc
    · exact h.2 hc
  all_goals
    intro out w
    constructor
    · rintro ⟨size, u, v, hu, ⟨_, ⟨⟩⟩ | ⟨hle, hv⟩, rfl⟩
      exact ⟨size, u, v, hu, by omega, hv, rfl⟩
    · rintro ⟨size, u, v, hu, hle, hv, rfl⟩
      exact ⟨size, u, v, hu, .inr ⟨by omega, hv⟩, rfl⟩

def SecuredMessage.meets (demand : Demand) : Input ErrorCode → Prop :=
  After loadByte fun _ input => HeaderField.listMeets demand input ∧
    After HeaderField.deserializeList (fun _ => After Payload.deserialize
      fun _ => listMeets demand.call TrailerField.deserialize
        fun _ => True) input

theorem audits_securedMessage (demand : Demand) :
  Audits SecuredMessage.deserialize (SecuredMessage.meets demand)
    (SecuredMessage.wire .any) (SecuredMessage.wire demand.dialect) := by
  have htrl := audits_list demand.call
    (of_recognizes recognizes_trailerField) TrailerField.getSize_pos
  have h : Audits SecuredMessage.deserialize _ _ _ :=
    bind_right recognizes_byte fun version =>
      ite
        ((audits_headerFields demand).bind fun header =>
          bind_right recognizes_payload fun pay =>
          htrl.map fun trailer =>
            ((⟨header.1, trailer.1, pay.1⟩ : SecuredMessage),
              1 + (header.2 + lengthCodingSize header.2) + pay.2 +
                (trailer.2 + lengthCodingSize trailer.2)))
        (.throw _)
  refine h.congr ?_ ?_ <;>
  · rintro ⟨⟨headerFields, trailerFields, ⟨type, pkt⟩⟩, total⟩ w
    constructor
    · rintro ⟨_, _, _, rfl, ⟨rfl, ⟨_, counted⟩, _, _, ⟨size, header, fields,
        hh, hs, hf, rfl⟩, ⟨⟨pay, _⟩, _, _, ⟨data, dataLength,
        hd, hle, hp, rfl, rfl⟩, ⟨_, ⟨_, ⟨trailer, trailers, ⟨htrl,
        -⟩, ht, htr, rfl⟩, rfl⟩, ⟨⟩⟩, rfl⟩, rfl⟩, rfl⟩
      refine ⟨size, header, counted, fields, dataLength, data, trailer, trailers,
        hh, hs, hf, hd, hle, hp, htrl, ht, htr, trivial, rfl, ?_⟩
      simp only [List.append_assoc, List.cons_append, List.nil_append]
    · rintro ⟨size, header, counted, fields, dataLength, data, trailer, trailers,
        hh, hs, hf, hd, hle, rfl, htrl, ht, htr, -, rfl, rfl⟩
      refine ⟨2, _, _, rfl, ⟨rfl, (headerFields, counted), _, _, ⟨size, header,
        fields, hh, hs, hf, rfl⟩, ⟨(⟨type, _⟩, _), _, _, ⟨data,
        dataLength, hd, hle, rfl, rfl, rfl⟩, ⟨_, ⟨trailerFields, ⟨trailer,
        trailers, ⟨htrl, trivial⟩, ht, htr, rfl⟩, rfl⟩,
        rfl⟩, rfl⟩, rfl⟩, ?_⟩
      simp only [List.append_assoc, List.cons_append, List.nil_append]

end Vanetza.Security.V2
