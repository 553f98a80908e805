import Vanetza.Common.Serialization
import Vanetza.Geonet.IndicationContext

/-!
# Writing and reading headers

Every header is written in one way only, and every sequence of octets that is long enough is the
writing of a header. So the deserializers recognize the format in which a header is written as its
serialization.
-/

namespace Vanetza.Geonet

open InputArchive Lib Lib.Decoder List LongPositionVector

namespace Address

def bits (addr : Address) : UInt16 :=
  UInt16.ofNat addr.countryCode.val ||| ((UInt16.ofNat addr.stationType.val <<< 10) &&& 0x7c00) |||
    (if addr.isManuallyConfigured then 0x8000 else 0x0000)

def serialize (addr : Address) : ByteBuffer := toBigEndian 2 addr.bits.toNat ++ addr.mid.toList

def ofBits (tmp : UInt16) (mid : MacAddress) : Address where
  isManuallyConfigured := tmp &&& 0x8000 != 0
  stationType := Fin.ofNat 32 ((tmp &&& 0x7c00) >>> 10).toNat
  countryCode := Fin.ofNat 1024 (tmp &&& 0x03ff).toNat
  mid

end Address

theorem or_shiftLeft {low high k : Nat} (h : low < 2 ^ k) :
  low ||| high <<< k = low + high * 2 ^ k := by
  rw [Nat.shiftLeft_eq, Nat.lor_comm, Nat.mul_comm, ← Nat.two_pow_add_eq_or_of_lt h]
  omega

theorem topBit_ne_zero (x : UInt16) : (x &&& 0x8000 != 0) = decide (2 ^ 15 ≤ x.toNat) := by
  have htop : x.toNat.testBit 15 = decide (2 ^ 15 ≤ x.toNat) := by
    have hlt := x.toNat_lt
    rw [Nat.testBit_eq_decide_div_mod_eq, decide_eq_decide]
    omega
  have hb : (x &&& 0x8000).toNat = (decide (2 ^ 15 ≤ x.toNat)).toNat * 2 ^ 15 := by
    rw [UInt16.toNat_and, ← htop]
    exact Nat.and_two_pow x.toNat 15
  rw [Bool.eq_iff_iff, bne_iff_ne, decide_eq_true_iff, Ne, ← UInt16.toNat_inj, hb]
  by_cases h : 2 ^ 15 ≤ x.toNat
  · rw [decide_eq_true h]
    exact iff_of_true (by decide) h
  · rw [decide_eq_false h]
    exact iff_of_false (by decide) h

namespace Address

theorem toNat_bits (addr : Address) :
  addr.bits.toNat = addr.countryCode.val + addr.stationType.val * 2 ^ 10 +
    (if addr.isManuallyConfigured then 1 else 0) * 2 ^ 15 := by
  have hc := addr.countryCode.isLt
  have hs := addr.stationType.isLt
  have hshf : ((UInt16.ofNat addr.stationType.val <<< 10) &&& 0x7c00).toNat =
      addr.stationType.val <<< 10 := by
    have ha : ∀ st : Fin 32, ((UInt16.ofNat st.val <<< 10) &&& 0x7c00).toNat = st.val <<< 10 := by
      decide
    exact ha addr.stationType
  have hm : (if addr.isManuallyConfigured then (0x8000 : UInt16)
      else 0x0000).toNat = (if addr.isManuallyConfigured then 1 else 0) <<< 15 := by
    cases addr.isManuallyConfigured <;> rfl
  have hl : addr.countryCode.val ||| addr.stationType.val <<< 10 =
      addr.countryCode.val + addr.stationType.val * 2 ^ 10 :=
    or_shiftLeft (by omega)
  rw [bits, UInt16.toNat_or, UInt16.toNat_or, hshf, hm,
    UInt16.toNat_ofNat_of_lt' (by rw [UInt16.size]; omega), hl, or_shiftLeft (by omega)]

theorem station_of_bits (tmp : UInt16) :
  ((tmp &&& 0x7c00) >>> 10).toNat = tmp.toNat / 2 ^ 10 % 32 := by
  rw [UInt16.toNat_shiftRight, UInt16.toNat_and]
  change (tmp.toNat &&& 0x7c00) >>> 10 = _
  rw [Nat.shiftRight_and_distrib, Nat.shiftRight_eq_div_pow]
  exact Nat.and_two_pow_sub_one_eq_mod _ 5

theorem country_of_bits (tmp : UInt16) : (tmp &&& 0x03ff).toNat = tmp.toNat % 1024 := by
  rw [UInt16.toNat_and]
  exact Nat.and_two_pow_sub_one_eq_mod _ 10

theorem ofBits_bits (addr : Address) : ofBits addr.bits addr.mid = addr := by
  obtain ⟨manual, station, country, mid⟩ := addr
  have hb := toNat_bits ⟨manual, station, country, mid⟩
  have hs := station.isLt
  have hc := country.isLt
  dsimp only at hb
  rw [ofBits, topBit_ne_zero, station_of_bits, country_of_bits, hb]
  congr 1
  · cases manual with
    | false => rw [if_neg Bool.false_ne_true, decide_eq_false]; omega
    | true => rw [if_pos rfl, decide_eq_true]; omega
  · apply Fin.ext
    rw [Fin.val_ofNat]
    split <;> omega
  · apply Fin.ext
    rw [Fin.val_ofNat]
    split <;> omega

theorem bits_ofBits (tmp : UInt16) (mid : MacAddress) : (ofBits tmp mid).bits = tmp := by
  have hlt := tmp.toNat_lt
  apply UInt16.toNat_inj.1
  rw [toNat_bits, ofBits, topBit_ne_zero, station_of_bits, country_of_bits]
  dsimp only
  rw [Fin.val_ofNat, Fin.val_ofNat]
  by_cases h : 2 ^ 15 ≤ tmp.toNat
  · rw [if_pos (decide_eq_true h)]
    omega
  · rw [if_neg (by rw [decide_eq_false h]; exact Bool.false_ne_true)]
    omega

theorem recognizes_address : Recognizes deserialize fun addr w => w = addr.serialize := by
  have h : Recognizes deserialize _ :=
    recognizes_uint16.bind_written fun tmp =>
      (recognizes_octets 6).bind_written fun mid => .pure (ofBits tmp mid)
  refine h.congr fun addr w => ?_
  constructor
  · rintro ⟨tmp, _, ⟨mid, _, ⟨rfl, rfl⟩, rfl⟩, rfl⟩
    rw [serialize, bits_ofBits, append_nil]
    rfl
  rintro rfl
  refine ⟨addr.bits, _, ⟨addr.mid, _, ⟨?_, rfl⟩, rfl⟩, ?_⟩
  · exact (ofBits_bits addr).symm
  · rw [serialize, append_nil]

theorem quiet_address : Quiet deserialize :=
  quiet_uint16.bind fun _ => (quiet_octets 6).bind fun _ => .pure _

end Address

def SequenceNumber.serialize (sn : SequenceNumber) : ByteBuffer := toBigEndian 2 sn.number.toNat

theorem recognizes_sequenceNumber :
  Recognizes SequenceNumber.deserialize fun sn w => w = sn.serialize := by
  refine (recognizes_uint16.map SequenceNumber.mk).congr fun sn w => ?_
  constructor
  · rintro ⟨number, rfl, rfl⟩
    rfl
  · rintro rfl
    exact ⟨sn.number, rfl, rfl⟩

def Timestamp.serialize (ts : Timestamp) : ByteBuffer := toBigEndian 4 ts.raw.toNat

theorem recognizes_timestamp : Recognizes Timestamp.deserialize fun ts w => w = ts.serialize := by
  refine (recognizes_uint32.map Timestamp.mk).congr fun ts w => ?_
  constructor
  · rintro ⟨raw, rfl, rfl⟩
    rfl
  · rintro rfl
    exact ⟨ts.raw, rfl, rfl⟩

def serializeInt32 (x : Int32) : ByteBuffer := toBigEndian 4 x.toUInt32.toNat

theorem recognizes_int32 : Recognizes loadInt32 fun x w => w = serializeInt32 x := by
  refine (recognizes_uint32.map UInt32.toInt32).congr fun x w => ?_
  constructor
  · rintro ⟨bits, rfl, rfl⟩
    rw [serializeInt32, UInt32.toUInt32_toInt32]
  · rintro rfl
    exact ⟨x.toUInt32, rfl, (Int32.toInt32_toUInt32 x).symm⟩

namespace LongPositionVector

def paiAndSpeed (lpv : LongPositionVector) : UInt16 :=
  UInt16.ofNat lpv.speed.val ||| (if lpv.positionAccuracyIndicator then 0x8000 else 0x0000)

def serialize (lpv : LongPositionVector) : ByteBuffer :=
  lpv.gnAddr.serialize ++ lpv.timestamp.serialize ++
    serializeInt32 lpv.latitude ++ serializeInt32 lpv.longitude ++
    toBigEndian 2 lpv.paiAndSpeed.toNat ++ toBigEndian 2 lpv.heading.toNat

theorem toNat_paiAndSpeed (lpv : LongPositionVector) : lpv.paiAndSpeed.toNat = lpv.speed.val +
    (if lpv.positionAccuracyIndicator then 1 else 0) * 2 ^ 15 := by
  have hs := lpv.speed.isLt
  have hp : (if lpv.positionAccuracyIndicator then (0x8000 : UInt16)
      else 0x0000).toNat = (if lpv.positionAccuracyIndicator then 1 else 0) <<< 15 := by
    cases lpv.positionAccuracyIndicator <;> rfl
  rw [paiAndSpeed, UInt16.toNat_or, hp, UInt16.toNat_ofNat_of_lt' (by rw [UInt16.size]; omega),
    or_shiftLeft (by omega)]

theorem topBit_paiAndSpeed (lpv : LongPositionVector) :
  (lpv.paiAndSpeed &&& 0x8000 != 0) = lpv.positionAccuracyIndicator := by
  have hs := lpv.speed.isLt
  rw [topBit_ne_zero, toNat_paiAndSpeed]
  cases lpv.positionAccuracyIndicator with
  | false => rw [if_neg Bool.false_ne_true, decide_eq_false]; omega
  | true => rw [if_pos rfl, decide_eq_true]; omega

theorem speed_paiAndSpeed (lpv : LongPositionVector) :
  Fin.ofNat 32768 lpv.paiAndSpeed.toNat = lpv.speed := by
  have hs := lpv.speed.isLt
  apply Fin.ext
  rw [Fin.val_ofNat, toNat_paiAndSpeed]
  split <;> omega

theorem paiAndSpeed_of_bits {lpv : LongPositionVector} {x : UInt16}
  (hp : lpv.positionAccuracyIndicator = (x &&& 0x8000 != 0))
  (hs : lpv.speed = Fin.ofNat 32768 x.toNat) : lpv.paiAndSpeed = x := by
  have hlt := x.toNat_lt
  apply UInt16.toNat_inj.1
  rw [toNat_paiAndSpeed, hp, hs, topBit_ne_zero, Fin.val_ofNat]
  by_cases h : 2 ^ 15 ≤ x.toNat
  · rw [if_pos (decide_eq_true h)]
    omega
  · rw [if_neg (by rw [decide_eq_false h]; exact Bool.false_ne_true)]
    omega

theorem recognizes_longPositionVector : Recognizes deserialize fun lpv w => w = lpv.serialize := by
  have h : Recognizes deserialize _ :=
    Address.recognizes_address.bind_written fun gnAddr =>
      recognizes_timestamp.bind_written fun timestamp =>
      recognizes_int32.bind_written fun latitude =>
      recognizes_int32.bind_written fun longitude =>
      recognizes_uint16.bind_written fun x =>
      recognizes_uint16.bind_written fun heading =>
      .pure (mk gnAddr timestamp latitude longitude
        (x &&& 0x8000 != 0) (Fin.ofNat 32768 x.toNat) heading)
  refine h.congr fun lpv w => ?_
  constructor
  · rintro ⟨gnAddr, _, ⟨timestamp, _, ⟨latitude, _, ⟨longitude, _, ⟨x, _,
      ⟨heading, _, ⟨rfl, rfl⟩, rfl⟩, rfl⟩, rfl⟩, rfl⟩, rfl⟩, rfl⟩
    rw [serialize, paiAndSpeed_of_bits rfl rfl]
    simp only [append_assoc, append_nil]
  rintro rfl
  refine ⟨lpv.gnAddr, _, ⟨lpv.timestamp, _, ⟨lpv.latitude, _,
    ⟨lpv.longitude, _, ⟨lpv.paiAndSpeed, _, ⟨lpv.heading, _, ⟨?_, rfl⟩, rfl⟩,
    rfl⟩, rfl⟩, rfl⟩, rfl⟩, ?_⟩
  · rw [topBit_paiAndSpeed, speed_paiAndSpeed]
  · rw [serialize]
    simp only [append_assoc, append_nil]

theorem quiet_longPositionVector : Quiet deserialize :=
  Address.quiet_address.bind fun _ => (quiet_uint32.map _).bind fun _ =>
    (quiet_uint32.map _).bind fun _ => (quiet_uint32.map _).bind fun _ =>
    quiet_uint16.bind fun _ => quiet_uint16.bind fun _ => .pure _

end LongPositionVector

def Lifetime.serialize (lifetime : Lifetime) : ByteBuffer := [lifetime.raw]

def nibbles (high low : Fin 16) : UInt8 :=
  (UInt8.ofNat high.val <<< 4) ||| (UInt8.ofNat low.val &&& 0x0f)

theorem high_nibbles : ∀ high low : Fin 16, Fin.ofNat 16 (nibbles high low >>> 4).toNat = high := by
  decide +kernel

theorem low_nibbles : ∀ high low : Fin 16,
  Fin.ofNat 16 (nibbles high low &&& 0x0f).toNat = low := by
  decide +kernel

theorem nibbles_of_byte (byte : UInt8) : nibbles (Fin.ofNat 16 (byte >>> 4).toNat)
    (Fin.ofNat 16 (byte &&& 0x0f).toNat) = byte := by
  have ha : ∀ n : Fin 256, nibbles (Fin.ofNat 16 (UInt8.ofNat n.val >>> 4).toNat)
        (Fin.ofNat 16 (UInt8.ofNat n.val &&& 0x0f).toNat) = UInt8.ofNat n.val := by
    decide +kernel
  have h := ha ⟨byte.toNat, byte.toNat_lt⟩
  rwa [UInt8.ofNat_toNat] at h

namespace BasicHeader

def serialize (hdr : BasicHeader) : ByteBuffer :=
  [nibbles hdr.version hdr.nextHeader.code, hdr.reserved] ++
    hdr.lifetime.serialize ++ [hdr.hopLimit]

theorem recognizes_basicHeader : Recognizes deserialize fun hdr w => w = hdr.serialize := by
  have h : Recognizes deserialize _ :=
    recognizes_byte.bind_written fun first =>
      recognizes_byte.bind_written fun reserved =>
      recognizes_byte.bind_written fun lifetime =>
      recognizes_byte.bind_written fun hopLimit =>
      .pure (BasicHeader.mk (Fin.ofNat 16 (first >>> 4).toNat)
        ⟨Fin.ofNat 16 (first &&& 0x0f).toNat⟩ reserved ⟨lifetime⟩ hopLimit)
  refine h.congr fun hdr w => ?_
  constructor
  · rintro ⟨first, _, ⟨reserved, _, ⟨lifetime, _, ⟨hopLimit, _, ⟨rfl, rfl⟩, rfl⟩, rfl⟩, rfl⟩, rfl⟩
    rw [serialize, nibbles_of_byte]
    rfl
  rintro rfl
  refine ⟨nibbles hdr.version hdr.nextHeader.code, _, ⟨hdr.reserved, _,
    ⟨hdr.lifetime.raw, _, ⟨hdr.hopLimit, _, ⟨?_, rfl⟩, rfl⟩, rfl⟩, rfl⟩, rfl⟩
  rw [high_nibbles, low_nibbles]

theorem quiet_basicHeader : Quiet deserialize :=
  quiet_byte.bind fun _ => quiet_byte.bind fun _ => quiet_byte.bind fun _ =>
    quiet_byte.bind fun _ => .pure _

end BasicHeader

namespace CommonHeader

def serialize (hdr : CommonHeader) : ByteBuffer :=
  [nibbles hdr.nextHeader.code hdr.reserved1, hdr.headerType.code,
    hdr.trafficClass.raw, hdr.flags] ++
    toBigEndian 2 hdr.payload.toNat ++ [hdr.maximumHopLimit, hdr.reserved2]

theorem recognizes_commonHeader : Recognizes deserialize fun hdr w => w = hdr.serialize := by
  have h : Recognizes deserialize _ :=
    recognizes_byte.bind_written fun first =>
      recognizes_byte.bind_written fun headerType =>
      recognizes_byte.bind_written fun trafficClass =>
      recognizes_byte.bind_written fun flags =>
      recognizes_uint16.bind_written fun pay =>
      recognizes_byte.bind_written fun maximumHopLimit =>
      recognizes_byte.bind_written fun reserved2 =>
      .pure (CommonHeader.mk ⟨Fin.ofNat 16 (first >>> 4).toNat⟩
        (Fin.ofNat 16 (first &&& 0x0f).toNat) ⟨headerType⟩ ⟨trafficClass⟩
        flags pay maximumHopLimit reserved2)
  refine h.congr fun hdr w => ?_
  constructor
  · rintro ⟨first, _, ⟨headerType, _, ⟨trafficClass, _, ⟨flags, _, ⟨pay, _,
      ⟨maximumHopLimit, _, ⟨reserved2, _, ⟨rfl, rfl⟩, rfl⟩, rfl⟩, rfl⟩, rfl⟩,
      rfl⟩, rfl⟩, rfl⟩
    rw [serialize, nibbles_of_byte]
    simp only [append_nil, cons_append, nil_append]
  · rintro rfl
    refine ⟨nibbles hdr.nextHeader.code hdr.reserved1, _,
      ⟨hdr.headerType.code, _, ⟨hdr.trafficClass.raw, _, ⟨hdr.flags, _,
      ⟨hdr.payload, _, ⟨hdr.maximumHopLimit, _, ⟨hdr.reserved2, _, ⟨?_, rfl⟩,
      rfl⟩, rfl⟩, rfl⟩, rfl⟩, rfl⟩, rfl⟩, ?_⟩
    · rw [high_nibbles, low_nibbles]
    · rw [serialize]
      simp only [append_nil, cons_append, nil_append]

theorem quiet_commonHeader : Quiet deserialize :=
  quiet_byte.bind fun _ => quiet_byte.bind fun _ => quiet_byte.bind fun _ =>
    quiet_byte.bind fun _ => quiet_uint16.bind fun _ =>
    quiet_byte.bind fun _ => quiet_byte.bind fun _ => .pure _

end CommonHeader

def DccMcoField.toRaw (field : DccMcoField) : UInt32 :=
  ((((field.cbrL0Hop.toUInt32 <<< 8) ||| field.cbrL1Hop.toUInt32) <<< 5) |||
    UInt32.ofNat field.outputPower.val) <<< 11

def DccField.toRaw : DccField → UInt32
  | .mco field => field.toRaw
  | .raw field => field

def DccField.serialize (field : DccField) : ByteBuffer := toBigEndian 4 field.toRaw.toNat

def BeaconHeader.serialize (hdr : BeaconHeader) : ByteBuffer := hdr.sourcePosition.serialize

def ShbHeader.serialize (hdr : ShbHeader) : ByteBuffer :=
  hdr.sourcePosition.serialize ++ hdr.dcc.serialize

def TsbHeader.serialize (hdr : TsbHeader) : ByteBuffer :=
  hdr.sequenceNumber.serialize ++ toBigEndian 2 hdr.reserved.toNat ++ hdr.sourcePosition.serialize

def GeoBroadcastHeader.serialize (hdr : GeoBroadcastHeader) : ByteBuffer :=
  hdr.sequenceNumber.serialize ++ toBigEndian 2 hdr.reserved1.toNat ++
    hdr.sourcePosition.serialize ++ serializeInt32 hdr.geoAreaPosLatitude ++
    serializeInt32 hdr.geoAreaPosLongitude ++
    toBigEndian 2 hdr.distanceA.toNat ++ toBigEndian 2 hdr.distanceB.toNat ++
    toBigEndian 2 hdr.angle.toNat ++ toBigEndian 2 hdr.reserved2.toNat

def HeaderVariant.serialize : HeaderVariant → ByteBuffer
  | .beacon header => header.serialize
  | .gbc header => header.serialize
  | .shb header => header.serialize
  | .tsb header => header.serialize

def ShbHeader.received (hdr : ShbHeader) : ShbHeader :=
  { hdr with dcc := .raw hdr.dcc.toRaw }

def HeaderVariant.received : HeaderVariant → HeaderVariant
  | .shb header => .shb header.received
  | header => header

theorem toNat_shiftLeft_or {x y k : UInt32} (hk : k.toNat < 32)
  (hx : x.toNat < 2 ^ (32 - k.toNat)) (hy : y.toNat < 2 ^ k.toNat) :
  ((x <<< k) ||| y).toNat = x.toNat * 2 ^ k.toNat + y.toNat := by
  have hp : 2 ^ (32 - k.toNat) * 2 ^ k.toNat = 2 ^ 32 := by rw [← pow_add, Nat.sub_add_cancel hk.le]
  have hlt : x.toNat * 2 ^ k.toNat < 2 ^ 32 := by
    rw [← hp]
    exact Nat.mul_lt_mul_of_pos_right hx (by positivity)
  rw [UInt32.toNat_or, UInt32.toNat_shiftLeft, Nat.mod_eq_of_lt hk,
    Nat.shiftLeft_eq, Nat.mod_eq_of_lt hlt, Nat.mul_comm, ← Nat.two_pow_add_eq_or_of_lt hy]

theorem DccMcoField.toNat_toRaw (l0 l1 : UInt8) (power : Fin 32) :
  (DccMcoField.mk l0 l1 power).toRaw.toNat =
    l0.toNat * 2 ^ 24 + l1.toNat * 2 ^ 16 + power.val * 2 ^ 11 := by
  have h0 := l0.toNat_lt
  have h1 := l1.toNat_lt
  have hp := power.isLt
  have hl : ((l0.toUInt32 <<< 8) ||| l1.toUInt32).toNat = l0.toNat * 2 ^ 8 + l1.toNat :=
    toNat_shiftLeft_or (by decide) (by change l0.toNat < 2 ^ 24; omega) h1
  have ho : (UInt32.ofNat power.val).toNat = power.val :=
    UInt32.toNat_ofNat_of_lt' (by rw [UInt32.size]; omega)
  have hf : ((((l0.toUInt32 <<< 8) ||| l1.toUInt32) <<< 5) ||| UInt32.ofNat power.val).toNat =
        (l0.toNat * 2 ^ 8 + l1.toNat) * 2 ^ 5 + power.val := by
    have hstep := @toNat_shiftLeft_or ((l0.toUInt32 <<< 8) ||| l1.toUInt32)
      (UInt32.ofNat power.val) 5 (by decide)
      (by rw [hl]; change _ < 2 ^ 27; omega) (by rw [ho]; exact hp)
    rw [hl, ho] at hstep
    exact hstep
  have hr := @toNat_shiftLeft_or
    ((((l0.toUInt32 <<< 8) ||| l1.toUInt32) <<< 5) ||| UInt32.ofNat power.val)
    0 11 (by decide) (by rw [hf]; change _ < 2 ^ 21; omega) (by decide)
  rw [UInt32.or_zero, hf] at hr
  refine hr.trans ?_
  show ((l0.toNat * 2 ^ 8 + l1.toNat) * 2 ^ 5 + power.val) * 2 ^ 11 + 0 = _
  omega

theorem DccMcoField.ofRaw_toRaw (field : DccMcoField) : DccMcoField.ofRaw field.toRaw = field := by
  obtain ⟨l0, l1, power⟩ := field
  have h0 := l0.toNat_lt
  have h1 := l1.toNat_lt
  have hp := power.isLt
  have hr := toNat_toRaw l0 l1 power
  have hs : ∀ raw k : UInt32, k.toNat < 32 → (raw >>> k).toNat = raw.toNat / 2 ^ k.toNat := by
    intro raw k hk
    rw [UInt32.toNat_shiftRight, Nat.mod_eq_of_lt hk, Nat.shiftRight_eq_div_pow]
  rw [DccMcoField.ofRaw]
  congr 1
  · apply UInt8.toNat_inj.1
    rw [UInt32.toNat_toUInt8, hs _ 24 (by decide), hr]
    show _ / 2 ^ 24 % 2 ^ 8 = _
    omega
  · apply UInt8.toNat_inj.1
    rw [UInt32.toNat_toUInt8, hs _ 16 (by decide), hr]
    show _ / 2 ^ 16 % 2 ^ 8 = _
    omega
  · apply Fin.ext
    dsimp only
    rw [hs _ 11 (by decide), hr]
    show _ / 2 ^ 11 % 32 = _
    omega

theorem recognizes_beaconHeader :
  Recognizes BeaconHeader.deserialize fun hdr w => w = hdr.serialize := by
  refine (recognizes_longPositionVector.map BeaconHeader.mk).congr fun hdr w => ?_
  constructor
  · rintro ⟨sourcePosition, rfl, rfl⟩
    rfl
  · rintro rfl
    exact ⟨hdr.sourcePosition, rfl, rfl⟩

theorem recognizes_shbHeader : Recognizes ShbHeader.deserialize
    fun hdr w => w = hdr.serialize ∧ hdr.received = hdr := by
  have h : Recognizes ShbHeader.deserialize _ :=
    recognizes_longPositionVector.bind_written fun source =>
      recognizes_uint32.bind_written fun dcc => .pure (ShbHeader.mk source (.raw dcc))
  refine h.congr fun hdr w => ?_
  constructor
  · rintro ⟨source, _, ⟨dcc, _, ⟨rfl, rfl⟩, rfl⟩, rfl⟩
    rw [ShbHeader.serialize, append_nil]
    exact ⟨rfl, rfl⟩
  rintro ⟨rfl, hr⟩
  refine ⟨hdr.sourcePosition, _, ⟨hdr.dcc.toRaw, _, ⟨?_, rfl⟩, rfl⟩, ?_⟩
  · exact hr.symm
  · rw [ShbHeader.serialize, append_nil]
    rfl

theorem recognizes_tsbHeader : Recognizes TsbHeader.deserialize fun hdr w => w = hdr.serialize := by
  have h : Recognizes TsbHeader.deserialize _ :=
    recognizes_sequenceNumber.bind_written fun sequenceNumber =>
      recognizes_uint16.bind_written fun reserved =>
      recognizes_longPositionVector.bind_written fun sourcePosition =>
      .pure (TsbHeader.mk sequenceNumber reserved sourcePosition)
  refine h.congr fun hdr w => ?_
  constructor
  · rintro ⟨sequenceNumber, _, ⟨reserved, _, ⟨sourcePosition, _, ⟨rfl, rfl⟩, rfl⟩, rfl⟩, rfl⟩
    rw [TsbHeader.serialize]
    simp only [append_assoc, append_nil]
  rintro rfl
  refine ⟨hdr.sequenceNumber, _, ⟨hdr.reserved, _, ⟨hdr.sourcePosition, _,
    ⟨rfl, rfl⟩, rfl⟩, rfl⟩, ?_⟩
  rw [TsbHeader.serialize]
  simp only [append_assoc, append_nil]

theorem recognizes_geoBroadcastHeader : Recognizes GeoBroadcastHeader.deserialize
    fun hdr w => w = hdr.serialize := by
  have h : Recognizes GeoBroadcastHeader.deserialize _ :=
    recognizes_sequenceNumber.bind_written fun sequenceNumber =>
      recognizes_uint16.bind_written fun reserved1 =>
      recognizes_longPositionVector.bind_written fun sourcePosition =>
      recognizes_int32.bind_written fun latitude =>
      recognizes_int32.bind_written fun longitude =>
      recognizes_uint16.bind_written fun distanceA =>
      recognizes_uint16.bind_written fun distanceB =>
      recognizes_uint16.bind_written fun angle =>
      recognizes_uint16.bind_written fun reserved2 =>
      .pure (GeoBroadcastHeader.mk sequenceNumber reserved1 sourcePosition
        latitude longitude distanceA distanceB angle reserved2)
  refine h.congr fun hdr w => ?_
  constructor
  · rintro ⟨sequenceNumber, _, ⟨reserved1, _, ⟨sourcePosition, _, ⟨latitude, _,
      ⟨longitude, _, ⟨distanceA, _, ⟨distanceB, _, ⟨angle, _, ⟨reserved2, _,
      ⟨rfl, rfl⟩, rfl⟩, rfl⟩, rfl⟩, rfl⟩, rfl⟩, rfl⟩, rfl⟩, rfl⟩, rfl⟩
    rw [GeoBroadcastHeader.serialize]
    simp only [append_assoc, append_nil]
  · rintro rfl
    refine ⟨hdr.sequenceNumber, _, ⟨hdr.reserved1, _, ⟨hdr.sourcePosition, _,
      ⟨hdr.geoAreaPosLatitude, _, ⟨hdr.geoAreaPosLongitude, _,
      ⟨hdr.distanceA, _, ⟨hdr.distanceB, _, ⟨hdr.angle, _, ⟨hdr.reserved2, _,
      ⟨rfl, rfl⟩, rfl⟩, rfl⟩, rfl⟩, rfl⟩, rfl⟩, rfl⟩, rfl⟩, rfl⟩, ?_⟩
    rw [GeoBroadcastHeader.serialize]
    simp only [append_assoc, append_nil]

theorem quiet_beaconHeader : Quiet BeaconHeader.deserialize :=
  LongPositionVector.quiet_longPositionVector.map _

theorem quiet_shbHeader : Quiet ShbHeader.deserialize :=
  LongPositionVector.quiet_longPositionVector.bind fun _ =>
    quiet_uint32.bind fun _ => .pure _

theorem quiet_tsbHeader : Quiet TsbHeader.deserialize :=
  (quiet_uint16.map _).bind fun _ => quiet_uint16.bind fun _ =>
    LongPositionVector.quiet_longPositionVector.bind fun _ => .pure _

theorem quiet_geoBroadcastHeader : Quiet GeoBroadcastHeader.deserialize :=
  (quiet_uint16.map _).bind fun _ => quiet_uint16.bind fun _ =>
    LongPositionVector.quiet_longPositionVector.bind fun _ =>
    (quiet_uint32.map _).bind fun _ => (quiet_uint32.map _).bind fun _ =>
    quiet_uint16.bind fun _ => quiet_uint16.bind fun _ =>
    quiet_uint16.bind fun _ => quiet_uint16.bind fun _ => .pure _

def HeaderVariant.Matches (ht : HeaderType) : HeaderVariant → Prop
  | .beacon _ => ht = .beacon
  | .gbc _ => ht = .geoBroadcastCircle ∨ ht = .geoBroadcastRect ∨ ht = .geoBroadcastElip
  | .shb _ => ht = .tsbSingleHop
  | .tsb _ => ht = .tsbMultiHop

variable {header : HeaderVariant} {bytes : ByteBuffer} {readBytes : Nat}
  {parser : Parser} {ht : HeaderType}

namespace Parser

variable {α : Type} {header : Deserialize α} {F : Format α} {a : α} {length : Nat}

theorem parse_written (hh : Recognizes header F) {w : ByteBuffer}
  (hw : F a w) (rest : ByteBuffer) (readBytes : Nat) :
  parse header length ⟨⟨w ++ rest, none⟩, readBytes⟩ =
    .ok (some a, ⟨⟨rest, none⟩, readBytes + length⟩) := by
  unfold parse
  dsimp only
  rw [hh.complete rest hw]
  rfl

theorem parse_some (hh : Recognizes header F) (hqt : Quiet header)
  (h : parse header length ⟨⟨bytes, none⟩, readBytes⟩ = .ok (some a, parser)) :
  ∃ w rest, F a w ∧ bytes = w ++ rest ∧ parser = ⟨⟨rest, none⟩, readBytes + length⟩ := by
  unfold parse at h
  dsimp only at h
  cases hr : header ⟨bytes, none⟩ with
  | error e =>
    rw [hr] at h
    cases e <;> cases h
  | ok out =>
    obtain ⟨a', ⟨rest, failure⟩⟩ := out
    rw [hr] at h
    cases h
    obtain rfl : failure = none := hqt _ _ _ hr
    obtain ⟨w, hw, rfl⟩ := hh.sound hr
    exact ⟨w, rest, hw, rfl, rfl⟩

end Parser

theorem ShbHeader.received_written (hdr : ShbHeader) : hdr.serialize = hdr.received.serialize ∧
    hdr.received.received = hdr.received := ⟨rfl, rfl⟩

theorem Parser.parseExtended_written (hm : header.Matches ht)
  (rest : ByteBuffer) (readBytes : Nat) :
  parseExtended ht ⟨⟨header.serialize ++ rest, none⟩, readBytes⟩ = .ok (some header.received,
      ⟨⟨rest, none⟩, readBytes + header.getLength⟩) := by
  unfold parseExtended
  cases header with
  | shb header =>
    obtain rfl : ht = .tsbSingleHop := hm
    rw [if_pos rfl]
    exact parse_written (recognizes_shbHeader.map HeaderVariant.shb)
      ⟨header.received, header.received_written, rfl⟩ rest readBytes
  | tsb header =>
    obtain rfl : ht = .tsbMultiHop := hm
    rw [if_neg (by decide), if_pos rfl]
    exact parse_written (recognizes_tsbHeader.map HeaderVariant.tsb)
      ⟨header, rfl, rfl⟩ rest readBytes
  | gbc header =>
    have hg : ht = .geoBroadcastCircle ∨ ht = .geoBroadcastRect ∨ ht = .geoBroadcastElip := hm
    have ho : ht ≠ .tsbSingleHop ∧ ht ≠ .tsbMultiHop := by obtain rfl | rfl | rfl := hg <;> decide
    rw [if_neg ho.1, if_neg ho.2, if_pos hg]
    exact parse_written (recognizes_geoBroadcastHeader.map HeaderVariant.gbc)
      ⟨header, rfl, rfl⟩ rest readBytes
  | beacon header =>
    obtain rfl : ht = .beacon := hm
    rw [if_neg (by decide), if_neg (by decide), if_neg (by decide), if_pos rfl]
    exact parse_written (recognizes_beaconHeader.map HeaderVariant.beacon)
      ⟨header, rfl, rfl⟩ rest readBytes

theorem Parser.parseExtended_some (h : parseExtended ht ⟨⟨bytes, none⟩, readBytes⟩ =
    .ok (some header, parser)) :
  bytes = header.serialize ++ parser.input.rest := by
  unfold parseExtended at h
  split at h
  · obtain ⟨_, rest, ⟨shb, ⟨rfl, _⟩, rfl⟩, rfl, rfl⟩ :=
      parse_some (recognizes_shbHeader.map _) (quiet_shbHeader.map _) h
    rfl
  split at h
  · obtain ⟨_, rest, ⟨tsb, rfl, rfl⟩, rfl, rfl⟩ :=
      parse_some (recognizes_tsbHeader.map _) (quiet_tsbHeader.map _) h
    rfl
  split at h
  · obtain ⟨_, rest, ⟨gbc, rfl, rfl⟩, rfl, rfl⟩ :=
      parse_some (recognizes_geoBroadcastHeader.map _) (quiet_geoBroadcastHeader.map _) h
    rfl
  split at h
  · obtain ⟨_, rest, ⟨beacon, rfl, rfl⟩, rfl, rfl⟩ :=
      parse_some (recognizes_beaconHeader.map _) (quiet_beaconHeader.map _) h
    rfl
  · cases h

theorem HeaderVariant.received_cases (header : HeaderVariant) : header.received = header ∨
    ∃ source field raw, header = .shb ⟨source, .mco field⟩ ∧
      header.received = .shb ⟨source, .raw raw⟩ ∧ (DccField.raw raw).getDccMco = some field := by
  cases header with
  | beacon header | gbc header | tsb header => exact .inl rfl
  | shb header =>
    obtain ⟨source, dcc⟩ := header
    cases dcc with
    | raw field => exact .inl rfl
    | mco field =>
      refine .inr ⟨source, field, field.toRaw, rfl, rfl, ?_⟩
      rw [DccField.getDccMco, field.ofRaw_toRaw]

theorem Parser.parseBasic_written (hdr : BasicHeader) (rest : ByteBuffer) :
  parseBasic (.ofBuffer (hdr.serialize ++ rest)) =
    .ok (some hdr, ⟨⟨rest, none⟩, 0 + BasicHeader.lengthBytes⟩) :=
  parse_written BasicHeader.recognizes_basicHeader rfl rest 0

theorem Parser.parseCommon_written (hdr : CommonHeader) (rest : ByteBuffer) (readBytes : Nat) :
  parseCommon ⟨⟨hdr.serialize ++ rest, none⟩, readBytes⟩ =
    .ok (some hdr, ⟨⟨rest, none⟩, readBytes + CommonHeader.lengthBytes⟩) :=
  parse_written CommonHeader.recognizes_commonHeader rfl rest readBytes

/-- Writing the headers of a PDU and parsing them, and the other way around. -/
theorem pdu_headers_round_trip : (∀ (codec : Codec) (pdu : Pdu) (payload : ByteBuffer),
    pdu.extended.Matches pdu.common.headerType → pdu.secured = none →
    ∃ extended afterBasic afterCommon afterExtended,
      Parser.parseBasic (.ofBuffer (pdu.basic.serialize ++
          pdu.common.serialize ++ pdu.extended.serialize ++ payload)) =
        .ok (some pdu.basic, afterBasic) ∧
      Parser.parseCommon afterBasic = .ok (some pdu.common, afterCommon) ∧
      Parser.parseExtended pdu.common.headerType afterCommon = .ok (some extended, afterExtended) ∧
      (extended = pdu.extended ∨ ∃ source field raw, pdu.extended = .shb ⟨source, .mco field⟩ ∧
        extended = .shb ⟨source, .raw raw⟩ ∧ (DccField.raw raw).getDccMco = some field) ∧
      afterExtended.readBytes = pdu.getLength codec ∧ afterExtended.input.rest = payload) ∧
  (∀ bytes basic common extended afterBasic afterCommon afterExtended,
    Parser.parseBasic (.ofBuffer bytes) = .ok (some basic, afterBasic) →
    Parser.parseCommon afterBasic = .ok (some common, afterCommon) →
    Parser.parseExtended common.headerType afterCommon = .ok (some extended, afterExtended) →
    basic.serialize ++ common.serialize ++ extended.serialize ++
      afterExtended.input.rest = bytes) := by
  constructor
  · intro codec pdu payload hm hpl
    refine ⟨pdu.extended.received, _, _, _, ?_,
      Parser.parseCommon_written pdu.common (pdu.extended.serialize ++ payload)
        (0 + BasicHeader.lengthBytes), Parser.parseExtended_written hm payload _,
      pdu.extended.received_cases, ?_, rfl⟩
    · rw [append_assoc, append_assoc]
      exact Parser.parseBasic_written pdu.basic _
    · rw [ExtendedPdu.getLength, hpl, Nat.zero_add]
  · intro bytes basic common extended afterBasic afterCommon afterExtended hb hcom hext
    obtain ⟨_, left, rfl, rfl, rfl⟩ := Parser.parse_some
      BasicHeader.recognizes_basicHeader BasicHeader.quiet_basicHeader hb
    obtain ⟨_, left', rfl, rfl, rfl⟩ := Parser.parse_some
      CommonHeader.recognizes_commonHeader CommonHeader.quiet_commonHeader hcom
    rw [Parser.parseExtended_some hext]
    simp only [append_assoc]

def originPosition : LongPositionVector :=
  ⟨⟨false, 0, 0, ⟨[0, 0, 0, 0, 0, 0], rfl⟩⟩, ⟨0⟩, 0, 0, false, 0, 0⟩

def beaconPdu : Pdu :=
  ⟨.default, { CommonHeader.default with headerType := .beacon }, .beacon ⟨originPosition⟩, none⟩

theorem beacon_headers_round_trip : beaconPdu.extended.Matches beaconPdu.common.headerType ∧
  ∃ extended afterBasic afterCommon afterExtended,
    Parser.parseBasic (.ofBuffer (beaconPdu.basic.serialize ++
        beaconPdu.common.serialize ++ beaconPdu.extended.serialize ++
        [1, 2])) = .ok (some beaconPdu.basic, afterBasic) ∧
    Parser.parseCommon afterBasic = .ok (some beaconPdu.common, afterCommon) ∧
    Parser.parseExtended beaconPdu.common.headerType afterCommon =
      .ok (some extended, afterExtended) ∧
    afterExtended.readBytes = 36 ∧ afterExtended.input.rest = [1, 2] := by
  refine ⟨rfl, ?_⟩
  obtain ⟨extended, p₁, p₂, p₃, h₁, h₂, h₃, -, hr, hre⟩ :=
    pdu_headers_round_trip.1 ⟨fun _ => none, fun _ => 0⟩ beaconPdu [1, 2] rfl rfl
  exact ⟨extended, p₁, p₂, p₃, h₁, h₂, h₃, hr, hre⟩

/-- A DCC field is read as a number, whatever it was written from. -/
theorem shb_dcc_field_not_recovered :
  (Parser.parseExtended .tsbSingleHop (.ofBuffer (HeaderVariant.shb
      ⟨originPosition, .mco ⟨1, 2, 3⟩⟩).serialize)).toOption.map Prod.fst =
    some (some (.shb ⟨originPosition, .raw 0x01021800⟩)) ∧
  HeaderVariant.shb ⟨originPosition, .raw 0x01021800⟩ ≠ .shb ⟨originPosition, .mco ⟨1, 2, 3⟩⟩ := by
  decide +kernel

end Vanetza.Geonet
