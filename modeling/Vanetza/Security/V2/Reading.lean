import Vanetza.Security.V2.Wire

/-!
# Reading the format

The deserializers recognize the format of `Wire`, all of it: on octets that
stand for a message and only on them they come to their end with a good archive,
and then they return this message.
-/

namespace Vanetza.Security.V2

open InputArchive Lib Lib.Decoder SubjectAttribute List

variable {size : Nat} {τ α : Type} {getSize : α → Nat} {getType : α → τ} {code : τ → UInt8}

theorem findCode_eq {members : List τ} {byte : UInt8} {member : τ}
  (h : findCode members code byte = some member) :
  byte = code member := by
  have hf := find?_some h
  exact (eq_of_beq hf).symm

theorem audits_kind {γ : Type} {type : τ} {size : γ → Nat} {G G' : Format α}
  {d : Deserialize (γ × Nat)} {W : Input ErrorCode → Prop} (make : γ → α) (count : Nat → Nat)
  (hd : Audits d W (sized size fun c => G (make c)) (sized size fun c => G' (make c)))
  (ht : ∀ a, getType a = type ↔ ∃ c, a = make c)
  (hs : ∀ c w, G (make c) w → getSize (make c) = count (size c)) :
  Audits ((fun out : γ × Nat => (make out.1, count out.2)) <$> d) W
    (fun out w => getType out.1 = type ∧ sized getSize G out w)
    (fun out w => getType out.1 = type ∧ sized getSize G' out w) := by
  have hshp : ∀ K : Format α, (∀ c w, K (make c) w → G (make c) w) → ∀ out w,
      (sized size fun c => K (make c)).map (fun out => (make out.1, count out.2)) out w ↔
        getType out.1 = type ∧ sized getSize K out w := by
    intro K hwin out w
    constructor
    · rintro ⟨_, ⟨c, hc, rfl⟩, rfl⟩
      refine ⟨(ht _).2 ⟨c, rfl⟩, make c, hc, ?_⟩
      rw [hs c w (hwin c w hc)]
    rintro ⟨hk, a, ha, rfl⟩
    obtain ⟨c, rfl⟩ := (ht a).1 hk
    refine ⟨_, ⟨c, ha, rfl⟩, ?_⟩
    rw [hs c w (hwin c w ha)]
  refine (hd.map _).congr (hshp G fun _ _ h => h) (hshp G' fun c w hc => ?_)
  obtain ⟨_, hc', ⟨⟩⟩ := hd.within (sized_written size hc)
  exact hc'

theorem audits_leaf {type : τ} {G : Dialect → Format α} {H : Format (α × Nat)}
  {d : Deserialize (α × Nat)} (demand : Demand) (hd : Recognizes d H)
  (hk : ∀ D a size w, H (a, size) w ↔ getType a = type ∧ G D a w ∧ size = getSize a) :
  Audits d (fun _ => True) (fun out w => getType out.1 = type ∧ sized getSize (G .any) out w)
    (fun out w =>
      getType out.1 = type ∧ sized getSize (G demand.dialect) out w) := by
  have hs : ∀ (D : Dialect) out w, H out w ↔ getType out.1 = type ∧ sized getSize (G D) out w := by
    rintro D ⟨a, size⟩ w
    rw [hk D]
    constructor
    · rintro ⟨ht, hw, rfl⟩
      exact ⟨ht, a, hw, rfl⟩
    · rintro ⟨ht, _, hw, ⟨⟩⟩
      exact ⟨ht, hw, rfl⟩
  exact (Audits.of_recognizes hd).congr (hs _) (hs _)

theorem tagged_sized_iff (F : Format α) (out : α × Nat) (w : ByteBuffer) :
  (∃ v, sized getSize F out v ∧ w = code (getType out.1) :: v) ↔
    sized getSize (fun a w => ∃ v, F a v ∧ w = code (getType a) :: v) out w := by
  constructor
  · rintro ⟨v, ⟨a, hv, rfl⟩, rfl⟩
    exact ⟨a, ⟨v, hv, rfl⟩, rfl⟩
  · rintro ⟨a, ⟨v, hv, rfl⟩, rfl⟩
    exact ⟨v, ⟨a, hv, rfl⟩, rfl⟩

theorem EccPointType.ofCode_code (type : EccPointType) : ofCode type.code = some type := by
  cases type <;> rfl

theorem recognizes_eccPoint (algo : PublicKeyAlgorithm) : Recognizes (EccPoint.deserialize algo)
    fun point w => point.HasSize algo.fieldSize ∧ w = point.serialize := by
  have h : Recognizes (EccPoint.deserialize algo) _ :=
    recognizes_tagged EccPoint.getType
      (fun point w => point.HasSize algo.fieldSize ∧ w = point.coordinates)
      EccPointType.ofCode_code findCode_eq ?_ ?_
  · refine h.congr fun point w => ?_
    constructor
    · rintro ⟨_, ⟨hs, rfl⟩, rfl⟩
      exact ⟨hs, rfl⟩
    · rintro ⟨hs, rfl⟩
      exact ⟨_, ⟨hs, rfl⟩, rfl⟩
  · intro type
    have hx := recognizes_binary algo.fieldSize
    cases type with
    | xCoordinateOnly =>
      refine (hx.map EccPoint.xCoordinateOnly).congr fun point w => ?_
      constructor
      · rintro ⟨x, ⟨rfl, hs⟩, rfl⟩
        exact ⟨rfl, hs, rfl⟩
      · rintro ⟨ht, hs, rfl⟩
        cases point <;> cases ht
        exact ⟨_, ⟨rfl, hs⟩, rfl⟩
    | compressedLsbY0 =>
      refine (hx.map EccPoint.compressedLsbY0).congr fun point w => ?_
      constructor
      · rintro ⟨x, ⟨rfl, hs⟩, rfl⟩
        exact ⟨rfl, hs, rfl⟩
      · rintro ⟨ht, hs, rfl⟩
        cases point <;> cases ht
        exact ⟨_, ⟨rfl, hs⟩, rfl⟩
    | compressedLsbY1 =>
      refine (hx.map EccPoint.compressedLsbY1).congr fun point w => ?_
      constructor
      · rintro ⟨x, ⟨rfl, hs⟩, rfl⟩
        exact ⟨rfl, hs, rfl⟩
      · rintro ⟨ht, hs, rfl⟩
        cases point <;> cases ht
        exact ⟨_, ⟨rfl, hs⟩, rfl⟩
    | uncompressed =>
      refine (hx.bind fun x => hx.map (EccPoint.uncompressed x)).congr fun point w => ?_
      constructor
      · rintro ⟨x, _, _, ⟨rfl, hs⟩, ⟨y, ⟨rfl, hs'⟩, rfl⟩, rfl⟩
        exact ⟨rfl, ⟨hs, hs'⟩, rfl⟩
      · rintro ⟨ht, hs, rfl⟩
        cases point <;> cases ht
        exact ⟨_, _, _, ⟨rfl, hs.1⟩, ⟨_, ⟨rfl, hs.2⟩, rfl⟩, rfl⟩
  · intro byte hb
    simp only [hb]
    exact .throw _

theorem recognizes_publicKey : Recognizes PublicKey.deserialize (sized PublicKey.getSize
    fun key w => key.WellFormed ∧ w = key.serialize) := by
  have h : Recognizes PublicKey.deserialize _ :=
    recognizes_byte.bind_written fun byte =>
      Recognizes.ite_else ((recognizes_eccPoint ⟨byte⟩).map fun point =>
          (PublicKey.ecdsaNistp256WithSha256 point,
            (PublicKey.ecdsaNistp256WithSha256 point).getSize))
        (Recognizes.ite (recognizes_byte.bind_written fun algo =>
          (recognizes_eccPoint ⟨byte⟩).map fun point =>
            (PublicKey.eciesNistp256 ⟨algo⟩ point, (PublicKey.eciesNistp256 ⟨algo⟩ point).getSize))
          (.throw _))
  refine h.congr fun out w => ?_
  constructor
  · rintro ⟨byte, _, hb, rfl⟩
    obtain ⟨ha, point, ⟨hs, rfl⟩, rfl⟩ | ⟨-, ha, algo, _, ⟨point, ⟨hs, rfl⟩, rfl⟩, rfl⟩ := hb
    · cases ha
      exact ⟨.ecdsaNistp256WithSha256 point, ⟨hs, rfl⟩, rfl⟩
    · cases ha
      exact ⟨.eciesNistp256 ⟨algo⟩ point, ⟨hs, rfl⟩, rfl⟩
  · rintro ⟨key, ⟨hk, rfl⟩, rfl⟩
    cases key with
    | ecdsaNistp256WithSha256 point => exact ⟨0, _, .inl ⟨rfl, point, ⟨hk, rfl⟩, rfl⟩, rfl⟩
    | eciesNistp256 algo point =>
      exact ⟨1, _, .inr ⟨by decide, rfl, algo.raw, _, ⟨point, ⟨hk, rfl⟩, rfl⟩, rfl⟩, rfl⟩

theorem recognizes_signature : Recognizes Signature.deserialize (sized Signature.getSize
    fun sig w => sig.WellFormed ∧ w = sig.serialize) := by
  have hecd : ∀ algo, Recognizes (EcdsaSignature.deserialize algo) _ :=
    fun algo => (recognizes_eccPoint algo).bind fun point =>
      (recognizes_binary algo.fieldSize).map fun s =>
        ((⟨point, s⟩ : EcdsaSignature), (⟨point, s⟩ : EcdsaSignature).getSize)
  have h : Recognizes Signature.deserialize _ :=
    recognizes_byte.bind_written fun byte =>
      Recognizes.ite ((hecd ⟨byte⟩).map fun out =>
        ((⟨out.1⟩ : Signature), 1 + out.2)) (.throw _)
  refine h.congr fun out w => ?_
  constructor
  · rintro ⟨byte, _, ⟨ha, _, ⟨point, _, s, ⟨hsi, rfl⟩, ⟨_, ⟨rfl, hs⟩, rfl⟩, rfl⟩, rfl⟩, rfl⟩
    cases ha
    exact ⟨⟨⟨point, s⟩⟩, ⟨⟨hsi, hs⟩, rfl⟩, rfl⟩
  · rintro ⟨sig, ⟨⟨hr, hs⟩, rfl⟩, rfl⟩
    exact ⟨0, _, ⟨rfl, _, ⟨sig.someEcdsa.r, _, _, ⟨hr, rfl⟩,
      ⟨sig.someEcdsa.s, ⟨rfl, hs⟩, rfl⟩, rfl⟩, rfl⟩, rfl⟩

theorem recognizes_twoDLocation : Recognizes TwoDLocation.deserialize (sized TwoDLocation.getSize
    fun loc w => w = loc.serialize) := by
  have h : Recognizes TwoDLocation.deserialize _ :=
    recognizes_uint32.bind_written fun latitude =>
      recognizes_uint32.map fun longitude =>
        ((⟨latitude.toInt32, longitude.toInt32⟩ : TwoDLocation), 8)
  refine h.congr fun out w => ?_
  constructor
  · rintro ⟨latitude, _, ⟨longitude, rfl, rfl⟩, rfl⟩
    refine ⟨⟨latitude.toInt32, longitude.toInt32⟩, ?_, rfl⟩
    dsimp only
    rw [TwoDLocation.serialize, UInt32.toUInt32_toInt32, UInt32.toUInt32_toInt32]
  rintro ⟨loc, rfl, rfl⟩
  refine ⟨loc.latitude.toUInt32, _, ⟨loc.longitude.toUInt32, rfl, ?_⟩, rfl⟩
  dsimp only
  rw [Int32.toInt32_toUInt32, Int32.toInt32_toUInt32]
  rfl

theorem recognizes_threeDLocation :
  Recognizes ThreeDLocation.deserialize (sized ThreeDLocation.getSize
    fun loc w => w = loc.serialize) := by
  have h : Recognizes ThreeDLocation.deserialize _ :=
    recognizes_uint32.bind_written fun latitude =>
      recognizes_uint32.bind_written fun longitude =>
      (recognizes_octets 2).map fun elevation =>
        ((⟨latitude.toInt32, longitude.toInt32, elevation⟩ : ThreeDLocation), 10)
  refine h.congr fun out w => ?_
  constructor
  · rintro ⟨latitude, _, ⟨longitude, _, ⟨elevation, rfl, rfl⟩, rfl⟩, rfl⟩
    refine ⟨⟨latitude.toInt32, longitude.toInt32, elevation⟩, ?_, rfl⟩
    dsimp only
    rw [ThreeDLocation.serialize, UInt32.toUInt32_toInt32, UInt32.toUInt32_toInt32, append_assoc]
  rintro ⟨loc, rfl, rfl⟩
  refine ⟨loc.latitude.toUInt32, _, ⟨loc.longitude.toUInt32, _,
    ⟨loc.elevation, rfl, ?_⟩, rfl⟩, append_assoc _ _ _⟩
  dsimp only
  rw [Int32.toInt32_toUInt32, Int32.toInt32_toUInt32]
  rfl

theorem recognizes_rectangularRegion :
  Recognizes RectangularRegion.deserialize (sized RectangularRegion.getSize
    fun region w => w = region.serialize) := by
  have h : Recognizes RectangularRegion.deserialize _ :=
    recognizes_twoDLocation.bind fun northwest =>
      recognizes_twoDLocation.map fun southeast =>
        ((⟨northwest.1, southeast.1⟩ : RectangularRegion), northwest.2 + southeast.2)
  refine h.congr fun out w => ?_
  constructor
  · rintro ⟨_, _, _, ⟨northwest, rfl, rfl⟩, ⟨_, ⟨southeast, rfl, rfl⟩, rfl⟩, rfl⟩
    exact ⟨⟨northwest, southeast⟩, rfl, rfl⟩
  · rintro ⟨region, rfl, rfl⟩
    exact ⟨_, _, _, ⟨region.northwest, rfl, rfl⟩, ⟨_, ⟨region.southeast, rfl, rfl⟩, rfl⟩, rfl⟩

def countdownMeets {α : Type} (call : Nat → Nat → Prop) (deserialize : Deserialize (α × Nat)) :
  Nat → Nat → Input ErrorCode → Prop
  | 0, _, _ => True
  | fuel + 1, size, input => size = 0 ∨ (Takes deserialize (fun out => call out.2) input ∧
        After deserialize (fun out => countdownMeets call deserialize fuel
          ((size + 2 ^ 64 - out.2) % 2 ^ 64)) input)

def regionListMeets {α : Type} (call : Nat → Nat → Prop)
  (deserialize : Deserialize (α × Nat)) : Input ErrorCode → Prop :=
  After deserializeLength fun size input =>
    countdownMeets call deserialize (input.rest.length + 1) size input

section Countdown

variable {α : Type} {deserialize : Deserialize (α × Nat)} {getSize : α → Nat}
  {serialize : α → ByteBuffer} {elementSize : Nat}

theorem sticky_countdown (hd : Sticky deserialize) (fuel size : Nat) :
  Sticky (deserializeCountdown deserialize fuel size) := by
  induction fuel generalizing size with
  | zero => exact .pure []
  | succ fuel ih =>
    rw [deserializeCountdown]
    split
    · exact .pure []
    · exact hd.bind fun out => (ih _).bind fun _ => .pure _

variable {n : Nat} {list : List α}

theorem countdown_complete (hd : Recognizes deserialize (sized getSize fun a w => w = serialize a))
  (call : Nat → Nat → Prop) (hp : ∀ a, 1 ≤ getSize a) {fuel : Nat}
  (rest : ByteBuffer) (hf : list.length < fuel) (hlt : getSizeList getSize list < 2 ^ 64) :
  deserializeCountdown deserialize fuel (getSizeList getSize list)
      ⟨list.flatMap serialize ++ rest, none⟩ = .ok (list, ⟨rest, none⟩) ∧
    (countdownMeets call deserialize fuel (getSizeList getSize list)
        ⟨list.flatMap serialize ++ rest, none⟩ ↔
      ∀ a ∈ list, call (getSize a) (serialize a).length) := by
  induction list generalizing fuel with
  | nil =>
    rw [length_nil] at hf
    obtain ⟨fuel, rfl⟩ : ∃ k, fuel = k + 1 := ⟨fuel - 1, by omega⟩
    exact ⟨rfl, iff_of_true (.inl rfl) (forall_mem_nil _)⟩
  | cons a list ih =>
    rw [length_cons] at hf
    obtain ⟨fuel, rfl⟩ : ∃ k, fuel = k + 1 := ⟨fuel - 1, by omega⟩
    have ha := hp a
    have hr := hd.complete (list.flatMap serialize ++ rest) (sized_written getSize (a := a) rfl)
    rw [getSizeList_cons] at hlt ⊢
    have hl : (getSize a + getSizeList getSize list + 2 ^ 64 - getSize a) %
        2 ^ 64 = getSizeList getSize list := by omega
    obtain ⟨hre, hmt⟩ := @ih fuel (by omega) (by omega)
    rw [flatMap_cons, append_assoc]
    constructor
    · rw [deserializeCountdown, if_neg (by omega), bind_ok hr]
      dsimp only
      rw [hl, bind_ok hre]
      rfl
    · rw [countdownMeets, or_iff_right (by omega), Takes, after_iff hr,
        after_iff hr, hl, hmt, forall_mem_cons, length_append, Nat.add_sub_cancel]

theorem countdown_wrap (hp : 1 ≤ elementSize) (hd : elementSize ∣ 2 ^ 64)
  (h0 : size ≠ 0) (hlt : size < 2 ^ 64)
  (hn : elementSize * n = (size + 2 ^ 64 - elementSize) % 2 ^ 64) :
  elementSize + elementSize * n = size := by
  have hle : elementSize ≤ 2 ^ 64 := Nat.le_of_dvd (by decide) hd
  by_cases hs : elementSize ≤ size
  · omega
  have hsum : size + 2 ^ 64 = elementSize * (n + 1) := by
    rw [Nat.mul_add]
    omega
  have hd' : elementSize ∣ size := (Nat.dvd_add_left hd).1 (hsum ▸ Nat.dvd_mul_right _ _)
  have := Nat.le_of_dvd (by omega) hd'
  omega

theorem getSizeList_const (hs : ∀ a, getSize a = n) (list : List α) :
  getSizeList getSize list = n * list.length := by
  induction list with
  | nil => rfl
  | cons a list ih =>
    rw [getSizeList_cons, ih, hs, length_cons]
    ring

theorem dvd_getSizeList (h : ∀ a, n ∣ getSize a) (list : List α) :
  n ∣ getSizeList getSize list := by
  refine dvd_sum fun size hs => ?_
  obtain ⟨a, -, rfl⟩ := mem_map.1 hs
  exact h a

theorem countdown_sound (hd : Recognizes deserialize (sized getSize fun a w => w = serialize a))
  (hp : 1 ≤ elementSize) (hdvd : elementSize ∣ 2 ^ 64) (hs : ∀ a, getSize a = elementSize)
  (hl : ∀ a, 1 ≤ (serialize a).length) {fuel : Nat}
  {bytes rest : ByteBuffer} (hf : bytes.length < fuel) (hlt : size < 2 ^ 64)
  (h : deserializeCountdown deserialize fuel size ⟨bytes, none⟩ = .ok (list, ⟨rest, none⟩)) :
  getSizeList getSize list = size ∧ bytes = list.flatMap serialize ++ rest := by
  induction fuel generalizing size bytes list with
  | zero => omega
  | succ fuel ih =>
    rw [deserializeCountdown] at h
    split at h
    · next h0 =>
      cases h
      exact ⟨h0.symm, rfl⟩
    next h0 =>
    obtain ⟨_, ⟨left, failure⟩, hr, h⟩ := bind_eq_ok h
    obtain ⟨tail, ⟨left', failure'⟩, ht, h⟩ := bind_eq_ok h
    cases h
    cases failure with
    | some code => cases sticky_countdown hd.sticky _ _ _ _ _ _ ht
    | none =>
      obtain ⟨_, ⟨a, rfl, rfl⟩, rfl⟩ := hd.sound hr
      have ha := hl a
      rw [length_append] at hf
      obtain ⟨hsum, rfl⟩ := ih (by omega) (Nat.mod_lt _ (by decide)) ht
      refine ⟨?_, ?_⟩
      · dsimp only at hsum
        rw [hs, getSizeList_const hs] at hsum
        rw [getSizeList_cons, hs, getSizeList_const hs]
        exact countdown_wrap hp hdvd h0 hlt hsum
      · rw [flatMap_cons, append_assoc]

theorem length_le_flatMap (hl : ∀ a, 1 ≤ (serialize a).length)
  (list : List α) : list.length ≤ (list.flatMap serialize).length := by
  induction list with
  | nil => exact le_rfl
  | cons a list ih =>
    have := hl a
    rw [flatMap_cons, length_append, length_cons]
    omega

theorem remaining_ok (input : Input ErrorCode) :
  (remaining : Deserialize Nat) input = .ok (input.rest.length, input) := rfl

theorem sticky_remaining : Sticky (remaining : Deserialize Nat) := by
  rintro bytes code a output ⟨⟩
  rfl

theorem audits_countdown (call : Nat → Nat → Prop)
  (hd : Recognizes deserialize (sized getSize fun a w => w = serialize a))
  (hp : 1 ≤ elementSize) (hdvd : elementSize ∣ 2 ^ 64) (hs : ∀ a, getSize a = elementSize)
  (hlen : ∀ a, 1 ≤ (serialize a).length) (hlt : size < 2 ^ 64) :
  Audits (do
    let octets ← remaining
    return (← deserializeCountdown deserialize (octets + 1) size, size))
    (fun input =>
      countdownMeets call deserialize (input.rest.length + 1) size input)
    (fun out w => ∃ list, getSizeList getSize list = size ∧
      w = list.flatMap serialize ∧ out = (list, size))
    (fun out w => ∃ list, getSizeList getSize list = size ∧
      (∀ a ∈ list, call (getSize a) (serialize a).length) ∧
      w = list.flatMap serialize ∧ out = (list, size)) := by
  have hf : ∀ (list : List α) (rest : ByteBuffer),
      list.length < (list.flatMap serialize ++ rest).length + 1 := by
    intro list rest
    have := length_le_flatMap hlen list
    rw [length_append]
    omega
  have hp' : ∀ a, 1 ≤ getSize a := fun a => hp.trans (hs a).ge
  constructor
  case recognizes =>
    constructor
    case sound =>
      intro bytes out rest h
      rw [bind_ok (remaining_ok _)] at h
      obtain ⟨list, ⟨left, failure⟩, hl, h⟩ := bind_eq_ok h
      cases h
      obtain ⟨hsum, hbs⟩ := countdown_sound hd hp hdvd hs hlen (Nat.lt_succ_self _) hlt hl
      exact ⟨_, ⟨list, hsum, rfl, rfl⟩, hbs⟩
    case complete =>
      rintro _ _ rest ⟨list, rfl, rfl, rfl⟩
      have hl := (countdown_complete hd call hp' rest (hf list rest) hlt).1
      rw [bind_ok (remaining_ok _), bind_ok hl]
      rfl
    case sticky =>
      exact sticky_remaining.bind fun octets =>
        (sticky_countdown hd.sticky _ _).bind fun _ => .pure _
  case within =>
    rintro _ _ ⟨list, hsum, -, rfl, rfl⟩
    exact ⟨list, hsum, rfl, rfl⟩
  case meets =>
    rintro _ _ rest ⟨list, rfl, rfl, rfl⟩
    rw [(countdown_complete hd call hp' rest (hf list rest) hlt).2]
    constructor
    · intro hc
      exact ⟨list, rfl, hc, rfl, rfl⟩
    · rintro ⟨_, -, hc, -, ⟨⟩⟩
      exact hc

theorem audits_regionList (elementSize : Nat) (demand : Demand)
  (hd : Recognizes deserialize (sized getSize fun a w => w = serialize a))
  (hp : 1 ≤ elementSize) (hdvd : elementSize ∣ 2 ^ 64) (hs : ∀ a, getSize a = elementSize)
  (hl : ∀ a, 1 ≤ (serialize a).length) :
  Audits (deserializeRegionList deserialize) (regionListMeets demand.call deserialize)
    (sized (getSizeList getSize) (regionList .any getSize serialize))
    (sized (getSizeList getSize) (regionList demand.dialect getSize serialize)) := by
  have h := (Audits.of_recognizes recognizes_length).bind_of (P := fun size => size < 2 ^ 64)
    (fun size w hw => hw.lt.trans (by decide))
    (fun size hlt => audits_countdown demand.call hd hp hdvd hs hl hlt)
    (fun size => sticky_remaining.bind fun octets =>
      (sticky_countdown hd.sticky _ _).bind fun _ => .pure _)
  refine (h.congr ?_ ?_).congr_demand fun input =>
    (and_iff_right trivial).symm
  · intro out w
    constructor
    · rintro ⟨_, u, _, hu, ⟨list, rfl, rfl, rfl⟩, rfl⟩
      exact ⟨list, ⟨u, ⟨hu, trivial⟩, fun _ _ => trivial, rfl⟩, rfl⟩
    · rintro ⟨list, ⟨u, ⟨hu, -⟩, -, rfl⟩, rfl⟩
      exact ⟨_, u, _, hu, ⟨list, rfl, rfl, rfl⟩, rfl⟩
  · intro out w
    constructor
    · rintro ⟨_, u, _, hu, ⟨list, rfl, hc, rfl, rfl⟩, rfl⟩
      exact ⟨list, ⟨u, ⟨hu, trivial⟩, hc, rfl⟩, rfl⟩
    · rintro ⟨list, ⟨u, ⟨hu, -⟩, hc, rfl⟩, rfl⟩
      exact ⟨_, u, _, hu, ⟨list, rfl, hc, rfl, rfl⟩, rfl⟩

end Countdown

theorem recognizes_intX : Recognizes IntX.deserialize (sized IntX.getSize (IntX.wire .any)) := by
  have h : Recognizes IntX.deserialize _ :=
    recognizes_length.map fun n =>
      (UInt64.ofNat n, IntX.getSize (UInt64.ofNat n))
  refine h.congr fun out w => ?_
  constructor
  · rintro ⟨n, hn, rfl⟩
    have hlt : n < UInt64.size := hn.lt.trans (by decide)
    refine ⟨UInt64.ofNat n, ⟨?_, trivial⟩, rfl⟩
    rwa [UInt64.toNat_ofNat_of_lt' hlt]
  rintro ⟨x, ⟨hx, -⟩, rfl⟩
  refine ⟨x.toNat, hx, ?_⟩
  dsimp only
  rw [UInt64.ofNat_toNat]

theorem recognizes_circularRegion :
  Recognizes CircularRegion.deserialize (sized CircularRegion.getSize
    fun region w => w = region.center.serialize ++ toBigEndian 2 region.radius.toNat) := by
  have h : Recognizes CircularRegion.deserialize _ :=
    recognizes_twoDLocation.bind fun center =>
      recognizes_uint16.map fun radius =>
        ((⟨center.1, radius⟩ : CircularRegion), center.2 + 2)
  refine h.congr fun out w => ?_
  constructor
  · rintro ⟨_, _, _, ⟨center, rfl, rfl⟩, ⟨radius, rfl, rfl⟩, rfl⟩
    exact ⟨⟨center, radius⟩, rfl, rfl⟩
  · rintro ⟨region, rfl, rfl⟩
    exact ⟨_, _, _, ⟨region.center, rfl, rfl⟩, ⟨region.radius, rfl, rfl⟩, rfl⟩

theorem recognizes_identifiedRegion :
  Recognizes IdentifiedRegion.deserialize (sized IdentifiedRegion.getSize
    fun region w => ∃ u, IntX.wire .any region.localRegion u ∧ w = region.regionDictionary.raw ::
        (toBigEndian 2 region.regionIdentifier.toUInt16.toNat ++ u)) := by
  have h : Recognizes IdentifiedRegion.deserialize _ :=
    recognizes_byte.bind_written fun dictionary =>
      recognizes_uint16.bind_written fun ident =>
      recognizes_intX.map fun localRegion =>
        ((⟨⟨dictionary⟩, ident.toInt16, localRegion.1⟩ : IdentifiedRegion),
          1 + 2 + localRegion.2)
  refine h.congr fun out w => ?_
  constructor
  · rintro ⟨dictionary, _, ⟨ident, u, ⟨_, ⟨localRegion, hu, rfl⟩, rfl⟩, rfl⟩, rfl⟩
    refine ⟨⟨⟨dictionary⟩, ident.toInt16, localRegion⟩, ⟨u, hu, ?_⟩, rfl⟩
    dsimp only
    rw [UInt16.toUInt16_toInt16]
    rfl
  · rintro ⟨region, ⟨u, hu, rfl⟩, rfl⟩
    refine ⟨region.regionDictionary.raw, _, ⟨region.regionIdentifier.toUInt16,
      u, ⟨_, ⟨region.localRegion, hu, rfl⟩, ?_⟩, rfl⟩, rfl⟩
    dsimp only
    rw [Int16.toInt16_toUInt16]
    rfl

theorem RegionType.ofCode_code (type : RegionType) : ofCode type.code = some type := by
  cases type <;> rfl

namespace GeographicRegion

def bodyMeets (call : Nat → Nat → Prop) : RegionType → Input ErrorCode → Prop
  | .rectangle => regionListMeets call RectangularRegion.deserialize
  | .polygon => regionListMeets call TwoDLocation.deserialize
  | _ => fun _ => True

def meets (call : Nat → Nat → Prop) : Input ErrorCode → Prop :=
  After loadByte fun byte input =>
    ∀ type, RegionType.ofCode byte = some type → bodyMeets call type input

end GeographicRegion

theorem length_twoDLocation (loc : TwoDLocation) : loc.serialize.length = 8 := by
  rw [TwoDLocation.serialize, length_append, length_toBigEndian, length_toBigEndian]

theorem audits_rectangles (demand : Demand) :
  Audits (deserializeRegionList RectangularRegion.deserialize)
    (regionListMeets demand.call RectangularRegion.deserialize)
    (sized (getSizeList RectangularRegion.getSize)
      (regionList .any RectangularRegion.getSize RectangularRegion.serialize))
    (sized (getSizeList RectangularRegion.getSize)
      (regionList demand.dialect RectangularRegion.getSize RectangularRegion.serialize)) := by
  refine audits_regionList 16 demand
    recognizes_rectangularRegion (by decide) (by decide) (fun _ => rfl) ?_
  intro region
  rw [RectangularRegion.serialize, length_append, length_twoDLocation]
  omega

theorem audits_points (demand : Demand) : Audits (deserializeRegionList TwoDLocation.deserialize)
    (regionListMeets demand.call TwoDLocation.deserialize) (sized (getSizeList TwoDLocation.getSize)
      (regionList .any TwoDLocation.getSize TwoDLocation.serialize))
    (sized (getSizeList TwoDLocation.getSize) (regionList demand.dialect TwoDLocation.getSize
        TwoDLocation.serialize)) := by
  refine audits_regionList 8 demand
    recognizes_twoDLocation (by decide) (by decide) (fun _ => rfl) ?_
  intro loc
  rw [length_twoDLocation]
  decide

theorem regionSize_eq (hlt : size < 2 ^ 56) (hd : 8 ∣ size) : 1 + (size + lengthCodingSize size) =
    1 + size + lengthCodingSize (1 + size) := by
  rw [lengthCodingSize_one_add hlt hd, Nat.add_assoc]

theorem audits_region (demand : Demand) :
  Audits GeographicRegion.deserialize (GeographicRegion.meets demand.call)
    (sized GeographicRegion.getSize (GeographicRegion.wire .any))
    (sized GeographicRegion.getSize (GeographicRegion.wire demand.dialect)) := by
  have h : Audits GeographicRegion.deserialize _ _ _ :=
    audits_tagged (fun out => out.1.getType) (GeographicRegion.bodyMeets demand.call)
      (sized GeographicRegion.getSize (GeographicRegion.body .any))
      (sized GeographicRegion.getSize (GeographicRegion.body demand.dialect))
      RegionType.ofCode_code findCode_eq ?_ ?_
  · exact h.congr (tagged_sized_iff _) (tagged_sized_iff _)
  · intro type
    cases type with
    | none =>
      have hs : ∀ (D : Dialect) out w, Format.pure (GeographicRegion.none, 1) out w ↔
            out.1.getType = .none ∧
              sized GeographicRegion.getSize (GeographicRegion.body D) out w := by
        intro D out w
        constructor
        · rintro ⟨rfl, rfl⟩
          exact ⟨rfl, .none, rfl, rfl⟩
        rintro ⟨ht, region, hb, rfl⟩
        cases region <;> cases ht
        cases hb
        exact ⟨rfl, rfl⟩
      exact (Audits.of_recognizes (.pure _)).congr (hs _) (hs _)
    | circle =>
      refine audits_kind GeographicRegion.circle (1 + ·)
        (.of_recognizes recognizes_circularRegion) ?_ (fun _ _ _ => rfl)
      intro region
      cases region <;> simp [GeographicRegion.getType]
    | rectangle =>
      refine audits_kind GeographicRegion.rectangle
        (fun size => 1 + size + lengthCodingSize (1 + size)) (audits_rectangles demand) ?_ ?_
      · intro region
        cases region <;> simp [GeographicRegion.getType]
      intro list w hw
      obtain ⟨u, ⟨hu, -⟩, -⟩ := hw
      refine regionSize_eq hu.lt ?_
      exact dvd_getSizeList (fun _ => (by decide : 8 ∣ 16)) list
    | polygon =>
      refine audits_kind GeographicRegion.polygon
        (fun size => 1 + size + lengthCodingSize (1 + size)) (audits_points demand) ?_ ?_
      · intro region
        cases region <;> simp [GeographicRegion.getType]
      intro points w hw
      obtain ⟨u, ⟨hu, -⟩, -⟩ := hw
      refine regionSize_eq hu.lt ?_
      exact dvd_getSizeList (fun _ => dvd_refl 8) points
    | id =>
      refine audits_kind GeographicRegion.id (1 + ·)
        (.of_recognizes recognizes_identifiedRegion) ?_ (fun _ _ _ => rfl)
      intro region
      cases region <;> simp [GeographicRegion.getType]
  · intro byte hby
    simp only [hby]
    exact .throw _

theorem recognizes_itsAidSsp : Recognizes ItsAidSsp.deserialize
    (sized ItsAidSsp.getSize (ItsAidSsp.wire .any)) := by
  have h : Recognizes ItsAidSsp.deserialize _ :=
    recognizes_intX.bind fun itsAid => recognizes_length.bind fun bufSize =>
      Recognizes.ite ((recognizes_binary bufSize).map fun permissions =>
          ((⟨itsAid.1, permissions⟩ : ItsAidSsp), itsAid.2 + (bufSize + lengthCodingSize bufSize)))
        ((Recognizes.note _).bind_empty fun _ => .pure _)
  refine h.congr fun out w => ?_
  constructor
  · rintro ⟨_, u, _, ⟨itsAid, hu, rfl⟩, ⟨_, v, permissions, hv,
      ⟨hle, _, ⟨rfl, rfl⟩, rfl⟩, rfl⟩, rfl⟩
    refine ⟨⟨itsAid, permissions⟩, ⟨u, v, hu, ⟨hv, trivial⟩, hle, rfl⟩, ?_⟩
    rw [ItsAidSsp.getSize]
    dsimp only
    rw [Nat.add_assoc]
  · rintro ⟨ssp, ⟨u, v, hu, ⟨hv, -⟩, hle, rfl⟩, rfl⟩
    refine ⟨_, u, _, ⟨ssp.itsAid, hu, rfl⟩, ⟨_, v, _, hv, ⟨hle, _, ⟨rfl, rfl⟩, ?_⟩, rfl⟩, rfl⟩
    rw [ItsAidSsp.getSize]
    dsimp only
    rw [Nat.add_assoc]

theorem ItsAidSsp.getSize_pos (ssp : ItsAidSsp) : 1 ≤ ssp.getSize := by
  have := lengthCodingSize_pos ssp.itsAid.toNat
  rw [ItsAidSsp.getSize, IntX.getSize]
  omega

theorem SubjectAttributeType.ofCode_code (type : SubjectAttributeType) :
  ofCode type.code = some type := by
  cases type <;> rfl

namespace SubjectAttribute

def bodyMeets (call : Nat → Nat → Prop) : SubjectAttributeType → Input ErrorCode → Prop
  | .itsAidList => listMeets call IntX.deserialize fun _ => True
  | .itsAidSspList => listMeets call ItsAidSsp.deserialize fun _ => True
  | _ => fun _ => True

def meets (call : Nat → Nat → Prop) : Input ErrorCode → Prop :=
  After loadByte fun byte input => ∀ type,
    SubjectAttributeType.ofCode byte = some type → bodyMeets call type input

end SubjectAttribute

theorem audits_subjectAttribute (demand : Demand) :
  Audits SubjectAttribute.deserialize (SubjectAttribute.meets demand.call)
    (sized SubjectAttribute.getSize (SubjectAttribute.wire .any))
    (sized SubjectAttribute.getSize (SubjectAttribute.wire demand.dialect)) := by
  have h : Audits deserialize _ _ _ :=
    audits_tagged (fun out => out.1.getType) (bodyMeets demand.call) (sized getSize (body .any))
      (sized getSize (body demand.dialect)) SubjectAttributeType.ofCode_code findCode_eq ?_ ?_
  · exact h.congr (tagged_sized_iff _) (tagged_sized_iff _)
  · intro type
    cases type with
    | verificationKey =>
      refine audits_kind verificationKey (1 + ·)
        (.of_recognizes recognizes_publicKey) ?_ (fun _ _ _ => rfl)
      intro sub
      cases sub <;> simp [getType]
    | encryptionKey =>
      refine audits_kind encryptionKey (1 + ·)
        (.of_recognizes recognizes_publicKey) ?_ (fun _ _ _ => rfl)
      intro sub
      cases sub <;> simp [getType]
    | assuranceLevel =>
      refine audits_leaf demand (recognizes_byte.map fun byte =>
        (assuranceLevel ⟨byte⟩, 1 + 1)) ?_
      intro D sub size w
      constructor
      · rintro ⟨byte, rfl, ⟨⟩⟩
        exact ⟨rfl, rfl, rfl⟩
      · rintro ⟨ht, hb, rfl⟩
        cases sub <;> cases ht
        exact ⟨_, hb, rfl⟩
    | reconstructionValue =>
      refine audits_leaf demand (.throw _) ?_
      intro D sub size w
      cases sub <;> simp [Format.empty, getType, body]
    | itsAidList =>
      refine audits_kind itsAidList (fun size => 1 + size + lengthCodingSize size)
        (audits_list demand.call (.of_recognizes recognizes_intX)
          fun x => lengthCodingSize_pos _) ?_ ?_
      · intro sub
        cases sub <;> simp [getType]
      · intro list w _
        exact (Nat.add_assoc _ _ _).symm
    | itsAidSspList =>
      refine audits_kind itsAidSspList (fun size => 1 + size + lengthCodingSize size)
        (audits_list demand.call (.of_recognizes recognizes_itsAidSsp) ItsAidSsp.getSize_pos) ?_ ?_
      · intro sub
        cases sub <;> simp [getType]
      · intro list w _
        exact (Nat.add_assoc _ _ _).symm
  · intro byte hby
    simp only [hby]
    exact .throw _

theorem SubjectAttribute.getSize_pos (sub : SubjectAttribute) : 1 ≤ sub.getSize := by
  cases sub <;> exact Nat.le_add_right 1 _

theorem ValidityRestrictionType.ofCode_code (type : ValidityRestrictionType) :
  ofCode type.code = some type := by
  cases type <;> rfl

namespace ValidityRestriction

def bodyMeets (call : Nat → Nat → Prop) : ValidityRestrictionType → Input ErrorCode → Prop
  | .region => GeographicRegion.meets call
  | _ => fun _ => True

def meets (call : Nat → Nat → Prop) : Input ErrorCode → Prop :=
  After loadByte fun byte input => ∀ type,
    ValidityRestrictionType.ofCode byte = some type → bodyMeets call type input

theorem getSize_pos (restr : ValidityRestriction) : 1 ≤ restr.getSize := by
  cases restr <;> exact Nat.le_add_right 1 _

end ValidityRestriction

theorem audits_validityRestriction (demand : Demand) : Audits ValidityRestriction.deserialize
    (ValidityRestriction.meets demand.call)
    (sized ValidityRestriction.getSize (ValidityRestriction.wire .any))
    (sized ValidityRestriction.getSize (ValidityRestriction.wire demand.dialect)) := by
  have h : Audits ValidityRestriction.deserialize _ _ _ :=
    audits_tagged (fun out => out.1.getType) (ValidityRestriction.bodyMeets demand.call)
      (sized ValidityRestriction.getSize (ValidityRestriction.body .any))
      (sized ValidityRestriction.getSize (ValidityRestriction.body demand.dialect))
      ValidityRestrictionType.ofCode_code findCode_eq ?_ ?_
  · exact h.congr (tagged_sized_iff _) (tagged_sized_iff _)
  · intro type
    cases type with
    | timeEnd =>
      refine audits_leaf demand (recognizes_uint32.map fun validity =>
        (ValidityRestriction.timeEnd validity, 1 + 4)) ?_
      intro D restr size w
      cases restr <;> simp [Format.map, ValidityRestriction.getType,
        ValidityRestriction.body, ValidityRestriction.getSize]
    | timeStartAndEnd =>
      refine audits_leaf demand (recognizes_uint32.bind_written fun start =>
        recognizes_uint32.map fun stop =>
          (ValidityRestriction.timeStartAndEnd ⟨start, stop⟩, 1 + (4 + 4))) ?_
      intro D restr size w
      constructor
      · rintro ⟨start, _, ⟨stop, rfl, ⟨⟩⟩, rfl⟩
        exact ⟨rfl, rfl, rfl⟩
      · rintro ⟨ht, hb, rfl⟩
        cases restr <;> cases ht
        exact ⟨_, _, ⟨_, rfl, rfl⟩, hb⟩
    | timeStartAndDuration =>
      refine audits_leaf demand (recognizes_uint32.bind_written fun start =>
        recognizes_uint16.map fun dur =>
          (ValidityRestriction.timeStartAndDuration ⟨start, dur⟩, 1 + (4 + 2))) ?_
      intro D restr size w
      constructor
      · rintro ⟨start, _, ⟨dur, rfl, ⟨⟩⟩, rfl⟩
        exact ⟨rfl, rfl, rfl⟩
      · rintro ⟨ht, hb, rfl⟩
        cases restr <;> cases ht
        exact ⟨_, _, ⟨_, rfl, rfl⟩, hb⟩
    | region =>
      refine audits_kind ValidityRestriction.region (1 + ·)
        (audits_region demand) ?_ (fun _ _ _ => rfl)
      intro restr
      cases restr <;> simp [ValidityRestriction.getType]
  · intro byte hby
    simp only [hby]
    exact .throw _

theorem SignerInfoType.ofCode_code (type : SignerInfoType) : ofCode type.code = some type := by
  cases type <;> rfl

theorem recognizes_subjectInfo : Recognizes SubjectInfo.deserialize (sized SubjectInfo.getSize
    fun sub w => ∃ name, Announces sub.subjectName.length name ∧
      w = sub.subjectType.raw :: (name ++ sub.subjectName)) := by
  have h : Recognizes SubjectInfo.deserialize _ :=
    recognizes_byte.bind_written fun type => recognizes_length.bind fun size =>
      (recognizes_binary size).map fun name =>
        ((⟨⟨type⟩, name⟩ : SubjectInfo), (⟨⟨type⟩, name⟩ : SubjectInfo).getSize)
  refine h.congr fun out w => ?_
  constructor
  · rintro ⟨type, _, ⟨_, u, name, hu, ⟨_, ⟨rfl, rfl⟩, rfl⟩, rfl⟩, rfl⟩
    exact ⟨⟨⟨type⟩, name⟩, ⟨u, hu, rfl⟩, rfl⟩
  · rintro ⟨sub, ⟨u, hu, rfl⟩, rfl⟩
    exact ⟨sub.subjectType.raw, _, ⟨_, u, sub.subjectName, hu, ⟨_, ⟨rfl, rfl⟩, rfl⟩, rfl⟩, rfl⟩

theorem recognizes_otherDigest : Recognizes CertificateDigestWithOtherAlgorithm.deserialize
    (sized (fun _ => 8 + 1) fun digest w =>
      w = digest.algorithm.raw :: digest.digest.toList) := by
  have h : Recognizes CertificateDigestWithOtherAlgorithm.deserialize _ :=
    recognizes_byte.bind_written fun algorithm =>
      (recognizes_octets 8).map fun digest =>
        ((⟨⟨algorithm⟩, digest⟩ : CertificateDigestWithOtherAlgorithm), 8 + 1)
  refine h.congr fun out w => ?_
  constructor
  · rintro ⟨algorithm, _, ⟨digest, rfl, rfl⟩, rfl⟩
    exact ⟨⟨⟨algorithm⟩, digest⟩, rfl, rfl⟩
  · rintro ⟨digest, rfl, rfl⟩
    exact ⟨digest.algorithm.raw, _, ⟨digest.digest, rfl, rfl⟩, rfl⟩

section Digests

variable {type : SignerInfoType}

def SignerInfo.digestOf (type : SignerInfoType) : Format (SignerInfo × Nat) :=
  fun out w => out.1.getType = type ∧ sized SignerInfo.getSize digest out w

theorem recognizes_self : Recognizes (pure (SignerInfo.self, 1) : Deserialize (SignerInfo × Nat))
    (SignerInfo.digestOf .self) := by
  refine (Recognizes.pure _).congr fun out w => ?_
  constructor
  · rintro ⟨rfl, rfl⟩
    exact ⟨rfl, .self, rfl, rfl⟩
  rintro ⟨ht, info, hin, rfl⟩
  cases info <;> cases ht
  cases hin
  exact ⟨rfl, rfl⟩

theorem recognizes_sha256Digest : Recognizes (do
    return (SignerInfo.certificateDigestWithSha256 (← loadOctets 8), 1 + 8))
    (SignerInfo.digestOf .certificateDigestWithSha256) := by
  refine ((recognizes_octets 8).map fun id =>
    (SignerInfo.certificateDigestWithSha256 id, 1 + 8)).congr fun out w => ?_
  constructor
  · rintro ⟨id, rfl, rfl⟩
    exact ⟨rfl, .certificateDigestWithSha256 id, rfl, rfl⟩
  · rintro ⟨ht, info, hin, rfl⟩
    cases info <;> cases ht
    exact ⟨_, hin, rfl⟩

theorem recognizes_signerOtherDigest : Recognizes (do
    let (digest, size) ← CertificateDigestWithOtherAlgorithm.deserialize
    return (SignerInfo.certificateDigestWithOtherAlgorithm digest, 1 + size))
    (SignerInfo.digestOf .certificateDigestWithOtherAlgorithm) := by
  refine (recognizes_otherDigest.map fun out =>
    (SignerInfo.certificateDigestWithOtherAlgorithm out.1, 1 + out.2)).congr
    fun out w => ?_
  constructor
  · rintro ⟨_, ⟨digest, rfl, rfl⟩, rfl⟩
    exact ⟨rfl, .certificateDigestWithOtherAlgorithm digest, rfl, rfl⟩
  · rintro ⟨ht, info, hin, rfl⟩
    cases info <;> cases ht
    exact ⟨_, ⟨_, hin, rfl⟩, rfl⟩

end Digests

theorem recognizes_certificateSigner : Recognizes SignerInfo.deserializeCertificateSigner
    (sized SignerInfo.getSize fun info w => ∃ v, info.digest v ∧ w = info.getType.code :: v) := by
  have hn : ∀ type, (type = .certificate ∨ type = .certificateChain) →
      ∀ out w, Format.empty out w ↔ SignerInfo.digestOf type out w := by
    intro type ht out w
    refine iff_of_false id ?_
    rintro ⟨rfl, info, hin, rfl⟩
    cases info with
    | certificate cert => exact hin
    | certificateChain list => exact hin
    | _ => obtain h | h := ht <;> cases h
  have h : Recognizes SignerInfo.deserializeCertificateSigner _ :=
    recognizes_tagged (fun out => out.1.getType) (sized SignerInfo.getSize SignerInfo.digest)
      SignerInfoType.ofCode_code findCode_eq ?_ ?_
  · exact h.congr (tagged_sized_iff _)
  · intro type
    cases type with
    | self => exact recognizes_self
    | certificateDigestWithSha256 => exact recognizes_sha256Digest
    | certificateDigestWithOtherAlgorithm => exact recognizes_signerOtherDigest
    | certificate => exact (Recognizes.throw _).congr (hn _ (.inl rfl))
    | certificateChain => exact (Recognizes.throw _).congr (hn _ (.inr rfl))
  · intro byte hb
    simp only [hb]
    exact .throw _

def Certificate.meets (call : Nat → Nat → Prop) : Input ErrorCode → Prop :=
  After loadByte fun _ => After SignerInfo.deserializeCertificateSigner fun _ =>
    After SubjectInfo.deserialize fun _ input =>
      listMeets call SubjectAttribute.deserialize (SubjectAttribute.meets call) input ∧
      After (deserializeList SubjectAttribute.deserialize) (fun _ =>
        listMeets call ValidityRestriction.deserialize (ValidityRestriction.meets call)) input

theorem Certificate.getSize_pos (cert : Certificate) : 1 ≤ cert.getSize := by
  cases cert
  rw [Certificate.getSize]
  omega

theorem audits_certificate (demand : Demand) :
  Audits Certificate.deserialize (Certificate.meets demand.call)
    (sized Certificate.getSize (Certificate.wire .any))
    (sized Certificate.getSize (Certificate.wire demand.dialect)) := by
  have ha := audits_list demand.call (audits_subjectAttribute demand) getSize_pos
  have hr := audits_list demand.call
    (audits_validityRestriction demand) ValidityRestriction.getSize_pos
  have h : Audits Certificate.deserialize _ _ _ :=
    Audits.bind_right recognizes_byte fun version =>
      Audits.ite (Audits.bind_right recognizes_certificateSigner fun signer =>
          Audits.bind_right recognizes_subjectInfo fun subject =>
          ha.bind fun attrs =>
          hr.bind_left fun restrs =>
          recognizes_signature.map fun signature =>
            ((⟨signer.1, subject.1, attrs.1, restrs.1, signature.1⟩ : Certificate),
              1 + signer.2 + subject.2 + attrs.2 + lengthCodingSize
                  (getSizeList getSize attrs.1) + restrs.2 +
                lengthCodingSize (getSizeList ValidityRestriction.getSize restrs.1) + signature.2))
        (.throw _)
  refine h.congr ?_ ?_ <;>
  · intro out w
    constructor
    · rintro ⟨_, _, _, rfl, ⟨rfl, _, _, _, ⟨signer, ⟨sb, hs, rfl⟩,
        rfl⟩, ⟨_, _, _, ⟨subject, ⟨name, hn, rfl⟩, rfl⟩, ⟨_, ab, _, ⟨attrs, ha, rfl⟩, ⟨_, rb, _,
        ⟨restrs, hr, rfl⟩, ⟨_, ⟨sig, ⟨hsig, rfl⟩, rfl⟩, rfl⟩,
        rfl⟩, rfl⟩, rfl⟩, rfl⟩, rfl⟩
      refine ⟨⟨signer, subject, attrs, restrs, sig⟩, ⟨sb,
        name, ab, rb, hs, ⟨hn, trivial⟩, ha, hr, hsig, ?_⟩, ?_⟩
      · simp only [append_assoc, cons_append, nil_append]
      · rw [Certificate.getSize]
    · rintro ⟨⟨signer, subject, attrs, restrs, sig⟩, ⟨sb,
        name, ab, rb, hs, ⟨hn, -⟩, ha, hr, hsig, rfl⟩, rfl⟩
      refine ⟨2, _, _, rfl, ⟨rfl, _, _, _, ⟨signer, ⟨sb, hs, rfl⟩,
        rfl⟩, ⟨_, _, _, ⟨subject, ⟨name, hn, rfl⟩, rfl⟩, ⟨_, ab, _, ⟨attrs, ha, rfl⟩, ⟨_, rb, _,
        ⟨restrs, hr, rfl⟩, ⟨_, ⟨sig, ⟨hsig, rfl⟩, rfl⟩, ?_⟩,
        rfl⟩, rfl⟩, rfl⟩, rfl⟩, ?_⟩
      · rw [Certificate.getSize]
      · simp only [append_assoc, cons_append, nil_append]

theorem getSizes_eq (list : List Certificate) :
  Certificate.getSizes list = getSizeList Certificate.getSize list := by
  induction list with
  | nil => rfl
  | cons cert list ih => rw [Certificate.getSizes, ih, getSizeList_cons]

namespace SignerInfo

def bodyMeets (call : Nat → Nat → Prop) : SignerInfoType → Input ErrorCode → Prop
  | .certificate => Certificate.meets call
  | .certificateChain => listMeets call Certificate.deserialize (Certificate.meets call)
  | _ => fun _ => True

def meets (call : Nat → Nat → Prop) : Input ErrorCode → Prop :=
  After loadByte fun byte input => ∀ type,
    SignerInfoType.ofCode byte = some type → bodyMeets call type input

theorem digestOf_iff {type : SignerInfoType} (hcert : type ≠ .certificate)
  (hchain : type ≠ .certificateChain) (D : Dialect) (out : SignerInfo × Nat)
  (w : ByteBuffer) : digestOf type out w ↔
    out.1.getType = type ∧ sized countedSize (body D) out w := by
  have hkind : ∀ info : SignerInfo, info.getType = type →
      (info.digest w ↔ body D info w) ∧ info.getSize = info.countedSize := by
    rintro info rfl
    cases info with
    | certificate cert => exact absurd rfl hcert
    | certificateChain list => exact absurd rfl hchain
    | _ => exact ⟨Iff.rfl, rfl⟩
  constructor
  · rintro ⟨ht, info, hinfo, rfl⟩
    obtain ⟨hb, hs⟩ := hkind info ht
    exact ⟨ht, info, hb.1 hinfo, by rw [hs]⟩
  · rintro ⟨ht, info, hinfo, rfl⟩
    obtain ⟨hb, hs⟩ := hkind info ht
    exact ⟨ht, info, hb.2 hinfo, by rw [hs]⟩

end SignerInfo

theorem audits_signerInfo (demand : Demand) :
  Audits SignerInfo.deserialize (SignerInfo.meets demand.call)
    (sized SignerInfo.countedSize (SignerInfo.wire .any))
    (sized SignerInfo.countedSize (SignerInfo.wire demand.dialect)) := by
  have h : Audits SignerInfo.deserialize _ _ _ :=
    audits_tagged (fun out => out.1.getType) (SignerInfo.bodyMeets demand.call)
      (sized SignerInfo.countedSize (SignerInfo.body .any))
      (sized SignerInfo.countedSize (SignerInfo.body demand.dialect))
      SignerInfoType.ofCode_code findCode_eq ?_ ?_
  · exact h.congr (tagged_sized_iff _) (tagged_sized_iff _)
  · intro type
    have hdig : ∀ {type} {d : Deserialize (SignerInfo × Nat)},
        type ≠ .certificate → type ≠ .certificateChain →
        Recognizes d (SignerInfo.digestOf type) → Audits d _ _ _ :=
      fun hcert hchn hd => (Audits.of_recognizes hd).congr (SignerInfo.digestOf_iff hcert hchn .any)
        (SignerInfo.digestOf_iff hcert hchn demand.dialect)
    cases type with
    | self => exact hdig (by decide) (by decide) recognizes_self
    | certificateDigestWithSha256 => exact hdig (by decide) (by decide) recognizes_sha256Digest
    | certificateDigestWithOtherAlgorithm =>
      exact hdig (by decide) (by decide) recognizes_signerOtherDigest
    | certificate =>
      refine audits_kind SignerInfo.certificate (1 + ·) (audits_certificate demand) ?_ ?_
      · intro info
        cases info <;> simp [SignerInfo.getType]
      intro cert w _
      rw [SignerInfo.countedSize, SignerInfo.getSize]
      intro list
      exact SignerInfo.noConfusion
    | certificateChain =>
      refine audits_kind SignerInfo.certificateChain
        (fun size => 1 + size + lengthCodingSize (1 + size))
        (audits_list demand.call (audits_certificate demand) Certificate.getSize_pos) ?_ ?_
      · intro info
        cases info <;> simp [SignerInfo.getType]
      · intro list w _
        rw [SignerInfo.countedSize, getSizes_eq]
  · intro byte hb
    simp only [hb]
    exact .throw _

end Vanetza.Security.V2
