import Mathlib
import Vanetza.Common.ByteBuffer
import Vanetza.Lib.Audit

/-!
# What the loads of an archive recognize

Octets and big endian integers are read exactly as they are written. A number
and its octets determine each other as long as the number fits them, which is
what the lemmas about `toBigEndian` and `ofBigEndian` say.
-/

namespace Vanetza

open Lib Lib.Decoder

@[simp] theorem length_toBigEndian (n value : Nat) : (toBigEndian n value).length = n := by
  induction n generalizing value with
  | zero => rfl
  | succ n ih => rw [toBigEndian, List.length_append, ih, List.length_singleton]

theorem ofBigEndian_append (bytes : ByteBuffer) (last : UInt8) :
  ofBigEndian (bytes ++ [last]) = ofBigEndian bytes * 256 + last.toNat := by
  rw [ofBigEndian, List.foldl_append]
  rfl

theorem ofBigEndian_toBigEndian (n value : Nat) :
  ofBigEndian (toBigEndian n value) = value % 256 ^ n := by
  induction n generalizing value with
  | zero => rw [pow_zero, Nat.mod_one]; rfl
  | succ n ih =>
    have hs : value % 256 ^ (n + 1) = value % 256 + 256 * (value / 256 % 256 ^ n) := by
      rw [pow_succ', Nat.mod_mul]
    rw [toBigEndian, ofBigEndian_append, ih, UInt8.toNat_ofNat', hs]
    omega

theorem toBigEndian_ofBigEndian (bytes : ByteBuffer) :
  toBigEndian bytes.length (ofBigEndian bytes) = bytes := by
  induction bytes using List.reverseRecOn with
  | nil => rfl
  | append_singleton bytes last ih =>
    have hl : last.toNat < 256 := last.toNat_lt
    have hh : (ofBigEndian bytes * 256 + last.toNat) / 256 = ofBigEndian bytes := by omega
    have hlow : UInt8.ofNat (ofBigEndian bytes * 256 + last.toNat) = last := by
      apply UInt8.toNat_inj.1
      rw [UInt8.toNat_ofNat']
      omega
    rw [List.length_append, List.length_singleton, ofBigEndian_append, toBigEndian, hh, hlow, ih]

theorem ofBigEndian_lt (bytes : ByteBuffer) : ofBigEndian bytes < 256 ^ bytes.length := by
  rw [← toBigEndian_ofBigEndian bytes, ofBigEndian_toBigEndian, length_toBigEndian]
  exact Nat.mod_lt _ (by positivity)

theorem toBigEndian_succ (n value : Nat) : toBigEndian (n + 1) value =
    UInt8.ofNat (value / 256 ^ n) :: toBigEndian n value := by
  induction n generalizing value with
  | zero => rw [toBigEndian, pow_zero, Nat.div_one]; rfl
  | succ n ih =>
    rw [toBigEndian, ih, Nat.div_div_eq_div_mul, ← pow_succ', List.cons_append]
    rfl

theorem toBigEndian_mod (n value : Nat) :
  toBigEndian n (value % 256 ^ n) = toBigEndian n value := by
  have h := toBigEndian_ofBigEndian (toBigEndian n value)
  rwa [ofBigEndian_toBigEndian, length_toBigEndian] at h

namespace InputArchive

theorem recognizes_octets (n : Nat) : Recognizes (loadOctets n) fun v w => w = v.toList :=
  Recognizes.octets _ n

theorem recognizes_binary (n : Nat) :
  Recognizes (loadBinary n) fun bytes w => w = bytes ∧ bytes.length = n := by
  refine ((recognizes_octets n).map List.Vector.toList).congr fun bytes w => ?_
  constructor
  · rintro ⟨v, rfl, rfl⟩
    exact ⟨rfl, v.toList_length⟩
  · rintro ⟨rfl, hl⟩
    exact ⟨⟨w, hl⟩, rfl, rfl⟩

theorem recognizes_byte : Recognizes loadByte fun byte w => w = [byte] := by
  refine ((recognizes_octets 1).map List.Vector.head).congr fun byte w => ?_
  constructor
  · rintro ⟨⟨list, hl⟩, rfl, rfl⟩
    obtain ⟨byte, rfl⟩ := List.length_eq_one_iff.1 hl
    rfl
  · rintro rfl
    exact ⟨⟨[byte], rfl⟩, rfl, rfl⟩

/-- A number loaded from `n` octets, where `ofNat` and `toNat` belong to a type
of numbers that has `n` octets. -/
theorem recognizes_number {τ : Type} {n : Nat} {ofNat : Nat → τ}
  {toNat : τ → Nat} (hof : ∀ a, ofNat (toNat a) = a)
  (hto : ∀ k < 256 ^ n, toNat (ofNat k) = k) (hlt : ∀ a, toNat a < 256 ^ n) :
  Recognizes ((fun bytes => ofNat (ofBigEndian bytes)) <$> loadBinary n)
    fun a w => w = toBigEndian n (toNat a) := by
  refine ((recognizes_binary n).map _).congr fun a w => ?_
  constructor
  · rintro ⟨bytes, ⟨rfl, rfl⟩, rfl⟩
    rw [hto _ (ofBigEndian_lt w), toBigEndian_ofBigEndian]
  rintro rfl
  refine ⟨_, ⟨rfl, length_toBigEndian n _⟩, ?_⟩
  dsimp only
  rw [ofBigEndian_toBigEndian, Nat.mod_eq_of_lt (hlt a), hof]

theorem recognizes_uint16 : Recognizes loadUInt16 fun x w => w = toBigEndian 2 x.toNat :=
  recognizes_number (fun _ => UInt16.ofNat_toNat)
    (fun _ hk => UInt16.toNat_ofNat_of_lt' hk) UInt16.toNat_lt

theorem recognizes_uint32 : Recognizes loadUInt32 fun x w => w = toBigEndian 4 x.toNat :=
  recognizes_number (fun _ => UInt32.ofNat_toNat)
    (fun _ hk => UInt32.toNat_ofNat_of_lt' hk) UInt32.toNat_lt

theorem recognizes_uint64 : Recognizes loadUInt64 fun x w => w = toBigEndian 8 x.toNat :=
  recognizes_number (fun _ => UInt64.ofNat_toNat)
    (fun _ hk => UInt64.toNat_ofNat_of_lt' hk) UInt64.toNat_lt

section Tagged

variable {τ α : Type} {code : τ → UInt8} {ofCode : UInt8 → Option τ} {d : UInt8 → Deserialize α}

theorem audits_byType (W : τ → Input ErrorCode → Prop) (F E : τ → Format α)
  (hof : ∀ type, ofCode (code type) = some type)
  (hc : ∀ {byte type}, ofCode byte = some type → byte = code type)
  (hs : ∀ type, Audits (d (code type)) (W type) (F type) (E type))
  (hn : ∀ byte, ofCode byte = none → Recognizes (d byte) Format.empty) :
  Audits (loadByte >>= d) (After loadByte fun byte input =>
      ∀ type, ofCode byte = some type → W type input)
    (fun a w => ∃ type v, F type a v ∧ w = code type :: v)
    (fun a w => ∃ type v, E type a v ∧ w = code type :: v) := by
  have hb : ∀ byte, Audits (d byte) (fun input => ∀ type, ofCode byte = some type → W type input)
      (fun a w => ∃ type, ofCode byte = some type ∧ F type a w)
      (fun a w => ∃ type, ofCode byte = some type ∧ E type a w) := by
    intro byte
    cases ht : ofCode byte with
    | none =>
      have hemp : ∀ (G : τ → Format α) a w,
          Format.empty a w ↔ ∃ type, none = some type ∧ G type a w :=
        fun G a w => iff_of_false id fun ⟨_, h, _⟩ => nomatch h
      refine ((Audits.of_recognizes (hn byte ht)).congr (hemp F)
        (hemp E)).congr_demand fun input => iff_of_true ?_ trivial
      intro type h
      cases h
    | some type =>
      obtain rfl := hc ht
      have hk : ∀ (G : τ → Format α) a w, G type a w ↔
          ∃ type', some type = some type' ∧ G type' a w := by
        intro G a w
        constructor
        · intro hw
          exact ⟨type, rfl, hw⟩
        · rintro ⟨_, ⟨⟩, hw⟩
          exact hw
      refine ((hs type).congr (hk F) (hk E)).congr_demand fun input => ?_
      constructor
      · intro h
        exact h type rfl
      · intro h type' ht'
        cases ht'
        exact h
  have hshp : ∀ (G : τ → Format α) a w, Format.bind (fun byte w => w = [byte])
        (fun byte a w => ∃ type, ofCode byte = some type ∧ G type a w) a w ↔
      ∃ type v, G type a v ∧ w = code type :: v := by
    intro G a w
    constructor
    · rintro ⟨byte, _, v, rfl, ⟨type, ht, hv⟩, rfl⟩
      obtain rfl := hc ht
      exact ⟨type, v, hv, rfl⟩
    · rintro ⟨type, v, hv, rfl⟩
      exact ⟨code type, _, v, rfl, ⟨type, hof type, hv⟩, rfl⟩
  exact (Audits.bind_right recognizes_byte hb).congr (hshp F) (hshp E)

theorem audits_tagged (getType : α → τ) (W : τ → Input ErrorCode → Prop)
  (F E : Format α) (hof : ∀ type, ofCode (code type) = some type)
  (hc : ∀ {byte type}, ofCode byte = some type → byte = code type)
  (hs : ∀ type, Audits (d (code type)) (W type) (fun a w => getType a = type ∧ F a w)
    (fun a w => getType a = type ∧ E a w))
  (hn : ∀ byte, ofCode byte = none → Recognizes (d byte) Format.empty) :
  Audits (loadByte >>= d) (After loadByte fun byte input =>
      ∀ type, ofCode byte = some type → W type input)
    (fun a w => ∃ v, F a v ∧ w = code (getType a) :: v)
    (fun a w => ∃ v, E a v ∧ w = code (getType a) :: v) := by
  have hshp : ∀ (G : Format α) a w, (∃ type v, (getType a = type ∧ G a v) ∧ w = code type :: v) ↔
        ∃ v, G a v ∧ w = code (getType a) :: v := by
    intro G a w
    constructor
    · rintro ⟨_, v, ⟨rfl, hv⟩, rfl⟩
      exact ⟨v, hv, rfl⟩
    · rintro ⟨v, hv, rfl⟩
      exact ⟨getType a, v, ⟨rfl, hv⟩, rfl⟩
  exact (audits_byType W _ _ hof hc hs hn).congr (hshp F) (hshp E)

theorem recognizes_tagged (getType : α → τ) (F : Format α)
  (hof : ∀ type, ofCode (code type) = some type)
  (hc : ∀ {byte type}, ofCode byte = some type → byte = code type)
  (hs : ∀ type, Recognizes (d (code type)) fun a w => getType a = type ∧ F a w)
  (hn : ∀ byte, ofCode byte = none → Recognizes (d byte) Format.empty) :
  Recognizes (loadByte >>= d) fun a w => ∃ v, F a v ∧ w = code (getType a) :: v :=
  (audits_tagged getType (fun _ _ => True) F F hof hc
    (fun type => .of_recognizes (hs type)) hn).recognizes

end Tagged

theorem quiet_octets (n : Nat) : Quiet (loadOctets n) := Quiet.octets _ n

theorem quiet_binary (n : Nat) : Quiet (loadBinary n) := (quiet_octets n).map _

theorem quiet_byte : Quiet loadByte := (quiet_octets 1).map _

theorem quiet_uint16 : Quiet loadUInt16 := (quiet_binary 2).map _

theorem quiet_uint32 : Quiet loadUInt32 := (quiet_binary 4).map _

end InputArchive

end Vanetza
