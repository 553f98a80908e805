import Vanetza.Common.Serialization
import Vanetza.Security.V2.LengthCoding

/-!
# How lengths are written

A number is announced by as many leading one bits as octets follow the first one, a zero bit, and
the number in what is left. Up to eight octets can be used for that, and nothing forces a writer to
use as few as possible.
-/

namespace Vanetza.Security.V2

open InputArchive Lib Lib.Decoder List

theorem groups_le_iff {fuel m : Nat} (hp : 1 ≤ m) (hm : m ≤ fuel) (n : Nat) :
  lengthCodingSize.groups fuel n ≤ m ↔ n < 128 ^ m := by
  induction fuel generalizing m n with
  | zero => omega
  | succ fuel ih =>
    obtain ⟨m, rfl⟩ : ∃ j, m = j + 1 := ⟨m - 1, by omega⟩
    rw [lengthCodingSize.groups]
    by_cases hn : 128 ≤ n
    · rw [if_pos hn, Nat.add_le_add_iff_right]
      cases m with
      | zero =>
        have ho : ∀ k, 1 ≤ lengthCodingSize.groups fuel k := by
          intro k
          unfold lengthCodingSize.groups
          split
          · exact le_rfl
          · split <;> omega
        have := ho (n / 128)
        rw [zero_add, pow_one]
        omega
      | succ m => rw [ih (by omega) (by omega), Nat.div_lt_iff_lt_mul (by decide), ← pow_succ]
    · have hpow : 128 ≤ 128 ^ (m + 1) :=
        Nat.le_self_pow (Nat.succ_ne_zero m) 128
      rw [if_neg hn]
      omega

theorem lengthCodingSize_le_iff {m : Nat} (hp : 1 ≤ m) (hm : m ≤ 10)
  (n : Nat) : lengthCodingSize n ≤ m ↔ n < 128 ^ m :=
  groups_le_iff hp hm n

theorem lengthCodingSize_pos (n : Nat) : 1 ≤ lengthCodingSize n := by
  unfold lengthCodingSize lengthCodingSize.groups
  split <;> omega

theorem lengthCodingSize_mono {n n' : Nat} (h : n ≤ n') (h' : n' < 128 ^ 10) :
  lengthCodingSize n ≤ lengthCodingSize n' := by
  have hle := (lengthCodingSize_le_iff (by decide) le_rfl n').2 h'
  have hlt := (lengthCodingSize_le_iff (lengthCodingSize_pos n') hle n').1 le_rfl
  exact (lengthCodingSize_le_iff (lengthCodingSize_pos n') hle n).2 (by omega)

theorem lengthCodingSize_one_add {n : Nat} (hn : n < 2 ^ 56) (hd : 8 ∣ n) :
  lengthCodingSize (1 + n) = lengthCodingSize n := by
  have hle : lengthCodingSize n ≤ 10 := (lengthCodingSize_le_iff (by decide) le_rfl n).2 (by omega)
  have hp := lengthCodingSize_pos n
  have hlt := (lengthCodingSize_le_iff hp hle n).1 le_rfl
  have hpow : 8 ∣ 128 ^ lengthCodingSize n :=
    Dvd.dvd.trans (by decide) (dvd_pow_self 128 (by omega))
  apply le_antisymm
  · refine (lengthCodingSize_le_iff hp hle (1 + n)).2 ?_
    omega
  · exact lengthCodingSize_mono (by omega) (by omega)

def Announces (n : Nat) (w : ByteBuffer) : Prop :=
  ∃ k ≤ 7, n < 128 ^ (k + 1) ∧ w = toBigEndian (k + 1) (n + (2 ^ 8 - 2 ^ (8 - k)) * 256 ^ k)

theorem Announces.lt {n : Nat} {w : ByteBuffer} (h : Announces n w) : n < 2 ^ 56 := by
  obtain ⟨k, hk, hn, -⟩ := h
  have hp : 128 ^ (k + 1) ≤ 128 ^ 8 := Nat.pow_le_pow_right (by decide) (by omega)
  omega

theorem Announces.size_le {n : Nat} {w : ByteBuffer} (h : Announces n w) :
  lengthCodingSize n ≤ w.length := by
  obtain ⟨k, hk, hn, rfl⟩ := h
  rw [length_toBigEndian]
  exact (lengthCodingSize_le_iff (by omega) (by omega) n).2 hn

theorem countLeadingOnes_spec (byte : UInt8) :
  countLeadingOnes byte ≤ 8 ∧ (countLeadingOnes byte ≠ 8 → 2 ^ 8 - 2 ^ (8 - countLeadingOnes byte) +
      (byte &&& UInt8.ofNat (2 ^ (8 - countLeadingOnes byte) - 1)).toNat = byte.toNat ∧
    (byte &&& UInt8.ofNat (2 ^ (8 - countLeadingOnes byte) - 1)).toNat <
      2 ^ (7 - countLeadingOnes byte)) := by
  have ha : ∀ n : Fin 256, countLeadingOnes (UInt8.ofNat n.val) ≤ 8 ∧
      (countLeadingOnes (UInt8.ofNat n.val) ≠ 8 →
        2 ^ 8 - 2 ^ (8 - countLeadingOnes (UInt8.ofNat n.val)) + (UInt8.ofNat n.val &&& UInt8.ofNat
            (2 ^ (8 - countLeadingOnes (UInt8.ofNat n.val)) - 1)).toNat =
            (UInt8.ofNat n.val).toNat ∧ (UInt8.ofNat n.val &&& UInt8.ofNat
          (2 ^ (8 - countLeadingOnes (UInt8.ofNat n.val)) - 1)).toNat <
          2 ^ (7 - countLeadingOnes (UInt8.ofNat n.val))) := by
    decide +kernel
  have h := ha ⟨byte.toNat, byte.toNat_lt⟩
  rwa [UInt8.ofNat_toNat] at h

theorem countLeadingOnes_of_upper {k upper : Nat} (hk : k ≤ 7) (hup : upper < 2 ^ (7 - k)) :
  countLeadingOnes (UInt8.ofNat (2 ^ 8 - 2 ^ (8 - k) + upper)) = k ∧
    (UInt8.ofNat (2 ^ 8 - 2 ^ (8 - k) + upper) &&&
      UInt8.ofNat (2 ^ (8 - k) - 1)).toNat = upper := by
  have ha : ∀ k : Fin 8, ∀ upper : Fin 128, upper.val < 2 ^ (7 - k.val) →
      countLeadingOnes (UInt8.ofNat (2 ^ 8 - 2 ^ (8 - k.val) + upper.val)) = k.val ∧
        (UInt8.ofNat (2 ^ 8 - 2 ^ (8 - k.val) + upper.val) &&&
          UInt8.ofNat (2 ^ (8 - k.val) - 1)).toNat = upper.val := by
    decide +kernel
  have hlt : 2 ^ (7 - k) ≤ 2 ^ 7 := Nat.pow_le_pow_right (by decide) (by omega)
  exact ha ⟨k, by omega⟩ ⟨upper, by omega⟩ hup

theorem foldl_bigEndian (bytes : ByteBuffer) (n : Nat) :
  bytes.foldl (fun length byte => length * 256 + byte.toNat) n =
    n * 256 ^ bytes.length + ofBigEndian bytes := by
  induction bytes using reverseRecOn with
  | nil => rw [length_nil, pow_zero, Nat.mul_one]; rfl
  | append_singleton bytes last ih =>
    rw [foldl_append, ih, ofBigEndian_append, length_append, length_singleton, pow_succ]
    show (_ + _) * 256 + _ = _
    ring

theorem decodeLength_cons {first : UInt8} {more : ByteBuffer}
  (hm : more.length = countLeadingOnes first) (hf : countLeadingOnes first ≠ 8) :
  decodeLength (first :: more) = (more.length + 1,
    (first &&& UInt8.ofNat (2 ^ (8 - countLeadingOnes first) - 1)).toNat *
      256 ^ more.length + ofBigEndian more) := by
  have hle := (countLeadingOnes_spec first).1
  rw [decodeLength]
  dsimp only
  rw [if_neg (by omega), if_pos hm.ge, ← hm, take_length, foldl_bigEndian]

theorem pow_split {k : Nat} (hk : k ≤ 7) : 2 ^ (7 - k) * 256 ^ k = 128 ^ (k + 1) := by
  interval_cases k <;> norm_num

theorem announces_cons {first : UInt8} {more : ByteBuffer}
  (hm : more.length = countLeadingOnes first) (hf : countLeadingOnes first ≠ 8) :
  Announces (decodeLength (first :: more)).2 (first :: more) := by
  obtain ⟨hle, hs⟩ := countLeadingOnes_spec first
  obtain ⟨hsum, hup⟩ := hs hf
  have hl := ofBigEndian_lt more
  rw [← hm] at hle hsum hup hf
  have hk : more.length ≤ 7 := by omega
  rw [decodeLength_cons hm (by rwa [← hm]), ← hm]
  refine ⟨more.length, hk, ?_, ?_⟩
  · rw [← pow_split hk]
    dsimp only
    rw [Nat.mul_comm]
    exact Nat.mul_add_lt_mul_of_lt_of_lt hup hl
  have hv : ofBigEndian (first :: more) = first.toNat * 256 ^ more.length + ofBigEndian more := by
    rw [← foldl_bigEndian, ofBigEndian, foldl_cons, Nat.zero_mul, Nat.zero_add]
  have hw := toBigEndian_ofBigEndian (first :: more)
  rw [hv, ← hsum, Nat.add_mul] at hw
  rw [← hw, length_cons]
  congr 1
  omega

theorem Announces.eq_cons {n : Nat} {w : ByteBuffer} (h : Announces n w) :
  ∃ first more, w = first :: more ∧
    more.length = countLeadingOnes first ∧ countLeadingOnes first ≠ 8 ∧
    (decodeLength (first :: more)).2 = n := by
  obtain ⟨k, hk, hn, rfl⟩ := h
  have hp : 0 < 256 ^ k := by positivity
  have hd : (n + (2 ^ 8 - 2 ^ (8 - k)) * 256 ^ k) / 256 ^ k =
      2 ^ 8 - 2 ^ (8 - k) + n / 256 ^ k := by
    rw [Nat.add_mul_div_right _ _ hp, Nat.add_comm]
  have hup : n / 256 ^ k < 2 ^ (7 - k) := by
    rw [Nat.div_lt_iff_lt_mul hp, pow_split hk]
    exact hn
  obtain ⟨ho, hm⟩ := countLeadingOnes_of_upper hk hup
  have hl : (toBigEndian k (n + (2 ^ 8 - 2 ^ (8 - k)) * 256 ^ k)).length =
      countLeadingOnes (UInt8.ofNat (2 ^ 8 - 2 ^ (8 - k) + n / 256 ^ k)) := by
    rw [length_toBigEndian, ho]
  refine ⟨_, _, by rw [toBigEndian_succ, hd], hl, by omega, ?_⟩
  rw [decodeLength_cons hl (by omega), ho, hm, length_toBigEndian,
    ofBigEndian_toBigEndian, Nat.add_mul_mod_self_right]
  exact Nat.div_add_mod' n (256 ^ k)

theorem recognizes_length : Recognizes deserializeLength Announces := by
  have h : Recognizes deserializeLength _ :=
    recognizes_byte.bind_written fun first =>
      (recognizes_binary (countLeadingOnes first)).bind fun more =>
        Recognizes.ite (.pure (decodeLength (first :: more)).2)
          ((Recognizes.note _).bind_empty fun _ => .pure 0)
  refine h.congr fun n w => ?_
  constructor
  · rintro ⟨first, _, ⟨more, _, _, ⟨rfl, hm⟩, ⟨hp, rfl, rfl⟩, rfl⟩, rfl⟩
    have hf : countLeadingOnes first ≠ 8 := by
      intro hf
      rw [decodeLength] at hp
      simp [hf] at hp
    rw [append_nil]
    exact announces_cons hm hf
  · intro hn
    obtain ⟨first, more, rfl, hm, hf, rfl⟩ := hn.eq_cons
    have hp : (decodeLength (first :: more)).1 ≠ 0 := by
      rw [decodeLength_cons hm hf]
      exact Nat.succ_ne_zero _
    refine ⟨first, _, ⟨more, _, [], ⟨rfl, hm⟩, ⟨hp, rfl, rfl⟩, rfl⟩, ?_⟩
    rw [append_nil]
    rfl

theorem lengthInfo_eq {fuel n : Nat} (hn : n < 256 ^ fuel) (info : ByteBuffer) :
  ∃ j ≤ fuel, lengthInfo fuel n info = toBigEndian j n ++ info ∧
    n < 256 ^ j ∧ ∀ i < j, 256 ^ i ≤ n := by
  induction fuel generalizing n info with
  | zero => exact ⟨0, le_rfl, rfl, hn, fun i hi => by omega⟩
  | succ fuel ih =>
    rw [lengthInfo]
    by_cases h0 : n = 0
    · rw [if_neg (not_not.2 h0)]
      exact ⟨0, Nat.zero_le _, rfl, by omega, fun i hi => by omega⟩
    rw [if_pos h0]
    rw [pow_succ] at hn
    have hd : n / 256 < 256 ^ fuel := by omega
    obtain ⟨j, hj, heq, hlt, hge⟩ := ih hd (UInt8.ofNat n :: info)
    refine ⟨j + 1, by omega, ?_, ?_, ?_⟩
    · rw [heq, toBigEndian, append_assoc, singleton_append]
    · rw [pow_succ]
      exact (Nat.div_lt_iff_lt_mul (by decide)).1 hlt
    intro i hi
    cases i with
    | zero => omega
    | succ i =>
      have := hge i (by omega)
      rw [pow_succ]
      omega

theorem front_spec {i front : Nat} (hi : i ≤ 6) (hfr : front < 256) :
  (2 ^ (8 - (i + 1)) ≤ front →
    UInt8.ofNat front &&& ~~~(~~~((1 <<< UInt8.ofNat (8 - (i + 1))) - 1)) ≠ UInt8.ofNat front) ∧
  (front < 2 ^ (8 - (i + 1)) →
    UInt8.ofNat front &&& ~~~(~~~((1 <<< UInt8.ofNat (8 - (i + 1))) - 1)) = UInt8.ofNat front ∧
    UInt8.ofNat front ||| (~~~((1 <<< UInt8.ofNat (8 - (i + 1))) - 1)) <<< 1 =
      UInt8.ofNat (front + (2 ^ 8 - 2 ^ (8 - i)))) ∧
  ~~~((1 <<< UInt8.ofNat (8 - (i + 1))) - 1) = UInt8.ofNat (2 ^ 8 - 2 ^ (8 - (i + 1))) := by
  have ha : ∀ (i : Fin 7) (front : Fin 256), (2 ^ (8 - (i.val + 1)) ≤ front.val →
        UInt8.ofNat front &&& ~~~(~~~((1 <<< UInt8.ofNat (8 - (i.val + 1))) - 1)) ≠
          UInt8.ofNat front) ∧ (front.val < 2 ^ (8 - (i.val + 1)) → UInt8.ofNat front &&&
            ~~~(~~~((1 <<< UInt8.ofNat (8 - (i.val + 1))) - 1)) = UInt8.ofNat front ∧
        UInt8.ofNat front ||| (~~~((1 <<< UInt8.ofNat (8 - (i.val + 1))) - 1)) <<< 1 =
          UInt8.ofNat (front.val + (2 ^ 8 - 2 ^ (8 - i.val)))) ∧
      ~~~((1 <<< UInt8.ofNat (8 - (i.val + 1))) - 1) =
        UInt8.ofNat (2 ^ 8 - 2 ^ (8 - (i.val + 1))) := by
    decide +kernel
  exact ha ⟨i, by omega⟩ ⟨front, hfr⟩

theorem toBigEndian_add_mul (k n m : Nat) : toBigEndian k (n + m * 256 ^ k) = toBigEndian k n := by
  rw [← toBigEndian_mod, Nat.add_mul_mod_self_right, toBigEndian_mod]

theorem encodeLength_eq {n : Nat} (hn : n < 2 ^ 56) : ∃ k ≤ 7, encodeLength n =
      toBigEndian (k + 1) (n + (2 ^ 8 - 2 ^ (8 - k)) * 256 ^ k) ∧
    n < 128 ^ (k + 1) ∧ (k = 0 ∨ 128 ^ k ≤ n) := by
  obtain ⟨j, hj8, hin, hlt, hge⟩ := @lengthInfo_eq 8 n (by omega) []
  have hj7 : j ≤ 7 := by
    by_contra h
    have := hge 7 (by omega)
    omega
  rw [append_nil] at hin
  unfold encodeLength
  rw [hin]
  cases j with
  | zero =>
    obtain rfl : n = 0 := by omega
    exact ⟨0, by decide, by decide, by decide, .inl rfl⟩
  | succ i =>
    have hp : 0 < 256 ^ i := by positivity
    have hfr : n / 256 ^ i < 256 := by
      rw [Nat.div_lt_iff_lt_mul hp, ← pow_succ']
      exact hlt
    obtain ⟨hw, hnar, hm⟩ := front_spec (Nat.le_of_succ_le_succ hj7) hfr
    have hpow : 2 ^ (8 - (i + 1)) * 256 ^ i = 128 ^ (i + 1) := by
      rw [← pow_split (by omega : i ≤ 7)]
      congr 2
      omega
    have hno : (i + 1) / 8 = 0 := by omega
    rw [toBigEndian_succ]
    dsimp only
    rw [length_toBigEndian, hno, replicate_zero, nil_append]
    by_cases hc : 2 ^ (8 - (i + 1)) ≤ n / 256 ^ i
    · rw [if_pos (hw hc)]
      refine ⟨i + 1, hj7, ?_, ?_, .inr ?_⟩
      · rw [toBigEndian_succ (i + 1), toBigEndian_add_mul, toBigEndian_succ i,
          Nat.add_mul_div_right _ _ (by positivity), Nat.div_eq_of_lt hlt, Nat.zero_add, hm]
      · have : 256 ^ (i + 1) ≤ 128 ^ (i + 1 + 1) := by
          rw [← pow_split hj7]
          exact Nat.le_mul_of_pos_left _ (by positivity)
        omega
      · rw [← hpow]
        exact (Nat.le_div_iff_mul_le hp).1 hc
    · have hc' : n / 256 ^ i < 2 ^ (8 - (i + 1)) := by omega
      obtain ⟨hf, hor⟩ := hnar hc'
      rw [if_neg (not_not.2 hf), hor]
      refine ⟨i, by omega, ?_, ?_, ?_⟩
      · rw [toBigEndian_succ, toBigEndian_add_mul, Nat.add_mul_div_right _ _ hp]
      · rw [← hpow]
        exact (Nat.div_lt_iff_lt_mul hp).1 hc'
      cases i with
      | zero => exact .inl rfl
      | succ i =>
        have hle : 128 ^ (i + 1) ≤ 256 ^ (i + 1) := Nat.pow_le_pow_left (by decide) _
        exact .inr (hle.trans (hge (i + 1) (by omega)))

theorem announces_encodeLength {n : Nat} (hn : n < 2 ^ 56) : Announces n (encodeLength n) := by
  obtain ⟨k, hk, heq, hlt, -⟩ := encodeLength_eq hn
  exact ⟨k, hk, hlt, heq⟩

theorem length_encodeLength {n : Nat} (hn : n < 2 ^ 56) :
  (encodeLength n).length = lengthCodingSize n := by
  obtain ⟨k, hk, heq, hlt, hge⟩ := encodeLength_eq hn
  have hle : lengthCodingSize n ≤ k + 1 := (lengthCodingSize_le_iff (by omega) (by omega) n).2 hlt
  rw [heq, length_toBigEndian]
  obtain rfl | hge := hge
  · have := lengthCodingSize_pos n
    omega
  by_contra hne
  have hp : 1 ≤ k := by
    have := lengthCodingSize_pos n
    omega
  have := (lengthCodingSize_le_iff hp (by omega) n).1 (by omega)
  omega

/-! ## Lists

How widely a length may be announced is left open as a rule on the number and
the octets that announce it, and so is a demand on the calls that read the
elements, on the size they return and the octets they take. -/

def number (rule : Nat → Nat → Prop) : Format Nat := fun n w => Announces n w ∧ rule n w.length

section List

variable {α : Type}

def sized (getSize : α → Nat) (F : Format α) : Format (α × Nat) :=
  fun out w => ∃ a, F a w ∧ out = (a, getSize a)

theorem sized_written (getSize : α → Nat) {F : Format α} {a : α}
  {w : ByteBuffer} (h : F a w) : sized getSize F (a, getSize a) w :=
  ⟨a, h, rfl⟩

def elements (call : Nat → Nat → Prop) (getSize : α → Nat) (F : Format α) : Format (List α) :=
  Format.each fun a w => F a w ∧ call (getSize a) w.length

def listOf (rule call : Nat → Nat → Prop) (getSize : α → Nat) (F : Format α) : Format (List α) :=
  fun list w => ∃ u v, number rule (getSizeList getSize list) u ∧
    getSizeList getSize list ≤ 4096 ∧ elements call getSize F list v ∧
    w = u ++ v

def elementsMeet (call : Nat → Nat → Prop) (deserialize : Deserialize (α × Nat))
  (inside : Input ErrorCode → Prop) : Nat → Nat → Input ErrorCode → Prop
  | 0, _, _ => True
  | fuel + 1, remainder, input => remainder = 0 ∨
      ((inside input ∧ Takes deserialize (fun out => call out.2) input) ∧
        After deserialize (fun out => elementsMeet call deserialize inside fuel
          (remainder - out.2)) input)

def listMeets (call : Nat → Nat → Prop) (deserialize : Deserialize (α × Nat))
  (inside : Input ErrorCode → Prop) : Input ErrorCode → Prop :=
  After deserializeLength fun length =>
    elementsMeet call deserialize inside length length

variable {deserialize : Deserialize (α × Nat)} {inside : Input ErrorCode → Prop}
  {getSize : α → Nat} {F E : Format α} {call : Nat → Nat → Prop}

theorem getSizeList_nil : getSizeList getSize [] = 0 := rfl

theorem getSizeList_cons {a : α} {list : List α} :
  getSizeList getSize (a :: list) = getSize a + getSizeList getSize list :=
  List.sum_cons

theorem elements_nil_iff (hp : ∀ a, 1 ≤ getSize a) {list : List α} {w : ByteBuffer} :
  Format.pure [] list w ↔ elements call getSize F list w ∧ getSizeList getSize list = 0 := by
  cases list with
  | nil =>
    rw [elements, Format.each_nil]
    exact ⟨fun h => ⟨h.2, rfl⟩, fun h => ⟨rfl, h.1⟩⟩
  | cons a list =>
    have := hp a
    rw [getSizeList_cons]
    constructor
    · rintro ⟨⟨⟩, _⟩
    · rintro ⟨_, h⟩
      omega

theorem audits_tail {fuel rem size : Nat} (elt : α)
  {W : Input ErrorCode → Prop} {F E : Format (List α)}
  (hd : Audits (deserializeElements deserialize fuel (rem - size)) W F E) :
  Audits (do
    if size ≤ rem ∧ (← InputArchive.isGood) then
      return elt :: (← deserializeElements deserialize fuel (rem - size))
    else
      fail .constraintViolation
      return []) W
    (fun list w => size ≤ rem ∧ ∃ tail, list = elt :: tail ∧ F tail w)
    (fun list w => size ≤ rem ∧ ∃ tail, list = elt :: tail ∧ E tail w) := by
  have h := Audits.bind_right Recognizes.isGood fun good =>
    Audits.ite (c := size ≤ rem ∧ good = true)
      (hd.bind_left fun tail => Recognizes.pure (elt :: tail))
      ((Recognizes.note ErrorCode.constraintViolation).bind_empty fun _ => .pure [])
  have hshp : ∀ G : Format (List α), ∀ list w, (Format.pure true).bind (fun good list w =>
          (size ≤ rem ∧ good = true) ∧
            G.bind (fun tail => Format.pure (elt :: tail)) list w) list w ↔
        size ≤ rem ∧ ∃ tail, list = elt :: tail ∧ G tail w := by
    intro G list w
    constructor
    · rintro ⟨_, _, _, ⟨rfl, rfl⟩, ⟨hs, tail, v, _, hv, ⟨rfl, rfl⟩, rfl⟩, rfl⟩
      rw [append_nil, nil_append]
      exact ⟨hs.1, tail, rfl, hv⟩
    · rintro ⟨hs, tail, rfl, hw⟩
      exact ⟨true, [], w, ⟨rfl, rfl⟩, ⟨⟨hs, rfl⟩, tail, w, [], hw,
        ⟨rfl, rfl⟩, (append_nil w).symm⟩, rfl⟩
  refine (h.congr (hshp F) (hshp E)).congr_demand fun input => ?_
  constructor
  · rintro hW good output ⟨⟩
    exact hW
  · intro hW
    exact hW _ _ rfl

theorem sticky_tail {fuel rem : Nat} {out : α × Nat}
  (hd : Sticky (deserializeElements deserialize fuel (rem - out.2))) :
  Sticky (do
    if out.2 ≤ rem ∧ (← InputArchive.isGood) then
      return out.1 :: (← deserializeElements deserialize fuel (rem - out.2))
    else
      fail .constraintViolation
      return []) := by
  refine Sticky.isGood.bind fun good => ?_
  split
  · exact hd.bind fun _ => .pure _
  · exact (Sticky.note _).bind fun _ => .pure _

theorem sticky_elements (hd : Sticky deserialize) (fuel rem : Nat) :
  Sticky (deserializeElements deserialize fuel rem) := by
  induction fuel generalizing rem with
  | zero => exact .pure []
  | succ fuel ih =>
    rw [deserializeElements]
    split
    · exact .pure []
    · exact hd.bind fun out => sticky_tail (ih _)

theorem elements_step_iff (call : Nat → Nat → Prop) {G : Format α}
  {remainder : Nat} (hr : remainder ≠ 0) (list : List α) (w : ByteBuffer) :
  Format.bind (fun out w => sized getSize G out w ∧ call out.2 w.length)
    (fun out list w => out.2 ≤ remainder ∧ ∃ tail, list = out.1 :: tail ∧
      elements call getSize G tail w ∧ getSizeList getSize tail = remainder - out.2) list w ↔
  elements call getSize G list w ∧ getSizeList getSize list = remainder := by
  constructor
  · rintro ⟨_, u, v, ⟨⟨a, hu, rfl⟩, hc⟩, ⟨hle, tail, rfl, hv, ht⟩, rfl⟩
    refine ⟨Format.each_cons.2 ⟨u, v, ⟨hu, hc⟩, hv, rfl⟩, ?_⟩
    rw [getSizeList_cons, ht]
    exact Nat.add_sub_cancel' hle
  rintro ⟨hw, hs⟩
  cases list with
  | nil => exact absurd hs.symm hr
  | cons a tail =>
    obtain ⟨u, v, ⟨hu, hc⟩, hv, rfl⟩ := Format.each_cons.1 hw
    rw [getSizeList_cons] at hs
    exact ⟨(a, getSize a), u, v, ⟨⟨a, hu, rfl⟩, hc⟩,
      ⟨by dsimp only; omega, tail, rfl, hv, by dsimp only; omega⟩, rfl⟩

theorem audits_elements (call : Nat → Nat → Prop)
  (hd : Audits deserialize inside (sized getSize F) (sized getSize E))
  (hp : ∀ a, 1 ≤ getSize a) {fuel rem : Nat} (hf : rem ≤ fuel) :
  Audits (deserializeElements deserialize fuel rem) (elementsMeet call deserialize inside fuel rem)
    (fun list w => elements (fun _ _ => True) getSize F list w ∧ getSizeList getSize list = rem)
    (fun list w => elements call getSize E list w ∧ getSizeList getSize list = rem) := by
  have hend : ∀ fuel, Audits (pure [] : Deserialize (List α))
      (elementsMeet call deserialize inside fuel 0)
      (fun list w => elements (fun _ _ => True) getSize F list w ∧ getSizeList getSize list = 0)
      (fun list w => elements call getSize E list w ∧ getSizeList getSize list = 0) := by
    intro fuel
    refine ((Audits.of_recognizes (Recognizes.pure [])).congr (fun _ _ => elements_nil_iff hp)
      (fun _ _ => elements_nil_iff hp)).congr_demand fun input => iff_of_true ?_ trivial
    cases fuel with
    | zero => trivial
    | succ fuel => exact .inl rfl
  induction fuel generalizing rem with
  | zero =>
    obtain rfl : rem = 0 := by omega
    exact hend 0
  | succ fuel ih =>
    rw [deserializeElements]
    by_cases h0 : rem = 0
    · subst h0
      exact hend (fuel + 1)
    rw [if_neg h0]
    have hc := (hd.takes (Q := fun out => call out.2)).congr
      (fun _ _ => (and_iff_left trivial).symm) (fun _ _ => Iff.rfl)
    have hs : ∀ (out : α × Nat) w, sized getSize F out w ∧ True → 1 ≤ out.2 := by
      rintro out w ⟨⟨a, -, rfl⟩, -⟩
      exact hp a
    have hstep := hc.bind_of hs (fun out ho => audits_tail out.1 (@ih (rem - out.2) (by omega)))
      (fun out => sticky_tail (sticky_elements hd.recognizes.sticky _ _))
    exact (hstep.congr (elements_step_iff (fun _ _ => True) h0)
      (elements_step_iff call h0)).congr_demand fun input =>
        or_iff_right h0

theorem audits_list (call : Nat → Nat → Prop)
  (hd : Audits deserialize inside (sized getSize F) (sized getSize E)) (hp : ∀ a, 1 ≤ getSize a) :
  Audits (deserializeList deserialize) (listMeets call deserialize inside)
    (sized (getSizeList getSize) (listOf (fun _ _ => True) (fun _ _ => True) getSize F))
    (sized (getSizeList getSize) (listOf (fun _ _ => True) call getSize E)) := by
  have h := Audits.bind_right recognizes_length fun length =>
    Audits.ite (c := length ≤ 4096) ((audits_elements call hd hp (le_refl length)).bind_left
        fun list => Recognizes.pure (list, length))
      ((Recognizes.note ErrorCode.excessiveLength).bind_empty fun _ => .pure ([], length))
  have hs : ∀ (call : Nat → Nat → Prop) (G : Format α) out w,
      Format.bind Announces (fun length out w => length ≤ 4096 ∧
        Format.bind (fun list w => elements call getSize G list w ∧
          getSizeList getSize list = length) (fun list => Format.pure (list, length)) out w) out w ↔
      sized (getSizeList getSize) (listOf (fun _ _ => True) call getSize G) out w := by
    intro call G out w
    constructor
    · rintro ⟨_, u, _, hu, ⟨hle, list, v, _, ⟨hv, rfl⟩, ⟨rfl, rfl⟩, rfl⟩, rfl⟩
      rw [append_nil]
      exact ⟨list, ⟨u, v, ⟨hu, trivial⟩, hle, hv, rfl⟩, rfl⟩
    · rintro ⟨list, ⟨u, v, ⟨hu, -⟩, hle, hv, rfl⟩, rfl⟩
      exact ⟨_, u, v, hu, ⟨hle, list, v, [], ⟨hv, rfl⟩, ⟨rfl, rfl⟩, (append_nil v).symm⟩, rfl⟩
  exact h.congr (hs (fun _ _ => True) F) (hs call E)

end List

end Vanetza.Security.V2
