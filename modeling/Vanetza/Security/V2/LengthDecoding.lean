import Vanetza.Security.V2.LengthFormat

/-!
# Reading lengths from a buffer

`decode_length` can find a complete announcement, one of which octets are missing, and one that is
wider than the integer type.
-/

namespace Vanetza.Security.V2

open InputArchive List

def Truncated (buffer : ByteBuffer) : Prop :=
  ∃ first more, buffer = first :: more ∧
    more.length < countLeadingOnes first ∧ countLeadingOnes first ≠ 8

def TooWide (buffer : ByteBuffer) : Prop :=
  ∃ first more, buffer = first :: more ∧ countLeadingOnes first = 8

variable {n : Nat} {w buffer : ByteBuffer}

theorem decodeLength_append (h : Announces n w) (rest : ByteBuffer) :
  decodeLength (w ++ rest) = (w.length, n) := by
  obtain ⟨first, more, rfl, hm, hf, hn⟩ := h.eq_cons
  have hle := (countLeadingOnes_spec first).1
  rw [decodeLength_cons hm hf] at hn
  rw [cons_append, decodeLength]
  dsimp only at hn ⊢
  rw [if_neg (by omega), if_pos (by simp [hm]), ← hm, take_left,
    foldl_bigEndian, length_cons, ← hn, hm]

theorem decodeLength_truncated (h : Truncated buffer) :
  decodeLength buffer = (buffer.length, 0) := by
  obtain ⟨first, more, rfl, hm, hf⟩ := h
  have hle := (countLeadingOnes_spec first).1
  rw [decodeLength]
  dsimp only
  rw [if_neg (by omega), if_neg (by omega), length_cons]

theorem decodeLength_tooWide (h : TooWide buffer) : decodeLength buffer = (0, 0) := by
  obtain ⟨first, more, rfl, hf⟩ := h
  rw [decodeLength]
  dsimp only
  rw [if_pos hf.ge]

theorem front_cases (buffer : ByteBuffer) : buffer = [] ∨ TooWide buffer ∨ Truncated buffer ∨
    ∃ n w rest, buffer = w ++ rest ∧ Announces n w := by
  cases buffer with
  | nil => exact .inl rfl
  | cons first more =>
    refine .inr ?_
    by_cases hw : countLeadingOnes first = 8
    · exact .inl ⟨first, more, rfl, hw⟩
    refine .inr ?_
    by_cases hm : more.length < countLeadingOnes first
    · exact .inl ⟨first, more, rfl, hm, hw⟩
    -- the announced octets are the next ones
    have hl : (more.take (countLeadingOnes first)).length = countLeadingOnes first := by
      rw [length_take]
      omega
    refine .inr ⟨_, _, more.drop (countLeadingOnes first), ?_, announces_cons hl hw⟩
    rw [cons_append, take_append_drop]

theorem size_le_of_decodeLength (hn : n ≠ 0) (h : (decodeLength buffer).2 = n) :
  lengthCodingSize n ≤ buffer.length := by
  obtain rfl | hwi | ht | ⟨m, w, rest, rfl, hw⟩ := front_cases buffer
  · exact absurd h.symm hn
  · rw [decodeLength_tooWide hwi] at h
    exact absurd h.symm hn
  · rw [decodeLength_truncated ht] at h
    exact absurd h.symm hn
  · rw [decodeLength_append hw rest] at h
    obtain rfl : m = n := h
    have := hw.size_le
    rw [length_append]
    omega

theorem Announces.not_truncated (h : Announces n w) (rest : ByteBuffer) :
  ¬ Truncated (w ++ rest) := by
  intro ht
  obtain ⟨first, more, rfl, hm, -⟩ := h.eq_cons
  obtain ⟨first', more', heq, hlt, -⟩ := ht
  rw [cons_append, cons.injEq] at heq
  obtain ⟨rfl, rfl⟩ := heq
  rw [length_append] at hlt
  omega

theorem Announces.not_tooWide (h : Announces n w) (rest : ByteBuffer) : ¬ TooWide (w ++ rest) := by
  intro hw
  have hp := congrArg Prod.fst (decodeLength_append h rest)
  rw [decodeLength_tooWide hw] at hp
  obtain ⟨first, more, rfl, -⟩ := h.eq_cons
  simp at hp

theorem Announces.eq_of_prefix {m : Nat} {v : ByteBuffer} (hw : Announces n w)
  (hv : Announces m v) (h : w <+: v) : n = m := by
  obtain ⟨rest, rfl⟩ := h
  have hr := decodeLength_append hv []
  rw [append_nil, decodeLength_append hw rest] at hr
  exact congrArg Prod.snd hr

theorem encodeLength_wide (hn : 2 ^ 56 ≤ n) (hn' : n < 2 ^ 64) :
  encodeLength n = 0xff :: 0xff :: toBigEndian 8 n := by
  obtain ⟨j, hj, hin, hlt, -⟩ := @lengthInfo_eq 8 n (by omega) []
  obtain rfl : j = 8 := by
    by_contra hne
    have hp : 256 ^ j ≤ 256 ^ 7 := Nat.pow_le_pow_right (by decide) (by omega)
    omega
  have hfr : UInt8.ofNat (n / 256 ^ 7) ≠ 0 := by
    intro hz
    have hnat := congrArg UInt8.toNat hz
    rw [UInt8.toNat_ofNat'] at hnat
    change n / 256 ^ 7 % 256 = 0 at hnat
    omega
  have hm : (~~~((1 <<< UInt8.ofNat (8 - 8)) - 1) : UInt8) = 0xff := by decide
  unfold encodeLength
  rw [hin, append_nil, toBigEndian_succ]
  dsimp only
  rw [length_toBigEndian, hm, if_pos]
  · rfl
  intro hs
  apply hfr
  rw [← hs]
  exact UInt8.and_zero

theorem tooWide_encodeLength (hn : 2 ^ 56 ≤ n) (hn' : n < 2 ^ 64) : TooWide (encodeLength n) :=
  ⟨_, _, encodeLength_wide hn hn', by decide⟩

theorem TooWide.append (h : TooWide buffer) (rest : ByteBuffer) : TooWide (buffer ++ rest) := by
  obtain ⟨first, more, rfl, hf⟩ := h
  exact ⟨first, more ++ rest, rfl, hf⟩

theorem encodeLength_prefix_free {m : Nat} (hn : n < 2 ^ 64) (hm : m < 2 ^ 64)
  (h : encodeLength n <+: encodeLength m) : n = m := by
  by_cases hs : n < 2 ^ 56
  · have hw := announces_encodeLength hs
    by_cases hs' : m < 2 ^ 56
    · exact hw.eq_of_prefix (announces_encodeLength hs') h
    obtain ⟨rest, heq⟩ := h
    refine absurd ?_ (hw.not_tooWide rest)
    rw [heq]
    exact tooWide_encodeLength (by omega) hm
  · have hwi := encodeLength_wide (by omega : 2 ^ 56 ≤ n) hn
    by_cases hs' : m < 2 ^ 56
    · obtain ⟨rest, heq⟩ := h
      have hv := (announces_encodeLength hs').not_tooWide []
      rw [append_nil, ← heq] at hv
      exact absurd ((tooWide_encodeLength (by omega) hn).append rest) hv
    -- both have ten octets, so they are equal
    have hw' := encodeLength_wide (by omega : 2 ^ 56 ≤ m) hm
    rw [hwi, hw'] at h
    have heq := h.eq_of_length (by simp)
    have hval := congrArg ofBigEndian (cons.inj (cons.inj heq).2).2
    rw [ofBigEndian_toBigEndian, ofBigEndian_toBigEndian] at hval
    omega

/-- What the encoder writes is read back in front of any octets, has the size
the size function tells, cannot be said with fewer octets, and is not the
beginning of what is written for another number. -/
theorem length_coding_exact (n : Nat) (hn : n < 2 ^ 56) (rest : ByteBuffer) :
  (decodeLength (encodeLength n ++ rest)).2 = n ∧ (encodeLength n ++ rest).drop
      (decodeLength (encodeLength n ++ rest)).1 = rest ∧
    (encodeLength n).length = lengthCodingSize n ∧
    (∀ shorter : ByteBuffer, shorter ≠ [] → shorter.length < (encodeLength n).length →
      (decodeLength shorter).2 ≠ n) ∧
    ∀ a < 2 ^ 64, ∀ b < 2 ^ 64, a ≠ b → ¬ encodeLength a <+: encodeLength b := by
  have hr := decodeLength_append (announces_encodeLength hn) rest
  refine ⟨by rw [hr], ?_, length_encodeLength hn, ?_, ?_⟩
  · rw [hr, drop_left]
  · intro shorter hne hlt heq
    have hp := length_pos_of_ne_nil hne
    rw [length_encodeLength hn] at hlt
    have hz : n ≠ 0 := by
      rintro rfl
      have : lengthCodingSize 0 = 1 := rfl
      omega
    have := size_le_of_decodeLength hz heq
    omega
  · intro a ha b hb hne hpre
    exact hne (encodeLength_prefix_free ha hb hpre)

theorem length_coding_exact_at_128 : decodeLength ([0x80, 0x80] ++ [0x07]) = (2, 128) ∧
    (encodeLength 128).length = lengthCodingSize 128 :=
  ⟨by decide, (length_coding_exact 128 (by decide) [0x07]).2.2.1⟩

namespace IntX

def BeginsWith (x : IntX) (buffer : ByteBuffer) : Prop :=
  ∃ w rest, buffer = w ++ rest ∧ Announces x.toNat w

theorem toNat_ofNat_of_announces (h : Announces n w) : (UInt64.ofNat n).toNat = n := by
  have := h.lt
  rw [UInt64.toNat_ofNat']
  exact Nat.mod_eq_of_lt (by omega)

theorem beginsWith_append_iff (h : Announces n w) (rest : ByteBuffer) (x : IntX) :
  BeginsWith x (w ++ rest) ↔ UInt64.ofNat n = x := by
  constructor
  · rintro ⟨w', rest', heq, hx⟩
    have hr := decodeLength_append h rest
    rw [heq, decodeLength_append hx rest'] at hr
    have hv : x.toNat = n := congrArg Prod.snd hr
    rw [← hv, UInt64.ofNat_toNat]
  · rintro rfl
    refine ⟨w, rest, rfl, ?_⟩
    rwa [toNat_ofNat_of_announces h]

theorem not_beginsWith_nil {x : IntX} : ¬ BeginsWith x [] := by
  intro h
  obtain ⟨w, rest, heq, hw⟩ := h
  obtain ⟨first, more, rfl, -⟩ := hw.eq_cons
  exact absurd heq (by simp)

/-- Exactly a buffer that is cut off within its announcement is not told apart:
otherwise a number is returned if the buffer begins with it, and nothing if it
begins with none. -/
theorem decode_exact_iff (buffer : ByteBuffer) :
  (∀ x : IntX, decode buffer = some x ↔ BeginsWith x buffer) ↔ ¬ Truncated buffer := by
  constructor
  · intro hex ht
    have hz : decode buffer = some 0 := by
      rw [decode, decodeLength_truncated ht]
      obtain ⟨first, more, rfl, -⟩ := ht
      rfl
    obtain ⟨w, rest, rfl, hw⟩ := (hex 0).1 hz
    exact hw.not_truncated rest ht
  · intro ht x
    obtain rfl | hwi | h | ⟨n, w, rest, rfl, hw⟩ := front_cases buffer
    · exact ⟨fun h => absurd h (Option.some_ne_none x).symm, fun h => absurd h not_beginsWith_nil⟩
    · rw [decode, decodeLength_tooWide hwi]
      refine ⟨fun h => absurd h (by simp), fun h => ?_⟩
      obtain ⟨w, rest, rfl, hw⟩ := h
      exact absurd hwi (hw.not_tooWide rest)
    · exact absurd h ht
    · have hp : w.length ≠ 0 := by
        obtain ⟨first, more, rfl, -⟩ := hw.eq_cons
        simp
      rw [beginsWith_append_iff hw, decode, decodeLength_append hw]
      simp [hp]

/-- Two octets should follow the first, and one does. -/
theorem truncated_read_as_zero : decode [0xc1, 0x23] = some 0 ∧ ¬ BeginsWith 0 [0xc1, 0x23] := by
  have ht : Truncated [0xc1, 0x23] := ⟨0xc1, [0x23], rfl, by decide⟩
  refine ⟨by decide, fun h => ?_⟩
  obtain ⟨w, rest, heq, hw⟩ := h
  rw [heq] at ht
  exact hw.not_truncated rest ht

end IntX

end Vanetza.Security.V2
