import Vanetza.Geonet.PacketBuffer

/-!
# What waiting does to a lifetime

Each time a packet leaves a buffer, the time it has waited is taken from its lifetime, and what
remains is rounded to the nearest multiple of one of four units. So a packet that goes from buffer
to buffer may get older than it should.
-/

namespace Vanetza.Geonet

namespace Lifetime

def unitMicros (base : UInt8) : Int :=
  match base with
  | 0 => 50000
  | 1 => 1000000
  | 2 => 10000000
  | _ => 100000000

def base (lifetime : Lifetime) : UInt8 := lifetime.raw &&& 0x03

def multiplier (lifetime : Lifetime) : Nat := ((lifetime.raw &&& 0xfc) >>> 2).toNat

def micros (lifetime : Lifetime) : Int := clockCast lifetime.decode

theorem clockCast_micros (n : Int) : clockCast ((n : ℚ) / 10 ^ 6) = n := by
  have h : (n : ℚ) / 10 ^ 6 * 10 ^ 6 = n := by field_simp
  rw [clockCast, h]
  exact Int.tdiv_one n

theorem unit_eq (base : UInt8) : unit base = (unitMicros base : ℚ) / 10 ^ 6 := by
  unfold unit
  split
  · norm_num [unitMicros]
  · norm_num [unitMicros]
  · norm_num [unitMicros]
  · next h0 h1 h2 =>
    have h : unitMicros base = 100000000 := by
      unfold unitMicros
      split <;> first | rfl | contradiction
    rw [h]
    norm_num

theorem micros_eq (lifetime : Lifetime) :
  lifetime.micros = lifetime.multiplier * unitMicros lifetime.base := by
  have h : lifetime.decode =
      ((lifetime.multiplier * unitMicros lifetime.base : Int) : ℚ) / 10 ^ 6 := by
    rw [decode, unit_eq]
    push_cast
    rw [mul_div_assoc]
    rfl
  rw [micros, h, clockCast_micros]

theorem multiplier_lt (lifetime : Lifetime) : lifetime.multiplier < 64 := by
  have h : ∀ raw : UInt8, multiplier ⟨raw⟩ < 64 := by decide +kernel
  exact h lifetime.raw

theorem unitMicros_cases (base : UInt8) : unitMicros base = 50000 ∨ unitMicros base = 1000000 ∨
    unitMicros base = 10000000 ∨ unitMicros base = 100000000 := by
  unfold unitMicros
  split <;> simp

theorem micros_nonneg (lifetime : Lifetime) : 0 ≤ lifetime.micros := by
  rw [micros_eq]
  rcases unitMicros_cases lifetime.base with h | h | h | h <;> rw [h] <;> omega

theorem micros_le (lifetime : Lifetime) : lifetime.micros ≤ 6300000000 := by
  have hm := lifetime.multiplier_lt
  rw [micros_eq]
  rcases unitMicros_cases lifetime.base with h | h | h | h <;> rw [h] <;> omega

theorem micros_zero : zero.micros = 0 := by decide +kernel

def encodingUnit (duration : Int) : Int :=
  if 630000000 ≤ duration then 100000000
  else if 63000000 ≤ duration then 10000000
  else if 3150000 ≤ duration then 1000000
  else 50000

def roundsUp (duration : Int) : Bool :=
  encodingUnit duration ≤ 2 * (duration % encodingUnit duration)

def rounded (duration : Int) : Int :=
  duration - duration % encodingUnit duration +
    if roundsUp duration then encodingUnit duration else 0

variable {wait : Int} {lifetime : Lifetime} {waits : List Int} {base : UInt8}

theorem base_set (hb : base < 4) {n : Nat} (hn : n < 64) :
  (set base n).base = base ∧ (set base n).multiplier = n := by
  have h : ∀ n : Fin 64, ∀ b : Fin 4, (set (UInt8.ofNat b) n).base =
      UInt8.ofNat b ∧ (set (UInt8.ofNat b) n).multiplier = n := by
    decide +kernel
  have := h ⟨n, hn⟩ ⟨base.toNat, hb⟩
  simpa using this

def unitOf (lifetime : Lifetime) : Int := unitMicros lifetime.base

theorem unitOf_pos (lifetime : Lifetime) : 0 < lifetime.unitOf := by
  unfold unitOf
  rcases unitMicros_cases lifetime.base with h | h | h | h <;> omega

theorem set_spec (hba : base < 4) {n : Int} (h0 : 0 ≤ n) (hn : n < 64) :
  (set base n).micros = n * unitMicros base ∧ (set base n).unitOf = unitMicros base := by
  obtain ⟨n, rfl⟩ := Int.eq_ofNat_of_zero_le h0
  obtain ⟨hb, hm⟩ := base_set hba (Int.ofNat_lt.1 hn)
  rw [micros_eq, unitOf, hb, hm]
  exact ⟨rfl, rfl⟩

theorem round_div (n : Int) (ha : Nat) (hh : 0 < ha) :
  round ((n : ℚ) / (2 * ha : Nat)) = (n + ha) / (2 * ha : Nat) := by
  have h : (n : ℚ) / (2 * ha : Nat) + 1 / 2 = ((n + ha : Int) : ℚ) / (2 * ha : Nat) := by
    have : (ha : ℚ) ≠ 0 := by positivity
    push_cast
    field_simp
  rw [round, h]
  exact Rat.floor_intCast_div_natCast _ _

theorem encode_spec {duration : Int} (h0 : 0 ≤ duration) (hmax : duration < 6300000000) :
  (encode ((duration : ℚ) / 10 ^ 6)).micros = rounded duration ∧
    (encode ((duration : ℚ) / 10 ^ 6)).unitOf = encodingUnit duration := by
  have hle (x : ℚ) (n : Int) (hx : x * 10 ^ 6 = n) :
      x ≤ (duration : ℚ) / 10 ^ 6 ↔ n ≤ duration := by
    rw [le_div_iff₀ (by norm_num), hx, Int.cast_le]
  have h630 := hle 630 630000000 (by norm_num)
  have h63 := hle 63 63000000 (by norm_num)
  have h315 := hle (63 / 20) 3150000 (by norm_num)
  -- the lifetime for a base, whose unit is given by its half
  have hs (x : ℚ) (base : UInt8) (ha : Nat) (hh : 0 < ha)
      (hx : x = (duration : ℚ) / (2 * ha : Nat)) (hb : base < 4)
      (hu : unitMicros base = (2 * ha : Nat)) (h : (duration + ha) / (2 * ha : Nat) < 64) :
      (set base (round x)).micros = (duration + ha) / (2 * ha : Nat) * (2 * ha : Nat) ∧
        (set base (round x)).unitOf = (2 * ha : Nat) := by
    rw [hx, round_div duration ha hh, ← hu]
    rw [← hu] at h
    exact set_spec hb (Int.ediv_nonneg (by omega) (by omega)) h
  unfold encode rounded roundsUp encodingUnit
  simp only [h630, h63, h315, decide_eq_true_eq]
  by_cases hf : 630000000 ≤ duration
  · simp only [if_pos hf]
    obtain ⟨hm, hu⟩ := hs ((duration : ℚ) / 10 ^ 6 / 100) 3
      50000000 (by norm_num) (by push_cast; ring) (by decide) rfl (by omega)
    rw [hm, hu]
    split <;> omega
  · simp only [if_neg hf]
    by_cases hsec : 63000000 ≤ duration
    · simp only [if_pos hsec]
      obtain ⟨hm, hu⟩ := hs ((duration : ℚ) / 10 ^ 6 / 10) 2
        5000000 (by norm_num) (by push_cast; ring) (by decide) rfl (by omega)
      rw [hm, hu]
      split <;> omega
    · simp only [if_neg hsec]
      by_cases ht : 3150000 ≤ duration
      · simp only [if_pos ht]
        obtain ⟨hm, hu⟩ := hs ((duration : ℚ) / 10 ^ 6) 1
          500000 (by norm_num) (by push_cast; ring) (by decide) rfl (by omega)
        rw [hm, hu]
        split <;> omega
      · simp only [if_neg ht]
        obtain ⟨hm, hu⟩ := hs ((duration : ℚ) / 10 ^ 6 * 20) 0
          25000 (by norm_num) (by push_cast; ring) (by decide) rfl (by omega)
        rw [hm, hu]
        split <;> omega

theorem rounded_error (duration : Int) : 2 * rounded duration ≤
  2 * duration + if roundsUp duration then encodingUnit duration else 0 := by
  have h0 : 0 < encodingUnit duration := by
    unfold encodingUnit
    split_ifs <;> decide
  have hm := Int.emod_nonneg duration (ne_of_gt h0)
  unfold rounded
  split
  · next h =>
    have := of_decide_eq_true h
    omega
  · omega

/-- `reduce_lifetime`, as far as the lifetime is concerned. -/
def reduce (queuingTime : Int) (lifetime : Lifetime) : Int × Lifetime :=
  if queuingTime ≤ 0 then (lifetime.micros, lifetime)
  else if queuingTime < lifetime.micros then
    let remaining := lifetime.micros - queuingTime
    (remaining, encode ((remaining : ℚ) / 10 ^ 6))
  else (0, zero)

section Reduce

variable {lifetime : Lifetime} {duration : Int}

theorem micros_lt (h : duration < lifetime.micros) : duration < 63 * lifetime.unitOf := by
  rw [micros_eq] at h
  have hm := lifetime.multiplier_lt
  unfold unitOf
  rcases unitMicros_cases lifetime.base with hu | hu | hu | hu <;>
    rw [hu] at h ⊢ <;> omega

theorem encodingUnit_le (h : duration < lifetime.micros) :
  encodingUnit duration ≤ lifetime.unitOf := by
  have hlt := micros_lt h
  unfold encodingUnit
  unfold unitOf at hlt ⊢
  rcases unitMicros_cases lifetime.base with hu | hu | hu | hu <;>
    rw [hu] at hlt ⊢ <;> split_ifs <;> omega

theorem reduce_spec (h0 : 0 ≤ wait) (h : wait ≤ lifetime.micros) :
  2 * (lifetime.reduce wait).2.micros ≤ 2 * (lifetime.micros - wait) +
      (if 0 < wait ∧ wait < lifetime.micros ∧
          roundsUp (lifetime.micros - wait) then lifetime.unitOf else 0) ∧
    (lifetime.reduce wait).2.unitOf ≤ lifetime.unitOf := by
  have hun : 50000 ≤ lifetime.unitOf := by
    unfold unitOf
    rcases unitMicros_cases lifetime.base with hu | hu | hu | hu <;> omega
  unfold reduce
  split
  · next hw =>
    rw [if_neg fun hup => absurd hup.1 (by omega)]
    dsimp only
    omega
  next hw =>
  split
  · next hlt =>
    have hl : lifetime.micros - wait < lifetime.micros := by omega
    obtain ⟨hm, hu'⟩ := encode_spec (by omega) (hl.trans_le lifetime.micros_le)
    have hle := encodingUnit_le hl
    have herr := rounded_error (lifetime.micros - wait)
    dsimp only
    rw [hm, hu']
    refine ⟨?_, hle⟩
    split at herr
    · next hup =>
      rw [if_pos ⟨by omega, hlt, hup⟩]
      omega
    · next hd =>
      rw [if_neg fun hup => hd hup.2.2]
      exact herr
  · next hge =>
    rw [if_neg fun hup => hge hup.2.1]
    dsimp only
    rw [micros_zero]
    exact ⟨by omega, hun⟩

theorem lt_of_reduce_pos (h0 : 0 ≤ wait) (h : 0 < (lifetime.reduce wait).1) :
  wait < lifetime.micros := by
  unfold reduce at h
  split at h
  · dsimp only at h
    omega
  · split at h
    · next hlt => exact hlt
    · exact absurd h (lt_irrefl 0)

theorem micros_reduce_of_le (h0 : 0 ≤ wait) (h : lifetime.micros ≤ wait) :
  (lifetime.reduce wait).2.micros = 0 := by
  unfold reduce
  split
  · have := lifetime.micros_nonneg
    dsimp only
    omega
  · rw [if_neg (Int.not_lt.2 h)]
    exact micros_zero

end Reduce

def after (lifetime : Lifetime) (waits : List Int) : Lifetime :=
  waits.foldl (fun current wait => (current.reduce wait).2) lifetime

def Survives : Lifetime → List Int → Prop
  | _, [] => True
  | lifetime, wait :: rest => 0 ≤ wait ∧ wait ≤ lifetime.micros ∧
      Survives (lifetime.reduce wait).2 rest

def upRoundings : Lifetime → List Int → Nat
  | _, [] => 0
  | lifetime, wait :: rest =>
    (if 0 < wait ∧ wait < lifetime.micros ∧ roundsUp (lifetime.micros - wait) then 1 else 0) +
      upRoundings (lifetime.reduce wait).2 rest

theorem after_concat (lifetime : Lifetime) (waits : List Int) (wait : Int) :
  lifetime.after (waits ++ [wait]) = ((lifetime.after waits).reduce wait).2 := by
  rw [after, List.foldl_append]
  rfl

theorem survives_concat : lifetime.Survives (waits ++ [wait]) ↔ lifetime.Survives waits ∧
    0 ≤ wait ∧ wait ≤ (lifetime.after waits).micros := by
  induction waits generalizing lifetime with
  | nil => simp [Survives, after]
  | cons first waits ih =>
    rw [List.cons_append, Survives, Survives, ih, and_assoc, and_assoc]
    rfl

theorem after_le (h : lifetime.Survives waits) : 2 * (lifetime.after waits).micros ≤
    2 * (lifetime.micros - waits.sum) + lifetime.upRoundings waits * lifetime.unitOf := by
  induction waits generalizing lifetime with
  | nil =>
    rw [after, List.foldl_nil, List.sum_nil, upRoundings]
    omega
  | cons wait rest ih =>
    obtain ⟨h0, hw, hr⟩ := h
    obtain ⟨hm, hu⟩ := reduce_spec h0 hw
    have ha := ih hr
    have hmul := Int.mul_le_mul_of_nonneg_left hu
      (Int.natCast_nonneg (upRoundings (lifetime.reduce wait).2 rest))
    rw [List.sum_cons, upRoundings]
    change 2 * ((lifetime.reduce wait).2.after rest).micros ≤ _
    push_cast
    rw [Int.add_mul]
    split at hm
    · next hup =>
      rw [if_pos hup]
      omega
    · next hup =>
      rw [if_neg hup]
      omega

end Lifetime

namespace PendingPacket

variable {H A : Type}

theorem reduceLifetime_eq (queuingTime : Int) (pkt : PendingPacket H A) :
  pkt.reduceLifetime queuingTime =
    ((pkt.pdu.basic.lifetime.reduce queuingTime).1, pkt.withLifetime
      (pkt.pdu.basic.lifetime.reduce queuingTime).2) := by
  unfold reduceLifetime Lifetime.reduce Lifetime.micros
  dsimp only
  split
  · rfl
  · split <;> rfl

end PendingPacket

end Vanetza.Geonet
