import Vanetza.Geonet.LifetimeReduction

/-!
# How exactly durations are encoded as lifetimes

A duration is rounded to a multiple of one of four units, with six bits for the multiplier. The unit
changes where 63 of the finer one are reached, and right above that durations are rounded down to
less.
-/

namespace Vanetza.Geonet

namespace Lifetime

theorem le_round_iff {n : Int} {x : ℚ} : n ≤ round x ↔ (n : ℚ) - 1 / 2 ≤ x := by
  rw [round, Rat.le_floor_iff]
  constructor
  · intro h
    linarith
  · intro h
    linarith

structure Nearest (u d : ℚ) (n : Int) : Prop where
  lower : (n - 1 / 2) * u ≤ d
  upper : d < (n + 1 / 2) * u

theorem nearest_round {u : ℚ} (hu : 0 < u) (d : ℚ) : Nearest u d (round (d / u)) := by
  have hlo : ((round (d / u) : Int) : ℚ) - 1 / 2 ≤ d / u := le_round_iff.1 le_rfl
  have hupp : ¬ (((round (d / u) + 1 : Int) : ℚ) - 1 / 2 ≤ d / u) := by
    rw [← le_round_iff]
    omega
  push_cast at hupp
  refine ⟨(le_div_iff₀ hu).1 hlo, (div_lt_iff₀ hu).1 ?_⟩
  linarith

namespace Nearest

variable {u d d' : ℚ} {n n' : Int} (hu : 0 < u)

include hu

theorem le_of_lt (h : Nearest u d n) {m : Int} (hd : d < (m + 1 / 2) * u) : n ≤ m := by
  have hlt : ((n : ℚ) - 1 / 2) * u < (m + 1 / 2) * u := h.lower.trans_lt hd
  have := lt_of_mul_lt_mul_right hlt hu.le
  have hc : (n : ℚ) < ((m + 1 : Int) : ℚ) := by
    push_cast
    linarith
  exact Int.lt_add_one_iff.1 (Int.cast_lt.1 hc)

theorem le_of_le (h : Nearest u d n) {m : Int} (hd : (m - 1 / 2) * u ≤ d) : m ≤ n := by
  have hlt : ((m : ℚ) - 1 / 2) * u < (n + 1 / 2) * u := hd.trans_lt h.upper
  have := lt_of_mul_lt_mul_right hlt hu.le
  have hc : (m : ℚ) < ((n + 1 : Int) : ℚ) := by
    push_cast
    linarith
  exact Int.lt_add_one_iff.1 (Int.cast_lt.1 hc)

theorem mono (h : Nearest u d n) (h' : Nearest u d' n') (hle : d ≤ d') : n ≤ n' :=
  h.le_of_lt hu (hle.trans_lt h'.upper)

omit hu in
theorem close (h : Nearest u d n) : |n * u - d| ≤ u / 2 := by
  have hlo := h.lower
  have hupp := h.upper
  rw [abs_le]
  constructor <;> linarith

end Nearest

def chosenBase (d : ℚ) : UInt8 :=
  if 630 ≤ d then 3 else if 63 ≤ d then 2 else if 63 / 20 ≤ d then 1 else 0

def shortest (base : UInt8) : ℚ :=
  match base with
  | 0 => 0
  | 1 => 63 / 20
  | 2 => 63
  | _ => 630

theorem chosenBase_lt (d : ℚ) : chosenBase d < 4 := by
  unfold chosenBase
  split_ifs <;> decide

theorem unit_pos (base : UInt8) : 0 < unit base := by
  unfold unit
  split <;> norm_num

theorem decode_set {base : UInt8} (hb : base < 4) (n : Int) :
  (set base n).decode = ((n % 64 : Int) : ℚ) * unit base := by
  have hn : 0 ≤ n % 64 := Int.emod_nonneg n (by decide)
  have hlt : n % 64 < 64 := Int.emod_lt_of_pos n (by decide)
  obtain ⟨m, hm⟩ := Int.eq_ofNat_of_zero_le hn
  have hs : set base n = set base m := by rw [set, set, ← hm, Int.emod_emod]
  obtain ⟨hb', hmul⟩ := base_set hb (by omega : m < 64)
  rw [hs, hm]
  show ((set base m).multiplier : ℚ) * unit (set base m).base = _
  rw [hb', hmul]
  rfl

theorem decode_encode (d : ℚ) : ∃ n : Int, Nearest (unit (chosenBase d)) d n ∧
  (encode d).decode = ((n % 64 : Int) : ℚ) * unit (chosenBase d) := by
  have henc : encode d = set (chosenBase d) (round (d / unit (chosenBase d))) := by
    unfold encode chosenBase
    split_ifs
    · rfl
    · rfl
    · show set 1 (round d) = set 1 (round (d / 1))
      rw [div_one]
    · show set 0 (round (d * 20)) = set 0 (round (d / (1 / 20)))
      rw [div_div_eq_mul_div, div_one]
  refine ⟨_, nearest_round (unit_pos _) d, ?_⟩
  rw [henc, decode_set (chosenBase_lt d)]

theorem decode_le (d : ℚ) : (encode d).decode ≤ 63 * unit (chosenBase d) := by
  obtain ⟨n, -, heq⟩ := decode_encode d
  have hlt : n % 64 < 64 := Int.emod_lt_of_pos n (by decide)
  rw [heq]
  have hle : ((n % 64 : Int) : ℚ) ≤ 63 := by exact_mod_cast Int.lt_add_one_iff.1 hlt
  exact mul_le_mul_of_nonneg_right hle (unit_pos _).le

theorem decode_encode_of_fits {d : ℚ} (h0 : 0 ≤ d) (hf : d < 127 / 2 * unit (chosenBase d)) :
  ∃ n : Int, Nearest (unit (chosenBase d)) d n ∧ (encode d).decode = n * unit (chosenBase d) := by
  obtain ⟨n, hn, heq⟩ := decode_encode d
  have hu := unit_pos (chosenBase d)
  have hnon : 0 ≤ n := by
    refine hn.le_of_le hu ?_
    push_cast
    linarith
  have hlt : n ≤ 63 := by
    refine hn.le_of_lt hu ?_
    push_cast
    linarith
  rw [Int.emod_eq_of_lt hnon (by omega)] at heq
  exact ⟨n, hn, heq⟩

theorem chosenBase_cases (d : ℚ) : (chosenBase d = 0 ∧ unit (chosenBase d) = 1 / 20 ∧
      shortest (chosenBase d) = 0 ∧ d < 63 / 20) ∨ (chosenBase d = 1 ∧ unit (chosenBase d) = 1 ∧
      shortest (chosenBase d) = 63 / 20 ∧ 63 / 20 ≤ d ∧ d < 63) ∨
    (chosenBase d = 2 ∧ unit (chosenBase d) = 10 ∧
      shortest (chosenBase d) = 63 ∧ 63 ≤ d ∧ d < 630) ∨
    (chosenBase d = 3 ∧ unit (chosenBase d) = 100 ∧ shortest (chosenBase d) = 630 ∧ 630 ≤ d) := by
  unfold chosenBase
  split_ifs with h3 h2 h1
  · exact .inr (.inr (.inr ⟨rfl, rfl, rfl, h3⟩))
  · exact .inr (.inr (.inl ⟨rfl, rfl, rfl, h2, not_le.1 h3⟩))
  · exact .inr (.inl ⟨rfl, rfl, rfl, h1, not_le.1 h2⟩)
  · exact .inl ⟨rfl, rfl, rfl, not_le.1 h1⟩

theorem decode_le_shortest {d d' : ℚ} (h0 : 0 ≤ d) (h : d < shortest (chosenBase d')) :
  (encode d).decode ≤ shortest (chosenBase d') := by
  refine (decode_le d).trans ?_
  obtain ⟨-, -, hs, -⟩ | ⟨-, -, hs, -⟩ | ⟨-, -, hs, -⟩ | ⟨-, -, hs, -⟩ :=
      chosenBase_cases d' <;>
    obtain ⟨-, hu, -, -⟩ | ⟨-, hu, -, hd, -⟩ | ⟨-, hu, -, hd, -⟩ |
      ⟨-, hu, -, hd⟩ := chosenBase_cases d <;>
    rw [hs] at h ⊢ <;> rw [hu] <;> linarith

theorem chosenBase_eq_of_le {d d' : ℚ} (h : shortest (chosenBase d') ≤ d)
  (hle : d ≤ d') : chosenBase d = chosenBase d' := by
  obtain ⟨hb, -, hs, hd'⟩ | ⟨hb, -, hs, -, hd'⟩ | ⟨hb, -, hs, -, hd'⟩ |
      ⟨hb, -, hs, -⟩ := chosenBase_cases d' <;>
    obtain ⟨hc, -, -, hd⟩ | ⟨hc, -, -, hd, hlt⟩ | ⟨hc, -, -, hd, hlt⟩ |
      ⟨hc, -, -, hd⟩ := chosenBase_cases d <;>
    rw [hs] at h <;> rw [hb, hc] <;> linarith

theorem decode_mono_of_reaches {d d' : ℚ} (h0 : 0 ≤ d) (hle : d ≤ d')
  (hf : d' < 127 / 2 * unit (chosenBase d')) (hr : shortest (chosenBase d') ≤ (encode d').decode) :
  (encode d).decode ≤ (encode d').decode := by
  by_cases hd : d < shortest (chosenBase d')
  · exact (decode_le_shortest h0 hd).trans hr
  have hb := chosenBase_eq_of_le (not_lt.1 hd) hle
  have hu := unit_pos (chosenBase d')
  obtain ⟨n', hn', heq'⟩ := decode_encode_of_fits (h0.trans hle) hf
  obtain ⟨n, hn, heq⟩ := decode_encode_of_fits h0 (hle.trans_lt (hb ▸ hf))
  rw [hb] at hn heq
  rw [heq, heq']
  have hc : (n : ℚ) ≤ n' := by exact_mod_cast hn.mono hu hn' hle
  exact mul_le_mul_of_nonneg_right hc hu.le

def finestUnit (d : ℚ) : ℚ :=
  if d ≤ 63 * unit 0 then unit 0
  else if d ≤ 63 * unit 1 then unit 1
  else if d ≤ 63 * unit 2 then unit 2
  else unit 3

def EncodedWell (d : ℚ) : Prop :=
  (d ≤ 6300 → |(encode d).decode - d| ≤ finestUnit d / 2) ∧ ∀ shorter, 0 ≤ shorter → shorter ≤ d →
      (encode shorter).decode ≤ (encode d).decode

structure Regular (d : ℚ) : Prop where
  seconds : 63 / 20 ≤ d → 7 / 2 ≤ d
  tens : 63 ≤ d → 65 ≤ d
  hundreds : 630 ≤ d → 650 ≤ d
  long : 6350 ≤ d → ∃ k : Nat, 6400 * k + 6250 ≤ d ∧ d < 6400 * k + 6350

theorem le_decode_of_le {d : ℚ} (h0 : 0 ≤ d) (hf : d < 127 / 2 * unit (chosenBase d)) {m : Int}
  (hd : (m - 1 / 2) * unit (chosenBase d) ≤ d) :
  m * unit (chosenBase d) ≤ (encode d).decode := by
  obtain ⟨n, hn, heq⟩ := decode_encode_of_fits h0 hf
  have hu := unit_pos (chosenBase d)
  have hc : (m : ℚ) ≤ n := by exact_mod_cast hn.le_of_le hu hd
  rw [heq]
  exact mul_le_mul_of_nonneg_right hc hu.le

theorem decode_le_of_lt {d : ℚ} (h0 : 0 ≤ d) (hf : d < 127 / 2 * unit (chosenBase d)) {m : Int}
  (hd : d < (m + 1 / 2) * unit (chosenBase d)) :
  (encode d).decode ≤ m * unit (chosenBase d) := by
  obtain ⟨n, hn, heq⟩ := decode_encode_of_fits h0 hf
  have hu := unit_pos (chosenBase d)
  have hc : (n : ℚ) ≤ m := by exact_mod_cast hn.le_of_lt hu hd
  rw [heq]
  exact mul_le_mul_of_nonneg_right hc hu.le

theorem encodedWell_of_reaches {d : ℚ} (h0 : 0 ≤ d) (hf : d < 127 / 2 * unit (chosenBase d))
  (hfin : d ≤ 6300 → finestUnit d = unit (chosenBase d))
  (hr : shortest (chosenBase d) ≤ (encode d).decode) :
  EncodedWell d := by
  refine ⟨fun hd => ?_, fun shorter hs hle =>
    decode_mono_of_reaches hs hle hf hr⟩
  obtain ⟨n, hn, heq⟩ := decode_encode_of_fits h0 hf
  rw [heq, hfin hd]
  exact hn.close

theorem decode_of_long {d : ℚ} (hd : 630 ≤ d) : ∃ n : Int,
  (n - 1 / 2) * 100 ≤ d ∧ d < (n + 1 / 2) * 100 ∧
    (encode d).decode = ((n % 64 : Int) : ℚ) * 100 := by
  have hb : chosenBase d = 3 := if_pos hd
  obtain ⟨n, hn, heq⟩ := decode_encode d
  rw [hb] at hn heq
  exact ⟨n, hn.lower, hn.upper, heq⟩

theorem finestUnit_eq {d : ℚ} (h1 : d ≠ 63 / 20) (h2 : d ≠ 63)
  (h3 : d ≠ 630) : finestUnit d = unit (chosenBase d) := by
  have hun : 63 * unit 0 = 63 / 20 ∧ 63 * unit 1 = 63 ∧ 63 * unit 2 = 630 := by norm_num [unit]
  rw [finestUnit, hun.1, hun.2.1, hun.2.2, chosenBase]
  by_cases hd1 : d ≤ 63 / 20
  · have hlt := lt_of_le_of_ne hd1 h1
    rw [if_pos hd1, if_neg (by linarith), if_neg (by linarith), if_neg (by linarith)]
  rw [if_neg hd1]
  by_cases hd2 : d ≤ 63
  · have hlt := lt_of_le_of_ne hd2 h2
    rw [if_pos hd2, if_neg (by linarith), if_neg (by linarith), if_pos (by linarith)]
  rw [if_neg hd2]
  by_cases hd3 : d ≤ 630
  · have hlt := lt_of_le_of_ne hd3 h3
    rw [if_pos hd3, if_neg (by linarith), if_pos (by linarith)]
  · rw [if_neg hd3, if_pos (by linarith)]

theorem fits_of_lt {d : ℚ} (h : d < 6350) : d < 127 / 2 * unit (chosenBase d) := by
  obtain ⟨-, hu, -, hd⟩ | ⟨-, hu, -, -, hd⟩ | ⟨-, hu, -, -, hd⟩ | ⟨-, hu, -⟩ :=
    chosenBase_cases d <;> rw [hu] <;> linarith

theorem shortest_le_decode {d : ℚ} (h0 : 0 ≤ d) (hd : d < 6350)
  (h : Regular d) : shortest (chosenBase d) ≤ (encode d).decode := by
  have hr : ∀ m : Int, (m - 1 / 2) * unit (chosenBase d) ≤ d →
      m * unit (chosenBase d) ≤ (encode d).decode :=
    fun m hm => le_decode_of_le h0 (fits_of_lt hd) hm
  obtain ⟨-, hu, hs, -⟩ | ⟨-, hu, hs, hge, -⟩ | ⟨-, hu, hs, hge, -⟩ |
    ⟨-, hu, hs, hge⟩ := chosenBase_cases d
  · have := hr 0 (by rw [hu]; push_cast; linarith)
    rwa [Int.cast_zero, zero_mul, ← hs] at this
  · have := hr 4 (by rw [hu]; push_cast; linarith [h.seconds hge])
    rw [hu] at this
    push_cast at this
    linarith
  · have := hr 7 (by rw [hu]; push_cast; linarith [h.tens hge])
    rw [hu] at this
    push_cast at this
    linarith
  · have := hr 7 (by rw [hu]; push_cast; linarith [h.hundreds hge])
    rw [hu] at this
    push_cast at this
    linarith

theorem decode_of_long_regular {d : ℚ} {k : Nat} (hlo : 6400 * k + 6250 ≤ d)
  (hupp : d < 6400 * k + 6350) : (encode d).decode = 6300 := by
  have hk : (0 : ℚ) ≤ k := by positivity
  obtain ⟨n, hn, hn', heq⟩ := decode_of_long (by linarith : 630 ≤ d)
  have hlt : (n : ℚ) < ((64 * k + 64 : Int) : ℚ) := by
    push_cast
    linarith
  have hgt : ((64 * k + 62 : Int) : ℚ) < n := by
    push_cast
    linarith
  have hm : n % 64 = 63 := by
    have := Int.cast_lt.1 hlt
    have := Int.cast_lt.1 hgt
    omega
  rw [heq, hm]
  norm_num

theorem decode_le_longest (d : ℚ) : (encode d).decode ≤ 6300 := by
  refine (decode_le d).trans ?_
  obtain ⟨-, hu, -⟩ | ⟨-, hu, -⟩ | ⟨-, hu, -⟩ | ⟨-, hu, -⟩ :=
    chosenBase_cases d <;> rw [hu] <;> norm_num

theorem Regular.encodedWell {d : ℚ} (h : Regular d) (h0 : 0 ≤ d) :
  EncodedWell d := by
  by_cases hl : 6350 ≤ d
  · obtain ⟨k, hlo, hupp⟩ := h.long hl
    refine ⟨fun hd => by linarith, fun shorter _ _ => ?_⟩
    rw [decode_of_long_regular hlo hupp]
    exact decode_le_longest shorter
  have hd := not_le.1 hl
  refine encodedWell_of_reaches h0 (fits_of_lt hd) (fun _ => ?_) (shortest_le_decode h0 hd h)
  refine finestUnit_eq ?_ ?_ ?_
  · rintro rfl
    linarith [h.seconds le_rfl]
  · rintro rfl
    linarith [h.tens le_rfl]
  · rintro rfl
    linarith [h.hundreds le_rfl]

theorem decode_three : (encode (157 / 50)).decode = 63 / 20 := by decide +kernel

theorem decode_sixty : (encode (629 / 10)).decode = 63 := by decide +kernel

theorem decode_six_hundred : (encode 629).decode = 630 := by decide +kernel

theorem decode_longest : (encode 6300).decode = 6300 := by decide +kernel

theorem EncodedWell.rounded_up {d : ℚ} (h : EncodedWell d) (hd : d < 6350)
  {shorter : ℚ} (h0 : 0 ≤ shorter) (hle : shorter ≤ d) {m : Int}
  (hm : m * unit (chosenBase d) < (encode shorter).decode) :
  (m + 1 / 2) * unit (chosenBase d) ≤ d := by
  by_contra hlt
  have hl := decode_le_of_lt (h0.trans hle) (fits_of_lt hd) (not_le.1 hlt)
  have hmo := h.2 shorter h0 hle
  linarith

theorem EncodedWell.long {d : ℚ} (h : EncodedWell d) (hd : 6350 ≤ d) :
  ∃ k : Nat, 6400 * (k : ℚ) + 6250 ≤ d ∧ d < 6400 * k + 6350 := by
  have hl := h.2 6300 (by norm_num) (by linarith)
  obtain ⟨n, hn, hn', heq⟩ := decode_of_long (by linarith : 630 ≤ d)
  rw [decode_longest, heq] at hl
  have hm : n % 64 = 63 := by
    have hge : ((63 : Int) : ℚ) ≤ ((n % 64 : Int) : ℚ) := by
      push_cast at hl ⊢
      linarith
    have := Int.cast_le.1 hge
    have := Int.emod_lt_of_pos n (by decide : (0 : Int) < 64)
    omega
  have hp : 0 ≤ n := by
    have hlt : ((0 : Int) : ℚ) < ((n + 1 : Int) : ℚ) := by
      push_cast
      linarith
    have := Int.cast_lt.1 hlt
    omega
  obtain ⟨n, rfl⟩ := Int.eq_ofNat_of_zero_le hp
  have hk : ((n : Int) : ℚ) = 64 * ((n / 64 : Nat) : ℚ) + 63 := by
    have hn64 : n = 64 * (n / 64) + 63 := by omega
    rw [Int.cast_natCast]
    exact_mod_cast hn64
  rw [hk] at hn hn'
  exact ⟨n / 64, by linarith, by linarith⟩

theorem EncodedWell.regular {d : ℚ} (h : EncodedWell d) : Regular d := by
  obtain ⟨-, hu, -, hlt⟩ | ⟨-, hu, -, hge, hlt⟩ | ⟨-, hu, -, hge, hlt⟩ |
    ⟨-, hu, -, hge⟩ := chosenBase_cases d
  · exact ⟨fun _ => by linarith, fun _ => by linarith, fun _ => by linarith, fun _ => by linarith⟩
  · have hup := @EncodedWell.rounded_up d h (by linarith) (157 / 50)
      (by norm_num) (by linarith) 3 (by rw [hu, decode_three]; norm_num)
    rw [hu] at hup
    push_cast at hup
    exact ⟨fun _ => by linarith, fun _ => by linarith, fun _ => by linarith, fun _ => by linarith⟩
  · have hup := @EncodedWell.rounded_up d h (by linarith) (629 / 10)
      (by norm_num) (by linarith) 6 (by rw [hu, decode_sixty]; norm_num)
    rw [hu] at hup
    push_cast at hup
    exact ⟨fun _ => by linarith, fun _ => by linarith, fun _ => by linarith, fun _ => by linarith⟩
  · refine ⟨fun _ => by linarith, fun _ => by linarith, fun _ => ?_, h.long⟩
    by_cases hd : d < 6350
    · have hup := @EncodedWell.rounded_up d h hd 629 (by norm_num)
        (by linarith) 6 (by rw [hu, decode_six_hundred]; norm_num)
      rw [hu] at hup
      push_cast at hup
      linarith
    · linarith

/-- Encoding and decoding is accurate at a duration and does not fall behind
shorter ones exactly if the duration is regular. -/
theorem encoded_well_iff (d : ℚ) (h0 : 0 ≤ d) :
  ((d ≤ 6300 → |(encode d).decode - d| ≤ finestUnit d / 2) ∧
      ∀ shorter, 0 ≤ shorter → shorter ≤ d → (encode shorter).decode ≤ (encode d).decode) ↔
    Regular d :=
  ⟨EncodedWell.regular, fun h => h.encodedWell h0⟩

theorem encoded_well_ten_minutes : |(encode 600).decode - 600| ≤ 5 := by
  have hr : Regular 600 :=
    ⟨fun _ => by norm_num, fun _ => by norm_num, fun h => absurd h (by norm_num),
      fun h => absurd h (by norm_num)⟩
  have hc := ((encoded_well_iff 600 (by norm_num)).2 hr).1 (by norm_num)
  have hun : finestUnit 600 / 2 = 5 := by decide +kernel
  rwa [hun] at hc

/-- Behind the greatest multiplier lifetimes start from zero again, and right
behind 63 units of 50 ms they are shorter than these. -/
theorem longer_duration_shorter_lifetime : (encode 6400).decode = 0 ∧ (encode 6300).decode = 6300 ∧
    (encode (63 / 20)).decode = 3 ∧ (encode (157 / 50)).decode = 63 / 20 ∧
    finestUnit (63 / 20) / 2 < |(encode (63 / 20)).decode - 63 / 20| := by
  decide +kernel

end Lifetime

end Vanetza.Geonet
