import Vanetza.Common.UnitInterval
import Vanetza.Lib.Run

/-!
# Limeric budget

After a transmission the gate stays closed for an interval between 25 ms and one
second. `LimericBudget` adapts it when the permitted duty cycle changes: of the
time still to wait, as much remains as the new duty cycle asks for in
proportion.
-/

namespace Vanetza.Dcc

open Lib

structure DurationCast where
  ticks : AddSubgroup ℚ
  intCast_mem : ∀ n : ℤ, (n : ℚ) ∈ ticks
  cast : ℚ → ℚ
  cast_mem : ∀ x, cast x ∈ ticks
  monotone : Monotone cast
  le_cast_iff : ∀ tick ∈ ticks, ∀ x, 0 < tick → (tick ≤ cast x ↔ tick ≤ x)
  cast_mul_le : ∀ tick ∈ ticks, ∀ x part, 0 ≤ part → part ≤ 1 →
    part * tick ∈ ticks → cast x ≤ tick → cast (part * x) ≤ part * tick

variable {x : ℚ}

namespace DurationCast

def truncate (x : ℚ) : ℤ := if 0 ≤ x then ⌊x⌋ else ⌈x⌉

variable {n : ℤ}

theorem truncate_le (h : x ≤ n) : truncate x ≤ n := by
  unfold truncate
  split
  · exact Int.cast_le.1 ((Int.floor_le x).trans h)
  · exact Int.ceil_le.2 h

theorem truncate_monotone : Monotone truncate := by
  intro x y hxy
  unfold truncate
  split
  · next hx =>
    rw [if_pos (hx.trans hxy)]
    exact Int.floor_le_floor hxy
  next hx =>
  split
  · next hy =>
    have hx0 : ⌈x⌉ ≤ 0 := Int.ceil_le.2 (by exact_mod_cast (not_le.1 hx).le)
    exact hx0.trans (Int.floor_nonneg.2 hy)
  · exact Int.ceil_le_ceil hxy

theorem le_truncate_iff (hn : 0 < n) : n ≤ truncate x ↔ (n : ℚ) ≤ x := by
  have hp : (0 : ℚ) < n := Int.cast_pos.2 hn
  unfold truncate
  split
  · exact Int.le_floor
  next hx =>
  have hx0 : ⌈x⌉ ≤ 0 := Int.ceil_le.2 (by exact_mod_cast (not_le.1 hx).le)
  constructor
  · intro hle
    omega
  · intro hle
    linarith

theorem truncate_mul_le {part : ℚ} {m : ℤ} (hp : 0 ≤ part) (ho : part ≤ 1)
  (hm : part * n = m) (h : truncate x ≤ n) :
  truncate (part * x) ≤ m := by
  rcases hp.eq_or_lt with rfl | hpos
  · refine truncate_le ?_
    rw [← hm, zero_mul, zero_mul]
  by_cases hx : 0 ≤ x
  · rw [truncate, if_pos hx] at h
    have hlt : x < n + 1 := (Int.lt_floor_add_one x).trans_le
      (by exact_mod_cast Int.add_le_add_right h 1)
    have hmul : part * x < m + 1 := by
      rw [← hm]
      nlinarith
    rw [truncate, if_pos (mul_nonneg hp hx), ← Int.lt_add_one_iff]
    exact Int.floor_lt.2 (by exact_mod_cast hmul)
  · rw [truncate, if_neg hx] at h
    refine truncate_le ?_
    rw [← hm]
    exact mul_le_mul_of_nonneg_left (Int.ceil_le.1 h) hp

/-- `duration_cast` to whole microseconds. -/
def truncated : DurationCast where
  ticks := (Int.castAddHom ℚ).range
  intCast_mem n := ⟨n, rfl⟩
  cast x := truncate x
  cast_mem x := ⟨truncate x, rfl⟩
  monotone _ _ h := Int.cast_le.2 (truncate_monotone h)
  le_cast_iff := by
    rintro _ ⟨n, rfl⟩ x hpos
    exact Int.cast_le.trans (le_truncate_iff (Int.cast_pos.1 hpos))
  cast_mul_le := by
    rintro _ ⟨n, rfl⟩ x part hpart hone ⟨m, hm⟩ h
    have hle := truncate_mul_le hpart hone hm.symm (Int.cast_le.1 h)
    have hcast : ((truncate (part * x) : ℤ) : ℚ) ≤ m := Int.cast_le.2 hle
    exact hcast.trans_eq hm

end DurationCast

structure LimericBudget where
  interval : ℚ
  txStart : ℚ
  txOn : ℚ

namespace LimericBudget

def minInterval : ℚ := 25000

def maxInterval : ℚ := 1000000

def clampInterval (interval : ℚ) : ℚ := min (max interval minInterval) maxInterval

variable (cast : DurationCast)

def delay (b : LimericBudget) (now : ℚ) : ℚ :=
  if now ≥ b.txStart + b.interval then 0 else b.txStart + b.interval - now

def notify (_ : LimericBudget) (now : ℚ) (dutyCycle : UnitInterval) (txOn : ℚ) : LimericBudget where
  txStart := now
  txOn
  interval := clampInterval (cast.cast (txOn / dutyCycle.value))

def update (b : LimericBudget) (now : ℚ) (dutyCycle : UnitInterval) : LimericBudget :=
  let delay := b.txStart + b.interval - now
  if dutyCycle.value > 0 then
    if delay > 0 then
      let interval := b.txOn / dutyCycle.value * (delay / b.interval)
      { b with interval := clampInterval (cast.cast interval + now - b.txStart) }
    else
      let interval := b.txOn / dutyCycle.value
      { b with interval := clampInterval (cast.cast interval) }
  else { b with interval := maxInterval }

/-- There is a transmission in the distant past, `time_point::min`. -/
def create (now : ℚ) (dutyCycle : UnitInterval) : LimericBudget :=
  update cast ⟨minInterval, -2 ^ 63, 0⟩ now dutyCycle

def opens (b : LimericBudget) : ℚ := b.txStart + b.interval

theorem delay_eq_zero_iff (b : LimericBudget) (now : ℚ) : b.delay now = 0 ↔ b.opens ≤ now := by
  unfold delay opens
  split
  · next h => exact iff_of_true rfl h
  · next h =>
    refine iff_of_false (fun hz => h ?_) h
    exact (sub_eq_zero.1 hz).le

theorem minInterval_le_maxInterval : minInterval ≤ maxInterval := by decide +kernel

theorem minInterval_pos : 0 < minInterval := by decide +kernel

theorem clampInterval_mem (interval : ℚ) :
  clampInterval interval ∈ Set.Icc minInterval maxInterval :=
  ⟨le_min (le_max_right _ _) minInterval_le_maxInterval, min_le_right _ _⟩

theorem clampInterval_monotone : Monotone clampInterval := by
  intro x y hxy
  unfold clampInterval
  gcongr

variable {interval : ℚ} {b : LimericBudget}

theorem clampInterval_of_le (h : interval ≤ minInterval) :
  clampInterval interval = minInterval := by
  rw [clampInterval, max_eq_right h, min_eq_left minInterval_le_maxInterval]

theorem clampInterval_of_ge (h : maxInterval ≤ interval) :
  clampInterval interval = maxInterval := by
  rw [clampInterval, min_eq_right (le_max_of_le_left h)]

theorem clampInterval_of_mem (h : interval ∈ Set.Icc minInterval maxInterval) :
  clampInterval interval = interval := by
  rw [clampInterval, max_eq_left h.1, min_eq_left h.2]

variable {cast}

theorem clampInterval_mem_ticks (h : interval ∈ cast.ticks) :
  clampInterval interval ∈ cast.ticks := by
  have hmin : minInterval ∈ cast.ticks := cast.intCast_mem 25000
  have hm : maxInterval ∈ cast.ticks := cast.intCast_mem 1000000
  unfold clampInterval
  rcases min_choice (max interval minInterval) maxInterval with heq | heq
  · rw [heq]
    rcases max_choice interval minInterval with heq | heq
    · rwa [heq]
    · rwa [heq]
  · rwa [heq]

section Rescaled

variable {x interval start now : ℚ} (hinterval : interval ∈ cast.ticks)
  (hstart : start ∈ cast.ticks) (hnow : now ∈ cast.ticks) (hle : start ≤ now)
  (hdelay : 0 < start + interval - now)

include hinterval hstart hnow hle hdelay

theorem rescaled_le (h : cast.cast x ≤ interval) :
  cast.cast (x * ((start + interval - now) / interval)) + now - start ≤ interval := by
  have hpos : 0 < interval := by linarith
  have hp : (start + interval - now) / interval * interval =
      start + interval - now := div_mul_cancel₀ _ hpos.ne'
  have ht : (start + interval - now) / interval * interval ∈ cast.ticks := by
    rw [hp]
    exact cast.ticks.sub_mem (cast.ticks.add_mem hstart hinterval) hnow
  have hc := cast.cast_mul_le interval hinterval x
    ((start + interval - now) / interval) (by positivity) ((div_le_one hpos).2 (by linarith)) ht h
  rw [hp, mul_comm] at hc
  linarith

theorem le_rescaled (h : interval ≤ cast.cast x) : interval ≤
    cast.cast (x * ((start + interval - now) / interval)) + now - start := by
  have hp : 0 < interval := by linarith
  have ht : start + interval - now ∈ cast.ticks :=
    cast.ticks.sub_mem (cast.ticks.add_mem hstart hinterval) hnow
  have hx : interval ≤ x := (cast.le_cast_iff interval hinterval x hp).1 h
  have hs : start + interval - now ≤ x * ((start + interval - now) / interval) := by
    rw [mul_div_left_comm]
    exact le_mul_of_one_le_right hdelay.le ((one_le_div hp).2 hx)
  have hc := (cast.le_cast_iff _ ht _ hdelay).2 hs
  linarith

end Rescaled

theorem clampInterval_rescaled {start now : ℚ} (hstart : start ∈ cast.ticks)
  (hnow : now ∈ cast.ticks) (hle : start ≤ now)
  (hdelay : 0 < start + clampInterval (cast.cast x) - now) :
  clampInterval (cast.cast (x * ((start + clampInterval (cast.cast x) - now) /
      clampInterval (cast.cast x))) + now - start) = clampInterval (cast.cast x) := by
  have ht := clampInterval_mem_ticks (cast.cast_mem x)
  have hup : cast.cast x ≤ clampInterval (cast.cast x) → _ := rescaled_le ht hstart hnow hle hdelay
  have hlo : clampInterval (cast.cast x) ≤ cast.cast x → _ := le_rescaled ht hstart hnow hle hdelay
  rcases le_total (cast.cast x) minInterval with hmin | hmin
  · -- raised to the lower limit
    have heq := clampInterval_of_le hmin
    rw [heq] at hup ⊢
    exact clampInterval_of_le (hup hmin)
  rcases le_total maxInterval (cast.cast x) with hm | hm
  · -- cut to the upper limit
    have heq := clampInterval_of_ge hm
    rw [heq] at hlo ⊢
    exact clampInterval_of_ge (hlo hm)
  · have heq := clampInterval_of_mem ⟨hmin, hm⟩
    rw [heq] at hup hlo ⊢
    rw [le_antisymm (hup le_rfl) (hlo le_rfl), heq]

theorem update_of_unchanged {now : ℚ} {dutyCycle : UnitInterval}
  (hp : 0 < dutyCycle.value) (hinterval : b.interval =
    clampInterval (cast.cast (b.txOn / dutyCycle.value)))
  (hstart : b.txStart ∈ cast.ticks) (hnow : now ∈ cast.ticks)
  (hle : b.txStart ≤ now) : b.update cast now dutyCycle = b := by
  unfold update
  dsimp only
  rw [if_pos hp]
  split
  · next hdelay =>
    rw [hinterval] at hdelay ⊢
    rw [clampInterval_rescaled hstart hnow hle hdelay, ← hinterval]
  · rw [← hinterval]

theorem update_eq (cast : DurationCast) (b : LimericBudget) (now : ℚ)
  (dutyCycle : UnitInterval) : ∃ interval ∈ Set.Icc minInterval maxInterval,
    b.update cast now dutyCycle = { b with interval } := by
  unfold update
  dsimp only
  split
  · split
    · exact ⟨_, clampInterval_mem _, rfl⟩
    · exact ⟨_, clampInterval_mem _, rfl⟩
  · exact ⟨_, ⟨minInterval_le_maxInterval, le_rfl⟩, rfl⟩

structure Follows (b : LimericBudget) (start txOn : ℚ) : Prop where
  txStart : b.txStart = start
  txOn : b.txOn = txOn
  interval : b.interval ∈ Set.Icc minInterval maxInterval

namespace Follows

variable {b : LimericBudget} {start txOn : ℚ}

theorem update (h : b.Follows start txOn) (now : ℚ) (dutyCycle : UnitInterval) :
  (b.update cast now dutyCycle).Follows start txOn := by
  obtain ⟨interval, hm, heq⟩ := update_eq cast b now dutyCycle
  rw [heq]
  exact ⟨h.txStart, h.txOn, hm⟩

theorem opens_mem (h : b.Follows start txOn) :
  b.opens ∈ Set.Icc (start + 25000) (start + 1000000) := by
  unfold opens
  rw [h.txStart]
  exact ⟨add_le_add_right h.interval.1 start, add_le_add_right h.interval.2 start⟩

end Follows

theorem update_antitone (ht : 0 ≤ b.txOn) (hinterval : 0 ≤ b.interval)
  (now : ℚ) {d₁ d₂ : UnitInterval} (hle : d₁ ≤ d₂) :
  (b.update cast now d₂).interval ≤ (b.update cast now d₁).interval := by
  by_cases hp : 0 < d₁.value
  · have hp₂ : 0 < d₂.value := hp.trans_le hle
    have hd : b.txOn / d₂.value ≤ b.txOn / d₁.value := div_le_div_of_nonneg_left ht hp hle
    unfold update
    dsimp only
    rw [if_pos hp, if_pos hp₂]
    split
    · next hdelay =>
      refine clampInterval_monotone ?_
      have hc := cast.monotone (mul_le_mul_of_nonneg_right hd (div_nonneg hdelay.le hinterval))
      linarith
    · exact clampInterval_monotone (cast.monotone hd)
  · obtain ⟨interval, hm, heq⟩ := update_eq cast b now d₂
    rw [heq, update, if_neg hp]
    exact hm.2

/-- After a transmission, updates do not move the opening of the gate while the
duty cycle stays as it is; a lower duty cycle never opens it earlier than a
higher one; and it always opens after 25 ms at the earliest and after one second
at the latest. -/
theorem gate_after_transmission (cast : DurationCast) (b : LimericBudget)
  (start : ℚ) (hstart : start ∈ cast.ticks) (dutyCycle : UnitInterval)
  (hpos : 0 < dutyCycle.value) (txOn : ℚ) (htxOn : 0 ≤ txOn) :
  let notified := b.notify cast start dutyCycle txOn
  (∀ times : List ℚ, (∀ now ∈ times, now ∈ cast.ticks ∧ start ≤ now) →
    (run (fun b now => update cast b now dutyCycle) notified times).opens = notified.opens) ∧
  ∀ (updates : List (ℚ × UnitInterval)) (now : ℚ),
    let before := run (fun b u => update cast b u.1 u.2) notified updates
    (∀ d₁ d₂, d₁ ≤ d₂ → (before.update cast now d₂).opens ≤ (before.update cast now d₁).opens) ∧
    ∀ d, (before.update cast now d).opens ∈ Set.Icc (start + 25000) (start + 1000000) := by
  intro notified
  refine ⟨fun times ht => ?_, fun updates now => ?_⟩
  · have hstep : ∀ b now, b = notified → now ∈ cast.ticks ∧ start ≤ now →
        update cast b now dutyCycle = notified := by
      rintro _ now rfl ⟨hnow, hle⟩
      exact update_of_unchanged hpos rfl hstart hnow hle
    rw [Run.ofKind hstep rfl ht]
  · intro before
    have hn : notified.Follows start txOn := ⟨rfl, rfl, clampInterval_mem _⟩
    have hstep : ∀ (b : LimericBudget) (u : ℚ × UnitInterval),
        b.Follows start txOn → (b.update cast u.1 u.2).Follows start txOn :=
      fun b u h => h.update u.1 u.2
    have hb : before.Follows start txOn := Run.always hstep hn
    refine ⟨fun d₁ d₂ hle => ?_, fun d => (hb.update now d).opens_mem⟩
    have hinterval := minInterval_pos.le.trans hb.interval.1
    have ha : (before.update cast now d₂).interval ≤ _ :=
      update_antitone (hb.txOn ▸ htxOn) hinterval now hle
    unfold opens
    rw [(hb.update now d₁).txStart, (hb.update now d₂).txStart]
    exact add_le_add_right ha start

theorem gate_after_two_milliseconds :
  let notified := (create .truncated 0 (.ofRat (1 / 50))).notify .truncated 5000 (.ofRat (1 / 50)) 2000
  (run (fun b now => update .truncated b now (.ofRat (1 / 50))) notified
    [65000, 5001]).opens = 105000 :=
  ((gate_after_transmission .truncated (create .truncated 0 (.ofRat (1 / 50))) 5000
    ⟨5000, rfl⟩ (.ofRat (1 / 50)) (by decide +kernel) 2000
    (by decide +kernel)).1 [65000, 5001]
    (List.forall_mem_cons.2 ⟨⟨⟨65000, rfl⟩, by norm_num⟩,
      List.forall_mem_singleton.2 ⟨⟨5001, rfl⟩, by norm_num⟩⟩)).trans (by decide +kernel)

inductive Transmitting where
  | update (now : ℚ) (dutyCycle : UnitInterval)
  | send (now : ℚ) (dutyCycle : UnitInterval) (txOn : ℚ)

/-- A sender that asks for the delay first; its transmissions are kept, the last one first. -/
def transmit (cast : DurationCast) (s : LimericBudget × List ℚ) :
  Transmitting → LimericBudget × List ℚ
  | .update now dutyCycle => (s.1.update cast now dutyCycle, s.2)
  | .send now dutyCycle txOn =>
    if s.1.delay now = 0 then (s.1.notify cast now dutyCycle txOn, now :: s.2) else s

def Spaced (s : LimericBudget × List ℚ) : Prop :=
  s.2.IsChain (fun later earlier => earlier + 25000 ≤ later) ∧
    ∀ last ∈ s.2.head?, s.1.Follows last s.1.txOn

theorem spaced_transmit {s : LimericBudget × List ℚ} (step : Transmitting) (h : Spaced s) :
  Spaced (transmit cast s step) := by
  obtain ⟨hc, hf⟩ := h
  cases step with
  | update now dutyCycle =>
    refine ⟨hc, fun last hl => ?_⟩
    have hu : (s.1.update cast now dutyCycle).Follows last _ := (hf last hl).update now dutyCycle
    exact ⟨hu.txStart, rfl, hu.interval⟩
  | send now dutyCycle txOn =>
    rw [transmit]
    split
    · next hd =>
      rw [delay_eq_zero_iff] at hd
      refine ⟨List.isChain_cons.2 ⟨fun last hl => ?_, hc⟩, ?_⟩
      · exact (hf last hl).opens_mem.1.trans hd
      · rintro _ ⟨⟩
        exact ⟨rfl, rfl, clampInterval_mem _⟩
    · exact ⟨hc, hf⟩

/-- However duty cycles and updates come, two transmissions are never closer than 25 ms, and the
gate is open again one second after the last one. -/
theorem transmissions_spaced (cast : DurationCast) (now : ℚ) (dutyCycle : UnitInterval)
  (steps : List Transmitting) :
  let s := run (transmit cast) (create cast now dutyCycle, []) steps
  s.2.IsChain (fun later earlier => earlier + 25000 ≤ later) ∧
    ∀ last ∈ s.2.head?, ∀ t, last + 1000000 ≤ t → s.1.delay t = 0 := by
  intro s
  have hi : Spaced (create cast now dutyCycle, []) := ⟨.nil, by simp⟩
  have hs : Spaced s := Run.always (fun _ step => spaced_transmit step) hi
  refine ⟨hs.1, fun last hl t ht => ?_⟩
  exact (delay_eq_zero_iff _ _).2 ((hs.2 last hl).opens_mem.2.trans ht)

end LimericBudget

end Vanetza.Dcc
