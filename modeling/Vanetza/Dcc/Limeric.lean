import Vanetza.Common.UnitInterval
import Vanetza.Lib.CircularBuffer
import Vanetza.Lib.Run

/-!
# LIMERIC

`Limeric` adapts the duty cycle a station may use to the load of the channel: periodically the
measurements are averaged, and the new duty cycle is part of the old one plus an offset, kept within
the limits.
-/

namespace Vanetza.Dcc

open Lib UnitInterval

namespace Limeric

structure Parameters where
  alpha : UnitInterval
  beta : UnitInterval
  deltaMax : UnitInterval
  deltaMin : UnitInterval
  gPlusMax : ℚ
  gMinusMax : ℚ
  cbrTarget : UnitInterval
  cbrInterval : Int

def Parameters.default : Parameters where
  alpha := .ofRat (16 / 1000)
  beta := .ofRat (12 / 10000)
  deltaMax := .ofRat (3 / 100)
  deltaMin := .ofRat (6 / 10000)
  gPlusMax := 5 / 10000
  gMinusMax := -25 / 100000
  cbrTarget := .ofRat (68 / 100)
  cbrInterval := 100000

structure DualAlphaParameters where
  alternateAlpha : UnitInterval
  threshold : UnitInterval

end Limeric

open Limeric in
structure Limeric where
  params : Parameters
  dualAlpha : Option DualAlphaParameters
  channelLoad : UnitInterval
  dutyCycle : UnitInterval
  cbr : CircularBuffer UnitInterval

namespace Limeric

def create (params : Parameters) : Limeric where
  params
  dualAlpha := none
  channelLoad := .ofRat 0
  dutyCycle := .mean params.deltaMax params.deltaMin
  cbr := .create 2

def averageCbr (l : Limeric) : UnitInterval :=
  if l.cbr.isFull then
    (UnitInterval.scale (1 / 2) (.meanOf l.cbr.items)).add
      (UnitInterval.scale (1 / 2) l.channelLoad).value
  else l.channelLoad

def updateCbr (l : Limeric) (cbr : UnitInterval) : Limeric :=
  let full := l.cbr.isFull
  let l := { l with cbr := l.cbr.pushBack cbr }
  if full then l else { l with channelLoad := .meanOf l.cbr.items }

def configureDualAlpha (l : Limeric) (params : Option DualAlphaParameters) : Limeric :=
  { l with dualAlpha := params }

def deltaOffset (params : Parameters) (channelLoad : UnitInterval) : ℚ :=
  let cbrDelta := params.cbrTarget.value - channelLoad.value
  if cbrDelta > 0 then min (params.beta.value * cbrDelta) params.gPlusMax
  else max (params.beta.value * cbrDelta) params.gMinusMax

/-- The next duty cycle with an `alpha`, within its limits. -/
def nextDelta (params : Parameters) (alpha dutyCycle : UnitInterval) (offset : ℚ) : UnitInterval :=
  min (max ((alpha.complement.mul dutyCycle).add offset) params.deltaMin) params.deltaMax

def calculateDutyCycle (l : Limeric) : UnitInterval :=
  let offset := deltaOffset l.params l.channelLoad
  let delta := nextDelta l.params l.params.alpha l.dutyCycle offset
  match l.dualAlpha with
  | none => delta
  | some dual =>
    if l.dutyCycle.sub delta.value > dual.threshold then
      nextDelta l.params dual.alternateAlpha l.dutyCycle offset
    else delta

/-- `calculate`, without its hook and the next scheduling -/
def calculate (l : Limeric) : Limeric :=
  let l := { l with channelLoad := l.averageCbr }
  { l with dutyCycle := l.calculateDutyCycle }

/-- When `schedule` wants the next calculation: a multiple of two intervals. -/
def schedulingTime (l : Limeric) (now : Int) : Int :=
  let schedulingInterval := 2 * l.params.cbrInterval
  let tp := now + schedulingInterval
  let schedulingBias := tp.tmod schedulingInterval
  if schedulingBias > l.params.cbrInterval then
    tp + (schedulingInterval - schedulingBias)
  else if schedulingBias > 0 then tp - schedulingBias
  else tp

theorem value_nextDelta (params : Parameters) (alpha dutyCycle : UnitInterval) (offset : ℚ) :
  (nextDelta params alpha dutyCycle offset).value =
    min (max ((1 - alpha.value) * dutyCycle.value + offset)
      params.deltaMin.value) params.deltaMax.value := by
  rw [nextDelta, value_min, value_max]
  exact min_max_clamp _ _ _

def next (params : Parameters) (load dutyCycle : UnitInterval) : UnitInterval :=
  nextDelta params params.alpha dutyCycle (deltaOffset params load)

section Next

variable (params : Parameters) (load : UnitInterval)

theorem next_monotone : Monotone (next params load) := by
  intro x y hxy
  rw [le_iff] at hxy ⊢
  rw [next, next, value_nextDelta, value_nextDelta]
  have ha : 0 ≤ 1 - params.alpha.value := params.alpha.complement.nonneg
  gcongr

end Next

variable {f : UnitInterval → UnitInterval} {x : UnitInterval} {params : Parameters}

theorem deltaOffset_antitone (hp : 0 ≤ params.gPlusMax) (hm : params.gMinusMax ≤ 0) :
  Antitone (deltaOffset params) := by
  intro c₁ c₂ hc
  rw [le_iff] at hc
  have hb := params.beta.nonneg
  have hmul : params.beta.value * (params.cbrTarget.value - c₂.value) ≤
      params.beta.value * (params.cbrTarget.value - c₁.value) :=
    mul_le_mul_of_nonneg_left (by linarith) hb
  unfold deltaOffset
  dsimp only
  split
  · next h₂ =>
    rw [if_pos (by linarith)]
    exact min_le_min hmul le_rfl
  next h₂ =>
  split
  · next h₁ =>
    have hle : params.beta.value * (params.cbrTarget.value - c₂.value) ≤ 0 :=
      mul_nonpos_of_nonneg_of_nonpos hb (not_lt.1 h₂)
    have hge : 0 ≤ params.beta.value * (params.cbrTarget.value - c₁.value) := mul_nonneg hb h₁.le
    exact (max_le hle hm).trans (le_min hge hp)
  · exact max_le_max hmul le_rfl

theorem next_antitone (hp : 0 ≤ params.gPlusMax)
  (hm : params.gMinusMax ≤ 0) (dutyCycle : UnitInterval) :
  Antitone fun load => next params load dutyCycle := by
  intro c₁ c₂ hc
  have ho := deltaOffset_antitone hp hm hc
  rw [le_iff]
  dsimp only
  rw [next, next, value_nextDelta, value_nextDelta]
  gcongr

section Limits

variable {params : Parameters} (hdelta : params.deltaMin ≤ params.deltaMax)

include hdelta

theorem next_mem (load dutyCycle : UnitInterval) :
  next params load dutyCycle ∈ Set.Icc params.deltaMin params.deltaMax :=
  ⟨le_min (le_max_right _ _) hdelta, min_le_right _ _⟩

/-- There is a duty cycle that stays as it is: one of the limits, or a number in
between where the offset makes up for what `alpha` takes away. -/
theorem exists_fixedPoint (load : UnitInterval) :
  ∃ p ∈ Set.Icc params.deltaMin params.deltaMax, next params load p = p := by
  have hle : params.deltaMin.value ≤ params.deltaMax.value := hdelta
  have ha := params.alpha.nonneg
  by_cases hup : params.alpha.value * params.deltaMax.value ≤ deltaOffset params load
  · refine ⟨params.deltaMax, ⟨hdelta, le_rfl⟩, value_injective ?_⟩
    rw [next, value_nextDelta, min_eq_right]
    exact le_max_of_le_left (by linarith)
  by_cases hlo : deltaOffset params load ≤ params.alpha.value * params.deltaMin.value
  · refine ⟨params.deltaMin, ⟨le_rfl, hdelta⟩, value_injective ?_⟩
    rw [next, value_nextDelta, max_eq_right (by linarith), min_eq_left hle]
  have hp : 0 < params.alpha.value := by
    refine lt_of_le_of_ne ha fun hz => ?_
    rw [← hz] at hup hlo
    linarith
  have hmin : params.deltaMin.value ≤ deltaOffset params load / params.alpha.value := by
    rw [le_div_iff₀ hp]
    linarith
  have hm : deltaOffset params load / params.alpha.value ≤ params.deltaMax.value := by
    rw [div_le_iff₀ hp]
    linarith
  refine ⟨⟨_, params.deltaMin.nonneg.trans hmin,
    hm.trans params.deltaMax.le_one⟩, ⟨hmin, hm⟩, value_injective ?_⟩
  rw [next, value_nextDelta]
  dsimp only
  have hf : (1 - params.alpha.value) * (deltaOffset params load / params.alpha.value) +
        deltaOffset params load = deltaOffset params load / params.alpha.value := by
    field_simp
    ring
  rw [hf, max_eq_left hmin, min_eq_left hm]

end Limits

inductive Action where
  | report (cbr : UnitInterval)
  | calculate

def permits : Limeric → List Action → List UnitInterval
  | l, [] => [l.dutyCycle]
  | l, .report cbr :: rest => permits (l.updateCbr cbr) rest
  | l, .calculate :: rest => l.dutyCycle :: permits l.calculate rest

def Constant (load : UnitInterval) (actions : List Action) : Prop :=
  actions.head? = some (.report load) ∧ ∀ cbr, .report cbr ∈ actions → cbr = load

structure Steady (params : Parameters) (load : UnitInterval) (l : Limeric) : Prop where
  params_eq : l.params = params
  dualAlpha : l.dualAlpha = none
  channelLoad : l.channelLoad = load
  capacity : l.cbr.capacity = 2
  cbr : ∀ cbr ∈ l.cbr.items, cbr = load

section Constant

variable {params : Parameters} {load : UnitInterval} {l : Limeric}

theorem Steady.averageCbr (h : Steady params load l) : l.averageCbr = load := by
  unfold Limeric.averageCbr
  split
  · next hfull =>
    have hne : l.cbr.items ≠ [] := by
      intro hn
      have hl := CircularBuffer.isFull_iff.1 hfull
      rw [hn, h.capacity] at hl
      cases hl
    rw [meanOf_eq h.cbr hne, h.channelLoad]
    exact load.half_add_half
  · exact h.channelLoad

theorem Steady.of_report (hp : l.params = params)
  (hd : l.dualAlpha = none) (hc : l.cbr.capacity = 2)
  (hcbr : ∀ cbr ∈ l.cbr.items, cbr = load) (hfull : l.cbr.isFull = true → l.channelLoad = load) :
  Steady params load (l.updateCbr load) := by
  have hits : ∀ cbr ∈ (l.cbr.pushBack load).items, cbr = load := by
    intro cbr hm
    rcases CircularBuffer.mem_pushBack hm with hm | rfl
    · exact hcbr cbr hm
    · rfl
  unfold Limeric.updateCbr
  dsimp only
  split
  · next h => exact ⟨hp, hd, hfull h, hc, hits⟩
  next h =>
  have hne : (l.cbr.pushBack load).items ≠ [] := by
    rw [CircularBuffer.items_pushBack_of_not_full (by simpa using h)]
    exact List.append_ne_nil_of_right_ne_nil _ (List.cons_ne_nil _ _)
  exact ⟨hp, hd, meanOf_eq hits hne, hc, hits⟩

theorem Steady.updateCbr (h : Steady params load l) : Steady params load (l.updateCbr load) :=
  .of_report h.params_eq h.dualAlpha h.capacity h.cbr fun _ => h.channelLoad

theorem dutyCycle_updateCbr (l : Limeric) (cbr : UnitInterval) :
  (l.updateCbr cbr).dutyCycle = l.dutyCycle := by
  unfold Limeric.updateCbr
  dsimp only
  split <;> rfl

theorem Steady.calculate (h : Steady params load l) : Steady params load l.calculate :=
  ⟨h.params_eq, h.dualAlpha, h.averageCbr, h.capacity, h.cbr⟩

theorem Steady.dutyCycle_calculate (h : Steady params load l) :
  l.calculate.dutyCycle = next params load l.dutyCycle := by
  unfold Limeric.calculate calculateDutyCycle
  dsimp only
  rw [h.dualAlpha, h.averageCbr, h.params_eq]
  rfl

variable {actions : List Action}

theorem Steady.permits_eq (h : Steady params load l)
  (ha : ∀ cbr, .report cbr ∈ actions → cbr = load) :
  ∃ n, permits l actions = List.iterate (next params load) l.dutyCycle (n + 1) := by
  induction actions generalizing l with
  | nil => exact ⟨0, rfl⟩
  | cons act rest ih =>
    have hr : ∀ cbr, .report cbr ∈ rest → cbr = load :=
      fun cbr hm => ha cbr (List.mem_cons_of_mem _ hm)
    cases act with
    | report cbr =>
      obtain rfl := ha cbr List.mem_cons_self
      obtain ⟨n, hn⟩ := ih h.updateCbr hr
      rw [dutyCycle_updateCbr] at hn
      exact ⟨n, hn⟩
    | calculate =>
      obtain ⟨n, hn⟩ := ih h.calculate hr
      rw [h.dutyCycle_calculate] at hn
      exact ⟨n + 1, congrArg (l.dutyCycle :: ·) hn⟩

def startingAt (params : Parameters) (start : UnitInterval) : Limeric :=
  { create params with dutyCycle := start }

theorem permits_startingAt (start : UnitInterval) (ha : Constant load actions) :
  ∃ n, permits (startingAt params start) actions =
    List.iterate (next params load) start (n + 1) := by
  obtain ⟨hh, hall⟩ := ha
  obtain ⟨rest, rfl⟩ := List.head?_eq_some_iff.1 hh
  have hs : Steady params load ((startingAt params start).updateCbr load) :=
    .of_report rfl rfl rfl (by rintro _ ⟨⟩) (by rintro ⟨⟩)
  obtain ⟨n, hn⟩ := hs.permits_eq fun cbr hm => hall cbr (List.mem_cons_of_mem _ hm)
  rw [dutyCycle_updateCbr] at hn
  exact ⟨n, hn⟩

end Constant

theorem pairwise_iterate {r : UnitInterval → UnitInterval → Prop} (n : Nat)
  (h : ∀ i j, i ≤ j → r (f^[i] x) (f^[j] x)) :
  (List.iterate f x n).Pairwise r := by
  rw [← List.range_map_iterate, List.pairwise_map]
  exact List.pairwise_le_range.imp fun {i j} hij => h i j hij

theorem iterate_sorted (hf : Monotone f) (x : UnitInterval) (n : Nat) :
  (List.iterate f x n).Pairwise (· ≤ ·) ∨ (List.iterate f x n).Pairwise (· ≥ ·) := by
  rcases le_total x (f x) with h | h
  · exact .inl (pairwise_iterate n fun _ _ hij =>
      hf.monotone_iterate_of_le_map h hij)
  · exact .inr (pairwise_iterate n fun _ _ hij =>
      hf.antitone_iterate_of_map_le h hij)

theorem iterate_mem_of_mapsTo {s : Set UnitInterval} (hf : ∀ x, f x ∈ s)
  (hx : x ∈ s) (n : Nat) : ∀ d ∈ List.iterate f x n, d ∈ s := by
  intro d hd
  obtain ⟨i, -, rfl⟩ := List.mem_iterate.1 hd
  cases i with
  | zero => exact hx
  | succ i =>
    rw [Function.iterate_succ_apply']
    exact hf _

theorem iterate_le_fixedPoint (hf : Monotone f) {p : UnitInterval} (hp : f p = p) (n : Nat) :
  (x ≤ p → ∀ d ∈ List.iterate f x n, d ≤ p) ∧ (p ≤ x → ∀ d ∈ List.iterate f x n, p ≤ d) := by
  have hfix (i : Nat) : f^[i] p = p := Function.iterate_fixed hp i
  refine ⟨fun hx d hd => ?_, fun hx d hd => ?_⟩
  · obtain ⟨i, -, rfl⟩ := List.mem_iterate.1 hd
    have hle := hf.iterate i hx
    rwa [hfix] at hle
  · obtain ⟨i, -, rfl⟩ := List.mem_iterate.1 hd
    have hle := hf.iterate i hx
    rwa [hfix] at hle

theorem iterate_of_getElem? {d : UnitInterval} {n i : Nat} (h : (List.iterate f x n)[i]? = some d) :
  f^[i] x = d := by
  obtain ⟨hlt, rfl⟩ := List.getElem?_eq_some_iff.1 h
  exact (List.getElem_iterate f x n i hlt).symm

/-- While the load stays as it is, the duty cycle moves one way only, within its
limits, towards the fixed point and never past it; a higher load never permits a
higher duty cycle. -/
theorem duty_cycles_towards_fixedPoint (params : Parameters)
  (hdelta : params.deltaMin ≤ params.deltaMax)
  (hminus : params.gMinusMax ≤ 0) (hplus : 0 ≤ params.gPlusMax) (start : UnitInterval)
  (hstart : start ∈ Set.Icc params.deltaMin params.deltaMax)
  (load : UnitInterval) (actions : List Action) (hactions : Constant load actions) :
  let duties := permits (startingAt params start) actions
  (duties.Pairwise (· ≤ ·) ∨ duties.Pairwise (· ≥ ·)) ∧
  (∀ d ∈ duties, d ∈ Set.Icc params.deltaMin params.deltaMax) ∧
  (∃ p ∈ Set.Icc params.deltaMin params.deltaMax, next params load p = p) ∧
  (∀ p, next params load p = p → (start ≤ p → ∀ d ∈ duties, d ≤ p) ∧
    (p ≤ start → ∀ d ∈ duties, p ≤ d)) ∧
  ∀ load', load ≤ load' → ∀ actions', Constant load' actions' →
    ∀ (i : Nat) (d d' : UnitInterval), duties[i]? = some d →
      (permits (startingAt params start) actions')[i]? = some d' → d' ≤ d := by
  intro duties
  obtain ⟨n, hn⟩ := permits_startingAt start hactions
  have hm := next_monotone params load
  rw [show duties = _ from hn]
  refine ⟨iterate_sorted hm start _, iterate_mem_of_mapsTo (next_mem hdelta load) hstart _,
    exists_fixedPoint hdelta load, fun p hp => iterate_le_fixedPoint hm hp _, ?_⟩
  intro load' hl actions' hact' i d d' hd hd'
  obtain ⟨n', hn'⟩ := permits_startingAt start hact'
  rw [hn'] at hd'
  rw [← iterate_of_getElem? hd, ← iterate_of_getElem? hd']
  exact (next_monotone params load').iterate_le_of_le
    (fun x => next_antitone hplus hminus x hl) i start

theorem duty_cycles_under_half_load :
  let duties := permits (startingAt .default (.ofRat (1 / 100)))
    [.report (.ofRat (1 / 2)), .calculate, .calculate]
  duties.length = 3 ∧ (duties.Pairwise (· ≤ ·) ∨ duties.Pairwise (· ≥ ·)) :=
  ⟨rfl, (duty_cycles_towards_fixedPoint .default (by decide +kernel)
    (by decide +kernel) (by decide +kernel) (.ofRat (1 / 100))
    ⟨by decide +kernel, by decide +kernel⟩ (.ofRat (1 / 2))
    [.report (.ofRat (1 / 2)), .calculate, .calculate] ⟨rfl, by simp⟩).1⟩

end Limeric

end Vanetza.Dcc
