import Mathlib

/-!
# Numbers between zero and one

`UnitInterval` keeps a number within the unit interval: whatever leaves it is
set to the nearest end. Numbers are exact here, and they are compared exactly.
Of the comparisons only `<` and what follows from it is used; `==`, which has
some tolerance, is not.
-/

namespace Vanetza

structure UnitInterval where
  value : ℚ
  nonneg : 0 ≤ value
  le_one : value ≤ 1
  deriving DecidableEq

namespace UnitInterval

theorem value_injective : Function.Injective value := by
  rintro ⟨x, _, _⟩ ⟨y, _, _⟩ h
  cases h
  rfl

instance : LinearOrder UnitInterval := LinearOrder.lift' value value_injective

theorem le_iff {x y : UnitInterval} : x ≤ y ↔ x.value ≤ y.value := Iff.rfl

theorem value_monotone : Monotone value := fun _ _ h => h

theorem value_max (x y : UnitInterval) : (max x y).value = max x.value y.value :=
  value_monotone.map_max

theorem value_min (x y : UnitInterval) : (min x y).value = min x.value y.value :=
  value_monotone.map_min

def clamp (v : ℚ) : ℚ := if v > 1 then 1 else if v < 0 then 0 else v

theorem clamp_eq (v : ℚ) : clamp v = max 0 (min v 1) := by
  unfold clamp
  split
  · next h => rw [min_eq_right h.le, max_eq_right zero_le_one]
  next h =>
  rw [min_eq_left (not_lt.1 h)]
  split
  · next hn => rw [max_eq_left hn.le]
  · next hp => rw [max_eq_right (not_lt.1 hp)]

theorem clamp_nonneg (v : ℚ) : 0 ≤ clamp v := by
  rw [clamp_eq]
  exact le_max_left _ _

theorem clamp_le_one (v : ℚ) : clamp v ≤ 1 := by
  rw [clamp_eq]
  exact max_le zero_le_one (min_le_right _ _)

theorem clamp_of_mem {v : ℚ} (h0 : 0 ≤ v) (h1 : v ≤ 1) : clamp v = v := by
  rw [clamp_eq, min_eq_left h1, max_eq_right h0]

theorem min_max_clamp (v : ℚ) (lower upper : UnitInterval) :
  min (max (clamp v) lower.value) upper.value = min (max v lower.value) upper.value := by
  have hlo := lower.nonneg
  have hup := upper.le_one
  unfold clamp
  split
  · next h =>
    rw [min_eq_right (le_max_of_le_left hup), min_eq_right (le_max_of_le_left (hup.trans h.le))]
  · split
    · next h => rw [max_eq_right hlo, max_eq_right (h.le.trans hlo)]
    · rfl

def ofRat (v : ℚ) : UnitInterval := ⟨clamp v, clamp_nonneg v, clamp_le_one v⟩

theorem ofRat_value (x : UnitInterval) : ofRat x.value = x :=
  value_injective (clamp_of_mem x.nonneg x.le_one)

/-- `operator+=`, with a unit interval or with a `double` -/
def add (x : UnitInterval) (v : ℚ) : UnitInterval := ofRat (x.value + v)

def sub (x : UnitInterval) (v : ℚ) : UnitInterval := ofRat (x.value - v)

def scale (v : ℚ) (x : UnitInterval) : UnitInterval := ofRat (x.value * v)

/-- `operator*=` of unit intervals remains within range. -/
def mul (x y : UnitInterval) : UnitInterval where
  value := x.value * y.value
  nonneg := mul_nonneg x.nonneg y.nonneg
  le_one := mul_le_one₀ x.le_one y.nonneg y.le_one

def complement (x : UnitInterval) : UnitInterval where
  value := 1 - x.value
  nonneg := sub_nonneg.2 x.le_one
  le_one := sub_le_self 1 x.nonneg

def mean (lhs rhs : UnitInterval) : UnitInterval := ofRat (1 / 2 * (lhs.value + rhs.value))

def meanOf (range : List UnitInterval) : UnitInterval :=
  let accu := (range.map value).foldl (· + ·) 0
  ofRat (if range.length > 1 then accu / range.length else accu)

theorem meanOf_eq {range : List UnitInterval} {x : UnitInterval}
  (h : ∀ y ∈ range, y = x) (hne : range ≠ []) : meanOf range = x := by
  obtain ⟨n, rfl⟩ : ∃ n, range = List.replicate n x := ⟨_, List.eq_replicate_of_mem h⟩
  have hs : ((List.replicate n x).map value).foldl (· + ·) 0 = n * x.value := by
    rw [← List.sum_eq_foldl, List.map_replicate, List.sum_replicate, nsmul_eq_mul]
  have hn : n ≠ 0 := fun hz => hne (by rw [hz, List.replicate_zero])
  unfold meanOf
  dsimp only
  rw [hs, List.length_replicate]
  split
  · rw [mul_div_cancel_left₀ _ (Nat.cast_ne_zero.2 hn)]
    exact ofRat_value x
  · obtain rfl : n = 1 := by omega
    rw [Nat.cast_one, one_mul]
    exact ofRat_value x

theorem half_add_half (x : UnitInterval) : (scale (1 / 2) x).add (scale (1 / 2) x).value = x := by
  have h0 := x.nonneg
  have h1 := x.le_one
  have hh : (scale (1 / 2) x).value = x.value * (1 / 2) := clamp_of_mem (by linarith) (by linarith)
  refine value_injective ?_
  change clamp ((scale (1 / 2) x).value + (scale (1 / 2) x).value) = x.value
  rw [hh, clamp_of_mem (by linarith) (by linarith)]
  ring

end UnitInterval

end Vanetza
