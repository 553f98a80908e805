import Vanetza.Facilities.PathHistory

/-!
# Mirrored and turned drives

Two drives with the same chord lengths and other headings. As long as every sample is tested with
the same outcome the concise points are the same, and they differ once it is not.
-/

namespace Vanetza.Facilities.PathHistory

open Lib List

variable {R : Type*} [LinearOrder R] [Zero R] [Add R]

/-- The starting point that the sample after the first `n` is tested with. -/
def tested (m : PathMeasure ℕ R) (n : ℕ) : Option ℕ :=
  if 2 ≤ n then (history m (range n)).concise.head? else none

theorem truncateConcisePoints_with (m : PathMeasure ℕ R) (actualError : ℕ → ℕ → R)
  (h : PathHistory ℕ) :
  truncateConcisePoints { m with actualError } h = truncateConcisePoints m h := by
  have ht : ∀ (dist : R) (prev : ℕ) (points : List ℕ),
      truncate { m with actualError } dist prev points = truncate m dist prev points := by
    intro dist prev points
    induction points generalizing dist prev with
    | nil => rfl
    | cons current rest ih => simp [truncate, ih]
  unfold truncateConcisePoints
  split <;> simp [ht]

theorem history_succ (m : PathMeasure ℕ R) (n : ℕ) :
  history m (range (n + 1)) = addSample m (history m (range n)) n := by
  rw [history, range_succ, Run.append]
  rfl

theorem history_eq {m other : PathMeasure ℕ R} {points : List ℕ}
  (h : (history m points).concise = (history other points).concise) :
  history m points = history other points := by
  have hs : ∀ m : PathMeasure ℕ R, (history m points).samples =
      points.foldl CircularBuffer.pushFront (.create 3) := by
    intro m
    clear h
    induction points using reverseRecOn with
    | nil => rfl
    | append_singleton points point ih =>
      rw [history, Run.append, foldl_append, ← ih]
      exact samples_addSample m _ point
  rw [show history m points = ⟨(history m points).samples, (history m points).concise⟩ from rfl,
    hs, h, ← hs other]

theorem addSample_with_iff (m : PathMeasure ℕ R) (actualError : ℕ → ℕ → R) (n : ℕ) :
  (addSample m (history m (range n)) n).concise =
      (addSample { m with actualError } (history m (range n)) n).concise ↔
    ∀ starting ∈ tested m n, (m.allowableError < m.actualError starting n ↔
      m.allowableError < actualError starting n) := by
  have hk := keeps_history m (range n)
  unfold tested
  by_cases hf : n < 2
  · rw [if_neg (by omega), hk.addSample_early (by simpa using hf),
      hk.addSample_early (by simpa using hf)]
    exact ⟨fun _ => nofun, fun _ => rfl⟩
  obtain ⟨k, rfl⟩ : ∃ k, n = k + 2 := ⟨n - 2, by omega⟩
  have hp : (range (k + 2)).reverse = (k + 1) :: k :: (range k).reverse := by simp [range_succ]
  obtain ⟨starting, rest, hc⟩ := exists_cons_of_ne_nil (hk.started (by simp))
  -- the starting point is older than the sample that may become a concise point
  have hne : starting ≠ k + 1 := by
    have ho := hk.older (by simp)
    rw [hp, hc] at ho
    have hm : starting ∈ k :: (range k).reverse := ho.subset mem_cons_self
    simp at hm
    omega
  rw [hk.addSample_third hp hc, hk.addSample_third hp hc,
    truncateConcisePoints_with, if_pos (Nat.le_add_left 2 k), hc]
  simp only [head?_cons, Option.mem_def, Option.some.injEq, forall_eq']
  constructor
  · intro heq
    have hh := congrArg head? heq
    rw [truncateConcisePoints_head, truncateConcisePoints_head] at hh
    by_cases hfst : m.allowableError < m.actualError starting (k + 2) <;>
      by_cases hs : m.allowableError < actualError starting (k + 2) <;>
      simp [hfst, hs, hne, hne.symm] at hh ⊢
  · intro hiff
    simp only [hiff, truncateConcisePoints_with]

theorem concise_with_iff (m : PathMeasure ℕ R) (actualError : ℕ → ℕ → R) (count : ℕ) :
  (∀ n ≤ count, (history m (range n)).concise =
      (history { m with actualError } (range n)).concise) ↔
    ∀ n < count, ∀ starting ∈ tested m n, (m.allowableError < m.actualError starting n ↔
      m.allowableError < actualError starting n) := by
  induction count with
  | zero =>
    refine ⟨fun _ => nofun, fun _ n hn => ?_⟩
    rw [Nat.le_zero.1 hn]
    rfl
  | succ count ih =>
    have hl : (∀ n ≤ count, (history m (range n)).concise =
        (history { m with actualError } (range n)).concise) →
        ((history m (range (count + 1))).concise =
            (history { m with actualError } (range (count + 1))).concise ↔
          ∀ starting ∈ tested m count, (m.allowableError < m.actualError starting count ↔
            m.allowableError < actualError starting count)) := by
      intro hs
      rw [history_succ, history_succ, ← history_eq (hs count le_rfl)]
      exact addSample_with_iff m actualError count
    simp only [Nat.forall_lt_succ_right, Nat.le_succ_iff, or_imp, forall_and, forall_eq]
    rw [← ih]
    exact and_congr_right hl

open Real

/-- In exact arithmetic; lengths are in metres, angles in radians. -/
noncomputable def actualError (chordLength deltaPhi : ℝ) : ℝ :=
  if 22.5 < chordLength then 0.47 + 1
  else if |deltaPhi| < π / 180 then 0
  else
    let estimatedRadius := chordLength / (2 * sin (deltaPhi * 0.5))
    let d := estimatedRadius * cos (0.5 * deltaPhi)
    estimatedRadius - d

/-- Nothing is divided by zero. -/
def HasError (chordLength deltaPhi : ℝ) : Prop :=
  chordLength ≤ 22.5 → π / 180 ≤ |deltaPhi| → sin (deltaPhi * 0.5) ≠ 0

/-- What is computed of a drive whose samples are numbered. -/
noncomputable def drive (chordLength : ℕ → ℕ → ℝ) (heading : ℕ → ℝ) : PathMeasure ℕ ℝ where
  chordLength
  actualError starting next :=
    actualError (chordLength starting next) (heading next - heading starting)
  allowableError := 0.47
  distance := 200

/-- The errors of both drives have values, and the concise points are the same at any
time. -/
structure RecordedAlike (chordLength : ℕ → ℕ → ℝ) (heading other : ℕ → ℝ) (count : ℕ) : Prop where
  concise : ∀ n ≤ count, (history (drive chordLength heading) (range n)).concise =
    (history (drive chordLength other) (range n)).concise
  first : ∀ n < count, ∀ starting ∈ tested (drive chordLength heading) n,
    HasError (chordLength starting n) (heading n - heading starting)
  second : ∀ n < count, ∀ starting ∈ tested (drive chordLength other) n,
    HasError (chordLength starting n) (other n - other starting)

variable {chordLength : ℕ → ℕ → ℝ} {heading other : ℕ → ℝ} {count : ℕ}

theorem recordedAlike_iff_tests : RecordedAlike chordLength heading other count ↔
  ∀ n < count, ∀ starting ∈ tested (drive chordLength heading) n,
    HasError (chordLength starting n) (heading n - heading starting) ∧
    HasError (chordLength starting n) (other n - other starting) ∧
    (0.47 < actualError (chordLength starting n) (heading n - heading starting) ↔
      0.47 < actualError (chordLength starting n) (other n - other starting)) := by
  have hc := concise_with_iff (drive chordLength heading)
    (drive chordLength other).actualError count
  have ht : (∀ n ≤ count, (history (drive chordLength heading) (range n)).concise =
      (history (drive chordLength other) (range n)).concise) →
      ∀ n < count, tested (drive chordLength other) n = tested (drive chordLength heading) n := by
    intro hs n hn
    rw [tested, tested, hs n hn.le]
  constructor
  · intro h n hn starting hstar
    refine ⟨h.first n hn starting hstar, h.second n hn starting ?_,
      hc.1 h.concise n hn starting hstar⟩
    rwa [ht h.concise n hn]
  intro h
  have hs := hc.2 fun n hn starting hstar => (h n hn starting hstar).2.2
  refine ⟨hs, fun n hn starting hstar => (h n hn starting hstar).1, fun n hn starting hstar => ?_⟩
  rw [ht hs n hn] at hstar
  exact (h n hn starting hstar).2.1

theorem actualError_neg {chord deltaPhi : ℝ} (h : chord ≤ 22.5) :
  actualError chord (-deltaPhi) = -actualError chord deltaPhi := by
  simp only [actualError, abs_neg, if_neg h.not_gt]
  split
  · exact neg_zero.symm
  · rw [neg_mul, mul_neg, sin_neg, cos_neg, mul_neg, div_neg]
    ring

theorem hasError_neg {chord deltaPhi : ℝ} :
  HasError chord (-deltaPhi) ↔ HasError chord deltaPhi := by
  simp only [HasError, abs_neg, neg_mul, sin_neg, ne_eq, neg_eq_zero]

theorem exceeds_neg_iff {chord deltaPhi : ℝ} :
  (0.47 < actualError chord deltaPhi ↔ 0.47 < actualError chord (-deltaPhi)) ↔
    (chord ≤ 22.5 → |actualError chord deltaPhi| ≤ 0.47) := by
  by_cases hc : chord ≤ 22.5
  · rw [actualError_neg hc, abs_le]
    constructor
    · intro h _
      by_contra ho
      rw [not_and_or, not_le, not_le] at ho
      rcases ho with hl | hh
      · have := h.2 (by linarith)
        linarith
      · have := h.1 hh
        linarith
    · intro h
      obtain ⟨hl, hh⟩ := h hc
      exact ⟨fun hgt => absurd hgt hh.not_gt, fun hgt => by linarith⟩
  · simp [actualError, not_le.1 hc, hc]

/-- A mirrored drive is recorded alike if and only if no change of heading leads to an
error, of either sign, that is not allowable. A drive with full turns added to its
headings is if and only if every test has the same outcome with them. -/
theorem recordedAlike_iff (chordLength : ℕ → ℕ → ℝ) (heading : ℕ → ℝ) (count : ℕ) :
  (RecordedAlike chordLength heading (fun i => -heading i) count ↔
    ∀ n < count, ∀ starting ∈ tested (drive chordLength heading) n,
      let deltaPhi := heading n - heading starting
      HasError (chordLength starting n) deltaPhi ∧ (chordLength starting n ≤ 22.5 →
        |actualError (chordLength starting n) deltaPhi| ≤ 0.47)) ∧
  ∀ turns : ℕ → ℤ, (RecordedAlike chordLength heading
      (fun i => heading i + turns i * (2 * π)) count ↔
    ∀ n < count, ∀ starting ∈ tested (drive chordLength heading) n,
      let deltaPhi := heading n - heading starting
      let turned := deltaPhi + (turns n - turns starting) * (2 * π)
      HasError (chordLength starting n) deltaPhi ∧ HasError (chordLength starting n) turned ∧
      (0.47 < actualError (chordLength starting n) deltaPhi ↔
        0.47 < actualError (chordLength starting n) turned)) := by
  refine ⟨?_, fun turns => ?_⟩
  · rw [recordedAlike_iff_tests]
    have hd : ∀ n starting, -heading n - -heading starting =
        -(heading n - heading starting) := fun n starting => by ring
    simp only [hd, hasError_neg, exceeds_neg_iff, and_self_left]
  rw [recordedAlike_iff_tests]
  have hd : ∀ n starting, heading n + turns n * (2 * π) -
      (heading starting + turns starting * (2 * π)) =
      heading n - heading starting + (turns n - turns starting) * (2 * π) :=
    fun n starting => by ring
  simp only [hd]

theorem actualError_half_turn : actualError 20 π = 10 := by
  have hh : π * 0.5 = π / 2 := by ring
  have hh' : 0.5 * π = π / 2 := by ring
  have hpi := pi_pos
  rw [actualError, if_neg (by norm_num), if_neg (by rw [abs_of_pos hpi]; linarith), hh, hh',
    sin_pi_div_two, cos_pi_div_two]
  norm_num

/-- A half turn to the right is recorded, to the left it is not, and neither if a full
turn is subtracted from the heading. -/
theorem left_turn_not_recorded :
  let heading : ℕ → ℝ := fun i => if i = 2 then π else 0
  let turns : ℕ → ℤ := fun i => if i = 2 then -1 else 0
  ¬RecordedAlike (fun _ _ => 20) heading (fun i => -heading i) 3 ∧
  ¬RecordedAlike (fun _ _ => 20) heading (fun i => heading i + turns i * (2 * π)) 3 := by
  intro heading turns
  have hr : (0.47 : ℝ) < actualError 20 π := by rw [actualError_half_turn]; norm_num
  have hl : ¬(0.47 : ℝ) < actualError 20 (-π) := by
    rw [actualError_neg (by norm_num), actualError_half_turn]
    norm_num
  have htes : 0 ∈ tested (drive (fun _ _ => 20) heading) 2 := rfl
  have hd : heading 2 - heading 0 = π := by simp [heading]
  refine ⟨fun h => ?_, fun h => ?_⟩
  · have ht := (recordedAlike_iff_tests.1 h 2 (by omega) 0 htes).2.2
    have ho : -heading 2 - -heading 0 = -π := by simp [heading]
    rw [hd, ho] at ht
    exact hl (ht.1 hr)
  have ht := (recordedAlike_iff_tests.1 h 2 (by omega) 0 htes).2.2
  have ho : heading 2 + turns 2 * (2 * π) - (heading 0 + turns 0 * (2 * π)) = -π := by
    simp [heading, turns]
    ring
  rw [hd, ho] at ht
  exact hl (ht.1 hr)

end Vanetza.Facilities.PathHistory
