import Vanetza.Lib.CircularBuffer
import Vanetza.Lib.Run

/-!
# Path history

Of the samples of a drive the path history keeps concise points, newest first.
-/

namespace Vanetza.Facilities

open Lib List

structure PathMeasure (P R : Type*) where
  chordLength : P → P → R
  actualError : P → P → R
  allowableError : R
  distance : R

structure PathHistory (P : Type*) where
  samples : CircularBuffer P
  concise : List P

namespace PathHistory


variable {P R : Type*} [LinearOrder R] [Zero R] [Add R]

def create : PathHistory P := ⟨.create 3, []⟩

/-- The asserts of `starting`, `previous` and `next` hold whenever the samples are
complete. -/
def updateConcisePoints (m : PathMeasure P R) (h : PathHistory P) : PathHistory P :=
  if h.samples.isFull then
    match h.concise.head?, h.samples.items with
    | some starting, next :: previous :: _ =>
      if m.allowableError < m.actualError starting next then
        { h with concise := previous :: h.concise }
      else h
    | _, _ => h
  else h

/-- The loop of `truncateConcisePoints`, from the point after `previous` on. -/
def truncate (m : PathMeasure P R) (distance : R) (previous : P) : List P → List P
  | [] => []
  | current :: rest =>
    if m.distance ≤ distance + m.chordLength previous current then [current]
    else current :: truncate m (distance + m.chordLength previous current) current rest

def truncateConcisePoints (m : PathMeasure P R) (h : PathHistory P) : PathHistory P :=
  match h.concise with
  | first :: second :: third :: rest =>
    { h with concise := first :: truncate m 0 first (second :: third :: rest) }
  | _ => h

def addSample (m : PathMeasure P R) (h : PathHistory P) (point : P) : PathHistory P :=
  let samples := h.samples.pushFront point
  let concise := if h.concise.isEmpty then [point] else h.concise
  truncateConcisePoints m (updateConcisePoints m ⟨samples, concise⟩)

def history (m : PathMeasure P R) (points : List P) : PathHistory P :=
  run (addSample m) create points

variable {m : PathMeasure P R} {h : PathHistory P}

omit [Zero R] in
theorem truncate_sublist (m : PathMeasure P R) (dist : R) (prev : P) (points : List P) :
  truncate m dist prev points <+ points := by
  induction points generalizing dist prev with
  | nil => exact Sublist.slnil
  | cons current rest ih =>
    rw [truncate]
    split
    · exact (nil_sublist rest).cons_cons current
    · exact (ih _ current).cons_cons current

theorem truncateConcisePoints_samples (m : PathMeasure P R) (h : PathHistory P) :
  (truncateConcisePoints m h).samples = h.samples := by
  unfold truncateConcisePoints
  split <;> rfl

theorem truncateConcisePoints_sublist (m : PathMeasure P R) (h : PathHistory P) :
  (truncateConcisePoints m h).concise <+ h.concise := by
  unfold truncateConcisePoints
  split
  · next hc =>
    rw [hc]
    exact (truncate_sublist m 0 _ _).cons_cons _
  · exact Sublist.refl _

theorem truncateConcisePoints_head (m : PathMeasure P R) (h : PathHistory P) :
  (truncateConcisePoints m h).concise.head? = h.concise.head? := by
  unfold truncateConcisePoints
  split
  · next hc => rw [hc]; rfl
  · rfl

theorem samples_addSample (m : PathMeasure P R) (h : PathHistory P) (point : P) :
  (addSample m h point).samples = h.samples.pushFront point := by
  have hu : ∀ h : PathHistory P, (updateConcisePoints m h).samples = h.samples := by
    intro h
    unfold updateConcisePoints
    split
    · split
      · split <;> rfl
      · rfl
    · rfl
  rw [addSample, truncateConcisePoints_samples, hu]

structure Keeps (points : List P) (h : PathHistory P) : Prop where
  capacity : h.samples.capacity = 3
  samples : h.samples.items = points.reverse.take 3
  sublist : h.concise <+ points.reverse
  started : points ≠ [] → h.concise ≠ []
  older : 2 ≤ points.length → h.concise <+ points.reverse.tail

namespace Keeps

variable {points : List P}

theorem samples_pushFront (hk : h.Keeps points) (point : P) :
  (h.samples.pushFront point).items = (points ++ [point]).reverse.take 3 := by
  have hits : (h.samples.pushFront point).items =
      (points ++ [point]).reverse.take h.samples.capacity :=
    CircularBuffer.items_pushFront (hk.samples.trans (by rw [hk.capacity]))
  rwa [hk.capacity] at hits

/-- What `addSample` makes of the concise points from the third sample on. -/
theorem addSample_third (hk : h.Keeps points) {starting prev before : P} {earlier rest : List P}
  (hp : points.reverse = prev :: before :: earlier) (hc : h.concise = starting :: rest)
  (point : P) : addSample m h point = truncateConcisePoints m ⟨h.samples.pushFront point,
    if m.allowableError < m.actualError starting point then prev :: h.concise
    else h.concise⟩ := by
  have hits := hk.samples_pushFront point
  rw [reverse_append, hp] at hits
  have hfull : (h.samples.pushFront point).isFull = true :=
    CircularBuffer.isFull_iff.2 ((congrArg length hits).trans hk.capacity.symm)
  have hs : h.concise.isEmpty = false := by rw [hc]; rfl
  rw [addSample, hs]
  refine congrArg (truncateConcisePoints m) ?_
  rw [updateConcisePoints, if_pos hfull]
  simp only [hits, hc, Bool.false_eq_true, if_false, head?_cons, reverse_singleton,
    singleton_append, take_succ_cons]
  split <;> rfl

theorem addSample_early (hk : h.Keeps points) (hf : points.length < 2) (point : P) :
  (addSample m h point).concise = [points.headD point] := by
  have hfull : (h.samples.pushFront point).isFull = false := by
    rw [← Bool.not_eq_true, CircularBuffer.isFull_iff, hk.samples_pushFront point]
    show _ ≠ h.samples.capacity
    rw [hk.capacity, length_take, length_reverse, length_append, length_singleton]
    omega
  have hc : (if h.concise.isEmpty then [point] else h.concise) = [points.headD point] := by
    match points, hk, hf with
    | [], hk, _ => rw [sublist_nil.1 hk.sublist]; rfl
    | [first], hk, _ =>
      have ho : h.concise = [first] :=
        (sublist_singleton.1 hk.sublist).resolve_left (hk.started (by simp))
      rw [ho]
      rfl
  rw [addSample, hc, updateConcisePoints, if_neg (by rw [hfull]; simp)]
  rfl

theorem addSample (hk : h.Keeps points) (point : P) :
  (addSample m h point).Keeps (points ++ [point]) := by
  have hsam := samples_addSample m h point
  -- it remains to find the concise points among the earlier samples
  have hr : (PathHistory.addSample m h point).concise ≠ [] →
      (1 ≤ points.length → (PathHistory.addSample m h point).concise <+ points.reverse) →
      (points = [] → (PathHistory.addSample m h point).concise = [point]) →
      (PathHistory.addSample m h point).Keeps (points ++ [point]) := by
    intro hne hsub hfst
    have ha : (PathHistory.addSample m h point).concise <+ (points ++ [point]).reverse := by
      rw [reverse_append]
      rcases points.eq_nil_or_concat with hn | hs
      · rw [hfst hn, hn]; rfl
      · exact (hsub (by obtain ⟨_, _, rfl⟩ := hs; simp)).cons point
    refine ⟨?_, ?_, ha, fun _ => hne, fun ht => ?_⟩
    · rw [hsam]; exact hk.capacity
    · rw [hsam]; exact hk.samples_pushFront point
    · rw [reverse_append]
      exact hsub (by simp at ht; omega)
  by_cases hf : points.length < 2
  · have hc := hk.addSample_early (m := m) hf point
    refine hr (by simp [hc]) (fun hone => ?_) fun hn => by rw [hc, hn]; rfl
    obtain ⟨first, rfl⟩ := length_eq_one_iff.1 (le_antisymm (by omega) hone)
    rw [hc]
    rfl
  · obtain ⟨prev, before, earlier, hp⟩ :
        ∃ prev before earlier, points.reverse = prev :: before :: earlier := by
      rw [← length_reverse] at hf
      cases hrev : points.reverse with
      | nil => simp [hrev] at hf
      | cons prev others =>
        cases others with
        | nil => simp [hrev] at hf
        | cons before earlier => exact ⟨prev, before, earlier, rfl⟩
    have hnon : points ≠ [] := by rintro rfl; simp at hf
    obtain ⟨starting, rest, hc⟩ := exists_cons_of_ne_nil (hk.started hnon)
    have ho := hk.older (not_lt.1 hf)
    rw [hp] at ho
    rw [hk.addSample_third hp hc point] at hr ⊢
    refine hr ?_ (fun _ => ?_) fun hn => absurd hn hnon
    · rw [← isSome_head?, truncateConcisePoints_head]
      dsimp only
      split <;> simp [hc]
    refine (truncateConcisePoints_sublist m _).trans ?_
    dsimp only
    rw [hp]
    split
    · exact ho.cons_cons prev
    · exact ho.cons prev

end Keeps

theorem keeps_history (m : PathMeasure P R) (points : List P) :
  (history m points).Keeps points := by
  induction points using reverseRecOn with
  | nil => exact ⟨rfl, rfl, Sublist.slnil, fun hne => absurd rfl hne, nofun⟩
  | append_singleton points point ih =>
    rw [history, Run.append]
    exact ih.addSample point

end PathHistory

end Vanetza.Facilities
