import Mathlib

/-!
# Manual runtime

`ManualRuntime` keeps its callbacks ordered by their deadlines; among equal
deadlines the one scheduled first comes first. A scope only serves to cancel
callbacks, and one that was scheduled without a scope cannot be cancelled.
-/

namespace Vanetza

open List

structure ScheduledCallback (κ σ : Type) where
  deadline : Int
  callback : κ
  scope : Option σ

structure ManualRuntime (κ σ : Type) where
  now : Int
  queue : List (ScheduledCallback κ σ)
  sorted : queue.Pairwise fun first second => first.deadline ≤ second.deadline

namespace ManualRuntime

variable {κ σ : Type}

def create (init : Int) : ManualRuntime κ σ where
  now := init
  queue := []
  sorted := .nil

def emplace (queue : List (ScheduledCallback κ σ))
  (item : ScheduledCallback κ σ) : List (ScheduledCallback κ σ) :=
  queue.takeWhile (·.deadline ≤ item.deadline) ++
    item :: queue.dropWhile (·.deadline ≤ item.deadline)

theorem emplace_perm (queue : List (ScheduledCallback κ σ)) (item : ScheduledCallback κ σ) :
  (emplace queue item).Perm (item :: queue) := by
  have hs : (emplace queue item).Perm (item :: (queue.takeWhile (·.deadline ≤ item.deadline) ++
        queue.dropWhile (·.deadline ≤ item.deadline))) := perm_middle
  rwa [takeWhile_append_dropWhile] at hs

theorem sorted_emplace {queue : List (ScheduledCallback κ σ)}
  (h : queue.Pairwise fun first second => first.deadline ≤ second.deadline)
  (item : ScheduledCallback κ σ) :
  (emplace queue item).Pairwise fun first second => first.deadline ≤ second.deadline := by
  induction queue with
  | nil => exact pairwise_singleton _ _
  | cons head rest ih =>
    obtain ⟨hh, hr⟩ := pairwise_cons.1 h
    by_cases hle : head.deadline ≤ item.deadline
    · have hc : emplace (head :: rest) item = head :: emplace rest item := by
        rw [emplace, takeWhile_cons_of_pos (by simpa using hle),
          dropWhile_cons_of_pos (by simpa using hle)]
        rfl
      rw [hc]
      refine pairwise_cons.2 ⟨fun other ho => ?_, ih hr⟩
      rcases mem_cons.1 ((emplace_perm rest item).mem_iff.1 ho) with
        rfl | hm
      · exact hle
      · exact hh other hm
    · have hc : emplace (head :: rest) item = item :: head :: rest := by
        rw [emplace, takeWhile_cons_of_neg (by simpa using hle),
          dropWhile_cons_of_neg (by simpa using hle)]
        rfl
      rw [hc]
      refine pairwise_cons.2 ⟨fun other ho => ?_, h⟩
      rcases mem_cons.1 ho with rfl | hm
      · omega
      · have ho := hh other hm
        omega

def schedule (runtime : ManualRuntime κ σ) (deadline : Int) (callback : κ)
  (scope : Option σ) : ManualRuntime κ σ where
  now := runtime.now
  queue := emplace runtime.queue ⟨deadline, callback, scope⟩
  sorted := sorted_emplace runtime.sorted _

def cancel [DecidableEq σ] (runtime : ManualRuntime κ σ) : Option σ → ManualRuntime κ σ
  | none => runtime
  | some scope => {
      now := runtime.now
      queue := runtime.queue.filter (·.scope ≠ some scope)
      sorted := runtime.sorted.filter _ }

/-- Time passes, as at the start of `trigger`. -/
def elapse (runtime : ManualRuntime κ σ) (tp : Int) : ManualRuntime κ σ :=
  { runtime with now := tp }

/-- What the loop of `trigger` invokes next, and the runtime without it. -/
def due (runtime : ManualRuntime κ σ) : Option (ScheduledCallback κ σ × ManualRuntime κ σ) :=
  match runtime with
  | ⟨_, [], _⟩ => none
  | ⟨now, top :: rest, sorted⟩ =>
    if top.deadline ≤ now then some (top, ⟨now, rest, sorted.tail⟩) else none

/-- What `reset` takes out, to be invoked by its loop. -/
def reset (runtime : ManualRuntime κ σ) (tp : Int) :
  List (ScheduledCallback κ σ) × ManualRuntime κ σ :=
  (runtime.queue, create tp)

theorem queue_of_due {rt rest : ManualRuntime κ σ}
  {top : ScheduledCallback κ σ} (h : rt.due = some (top, rest)) :
  rt.queue = top :: rest.queue := by
  obtain ⟨now, queue, sorted⟩ := rt
  cases queue with
  | nil => cases h
  | cons head tail =>
    rw [due] at h
    split at h
    · cases h
      rfl
    · cases h

end ManualRuntime

end Vanetza
