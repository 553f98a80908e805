import Vanetza.Common.ByteBuffer

/-!
# Runtime

The clock, and what is scheduled for later. A callback is known by the scope it
was scheduled with; times are in microseconds.
-/

namespace Vanetza

structure Runtime (Scope : Type) where
  now : Int
  queue : List (Int × Scope)

namespace Runtime

variable {Scope : Type} [DecidableEq Scope]

def schedule (runtime : Runtime Scope) (deadline : Int) (scope : Scope) : Runtime Scope :=
  { runtime with queue := runtime.queue ++ [(deadline, scope)] }

def cancel (runtime : Runtime Scope) (scope : Scope) : Runtime Scope :=
  { runtime with queue := runtime.queue.filter fun entry => entry.2 ≠ scope }

def deadlines (scope : Scope) (entries : List (Int × Scope)) : List Int :=
  (entries.filter fun entry => entry.2 = scope).map (·.1)

def pending (scope : Scope) (runtime : Runtime Scope) : List Int := deadlines scope runtime.queue

variable {runtime : Runtime Scope} {scope other : Scope} {index : Nat} {deadline : Int}

theorem deadlines_append (before after : List (Int × Scope)) : deadlines scope (before ++ after) =
    deadlines scope before ++ deadlines scope after := by
  rw [deadlines, List.filter_append, List.map_append, deadlines, deadlines]

theorem deadlines_cons_self (entries : List (Int × Scope)) :
  deadlines scope ((deadline, scope) :: entries) = deadline :: deadlines scope entries := by
  simp [deadlines]

theorem deadlines_cons_of_ne (h : other ≠ scope) (entries : List (Int × Scope)) :
  deadlines scope ((deadline, other) :: entries) = deadlines scope entries := by
  simp [deadlines, h]

theorem pending_schedule_self : (runtime.schedule deadline scope).pending scope =
    runtime.pending scope ++ [deadline] := by
  rw [pending, schedule, deadlines_append, deadlines_cons_self, pending]
  rfl

theorem pending_schedule_of_ne (h : other ≠ scope) :
  (runtime.schedule deadline other).pending scope = runtime.pending scope := by
  rw [pending, schedule, deadlines_append, deadlines_cons_of_ne h]
  exact List.append_nil _

theorem pending_cancel_self : (runtime.cancel scope).pending scope = [] := by
  rw [pending, cancel, deadlines, List.filter_filter]
  simp

theorem pending_cancel_of_ne (h : other ≠ scope) :
  (runtime.cancel other).pending scope = runtime.pending scope := by
  rw [pending, cancel, deadlines, List.filter_filter, pending, deadlines]
  congr 1
  refine List.filter_congr fun entry _ => ?_
  by_cases hs : entry.2 = scope
  · simp [hs, h.symm]
  · simp [hs]

omit [DecidableEq Scope] in
theorem queue_eq (h : runtime.queue[index]? = some (deadline, other)) :
  runtime.queue = runtime.queue.take index ++
    (deadline, other) :: runtime.queue.drop (index + 1) := by
  obtain ⟨hlt, hg⟩ := List.getElem?_eq_some_iff.1 h
  rw [← hg, List.getElem_cons_drop, List.take_append_drop]

def without (runtime : Runtime Scope) (index : Nat) : Runtime Scope :=
  { runtime with queue := runtime.queue.eraseIdx index }

theorem pending_without : (runtime.without index).pending scope =
    deadlines scope (runtime.queue.take index) ++
      deadlines scope (runtime.queue.drop (index + 1)) := by
  rw [pending, without, List.eraseIdx_eq_take_drop_succ, deadlines_append]

theorem pending_without_of_ne (h : runtime.queue[index]? = some (deadline, other))
  (ho : other ≠ scope) :
  (runtime.without index).pending scope = runtime.pending scope := by
  have hp : runtime.pending scope = deadlines scope _ := congrArg (deadlines scope) (queue_eq h)
  rw [pending_without, hp, deadlines_append, deadlines_cons_of_ne ho]

theorem pending_eq (h : runtime.queue[index]? = some (deadline, scope)) :
  runtime.pending scope = deadlines scope (runtime.queue.take index) ++
    deadline :: deadlines scope (runtime.queue.drop (index + 1)) := by
  have hp : runtime.pending scope = deadlines scope _ := congrArg (deadlines scope) (queue_eq h)
  rw [hp, deadlines_append, deadlines_cons_self]

end Runtime

end Vanetza
