import Mathlib

/-!
# Queues without repetition

A queue that holds every element once, in the order of arrival, and no more than a limit allows;
there is always room for one. An element that is in the queue already is not added again, and a new
one drives out the oldest of a full queue.
-/

namespace Vanetza.Lib

structure UniqueQueue (α : Type*) (limit : Nat) where
  items : List α
  nodup : items.Nodup
  length_le : items.length ≤ max limit 1

namespace UniqueQueue

variable {α : Type*} {limit : Nat}

inductive Call (α : Type*) where
  | add (x : α)
  | discard (x : α)
  | contains (x : α)
  | one
  | several (max : Nat)
  | all
  deriving DecidableEq

inductive Answer (α : Type*) where
  | done
  | contained (yes : Bool)
  | one (x : Option α)
  | several (xs : List α)
  deriving DecidableEq

def empty (limit : Nat) : UniqueQueue α limit := ⟨[], List.nodup_nil, Nat.zero_le _⟩

def drop (q : UniqueQueue α limit) (n : Nat) : UniqueQueue α limit where
  items := q.items.drop n
  nodup := q.nodup.sublist (List.drop_sublist n q.items)
  length_le := (List.drop_sublist n q.items).length_le.trans q.length_le

def isFull (q : UniqueQueue α limit) : Bool := q.items.length = max limit 1

def withRoom (q : UniqueQueue α limit) : List α := if q.isFull then q.items.tail else q.items

theorem withRoom_sublist (q : UniqueQueue α limit) : q.withRoom.Sublist q.items := by
  unfold withRoom
  split
  · exact List.tail_sublist q.items
  · exact List.Sublist.refl q.items

theorem length_withRoom_lt (q : UniqueQueue α limit) : q.withRoom.length < max limit 1 := by
  have hle := q.length_le
  unfold withRoom
  split
  · rw [List.length_tail]
    omega
  next hn =>
  have hne : q.items.length ≠ max limit 1 := fun heq =>
    hn (decide_eq_true heq)
  omega

variable [DecidableEq α]

def add (q : UniqueQueue α limit) (x : α) : UniqueQueue α limit :=
  if hx : x ∈ q.items then q
  else
    { items := q.withRoom ++ [x]
      nodup := by
        have hx' : x ∉ q.withRoom := fun hmem => hx (q.withRoom_sublist.subset hmem)
        rw [← List.concat_eq_append]
        exact (q.nodup.sublist q.withRoom_sublist).concat hx'
      length_le := by
        rw [List.length_append, List.length_singleton]
        exact q.length_withRoom_lt }

def discard (q : UniqueQueue α limit) (x : α) : UniqueQueue α limit where
  items := q.items.erase x
  nodup := q.nodup.erase x
  length_le := (q.items.erase_sublist).length_le.trans q.length_le

def step (q : UniqueQueue α limit) : Call α → UniqueQueue α limit × Answer α
  | .add x => (q.add x, .done)
  | .discard x => (q.discard x, .done)
  | .contains x => (q, .contained (x ∈ q.items))
  | .one => (q.drop 1, .one q.items.head?)
  | .several max => (q.drop max, .several (q.items.take max))
  | .all => (q.drop q.items.length, .several q.items)

theorem items_add (q : UniqueQueue α limit) (x : α) : (q.add x).items =
  if x ∈ q.items then q.items else q.withRoom ++ [x] := by
  unfold add
  split <;> rfl

end UniqueQueue

end Vanetza.Lib
