import Mathlib

/-!
# Circular buffers

A circular buffer (`boost::circular_buffer`) holds its items in the order they came, up to a
capacity. An item that is put into a full buffer drives out the oldest one, which is at the other
end; a buffer is filled from the back or from the front.
-/

namespace Vanetza.Lib

open List

structure CircularBuffer (α : Type*) where
  capacity : Nat
  items : List α
  within : items.length ≤ capacity

namespace CircularBuffer

variable {α : Type*}

def create (capacity : Nat) : CircularBuffer α := ⟨capacity, [], Nat.zero_le capacity⟩

def isFull (buffer : CircularBuffer α) : Bool := buffer.items.length = buffer.capacity

def clear (buffer : CircularBuffer α) : CircularBuffer α :=
  { buffer with items := [], within := Nat.zero_le _ }

def pushed (capacity : Nat) (items : List α) (item : α) : List α :=
  if items.length < capacity then items ++ [item]
  else
    match items with
    | [] => []
    | _ :: rest => rest ++ [item]

theorem length_pushed_le {capacity : Nat} {items : List α}
  (h : items.length ≤ capacity) (item : α) :
  (pushed capacity items item).length ≤ capacity := by
  unfold pushed
  split
  · next hlt =>
    rw [length_append, length_singleton]
    exact hlt
  split
  · exact h
  · rw [length_append, length_singleton]
    exact h

def pushBack (buffer : CircularBuffer α) (item : α) : CircularBuffer α :=
  { buffer with
    items := pushed buffer.capacity buffer.items item
    within := length_pushed_le buffer.within item }

def pushFront (buffer : CircularBuffer α) (item : α) : CircularBuffer α :=
  { buffer with
    items := (item :: buffer.items).take buffer.capacity
    within := List.length_take_le _ _ }

def front (buffer : CircularBuffer α) : Option α := buffer.items.head?

def resize (buffer : CircularBuffer α) (size : Nat) (item : α) : CircularBuffer α where
  capacity := max buffer.capacity size
  items := buffer.items.take size ++ List.replicate (size - buffer.items.length) item
  within := by
    have hwithin := buffer.within
    rw [List.length_append, List.length_take, List.length_replicate]
    omega

variable {buffer : CircularBuffer α} {item : α}

theorem isFull_iff : buffer.isFull = true ↔ buffer.items.length = buffer.capacity :=
  decide_eq_true_iff

theorem length_resize (buffer : CircularBuffer α) (size : Nat) (item : α) :
  (buffer.resize size item).items.length = size := by
  unfold resize
  rw [length_append, length_take, length_replicate]
  omega

theorem items_pushBack_of_not_full (h : buffer.isFull = false) :
  (buffer.pushBack item).items = buffer.items ++ [item] := by
  have hne : buffer.items.length ≠ buffer.capacity := of_decide_eq_false h
  exact if_pos (lt_of_le_of_ne buffer.within hne)

theorem items_pushBack_of_full (h : buffer.isFull = true) (hp : 0 < buffer.capacity) :
  (buffer.pushBack item).items = buffer.items.tail ++ [item] := by
  have hl := isFull_iff.1 h
  refine (if_neg hl.not_lt).trans ?_
  cases hits : buffer.items with
  | nil =>
    rw [hits] at hl
    exact absurd hl hp.ne
  | cons first rest => rfl

theorem items_pushFront {items : List α} (h : buffer.items = items.reverse.take buffer.capacity) :
  (buffer.pushFront item).items = (items ++ [item]).reverse.take buffer.capacity := by
  show (item :: buffer.items).take buffer.capacity = _
  rw [reverse_append, reverse_singleton, singleton_append, h]
  cases buffer.capacity with
  | zero => rfl
  | succ n => simp [take_take]

theorem mem_pushBack {x : α} (h : x ∈ (buffer.pushBack item).items) :
  x ∈ buffer.items ∨ x = item := by
  cases hfull : buffer.isFull with
  | false =>
    rw [items_pushBack_of_not_full hfull] at h
    exact (mem_append.1 h).imp_right mem_singleton.1
  | true =>
    rcases Nat.eq_zero_or_pos buffer.capacity with hz | hp
    · have hl := (buffer.pushBack item).within
      rw [show (buffer.pushBack item).capacity = 0 from hz] at hl
      rw [length_eq_zero_iff.1 (Nat.le_zero.1 hl)] at h
      cases h
    · rw [items_pushBack_of_full hfull hp] at h
      exact (mem_append.1 h).imp mem_of_mem_tail mem_singleton.1

end CircularBuffer

end Vanetza.Lib
