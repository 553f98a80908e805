import Mathlib.Data.Finset.Card

/-!
# Queues of recent elements

A bounded queue that holds every element once, the least recent one in front.
An element that is remembered goes to the end, whether it has been in the queue
or not; a new element drives out the front of a full queue.
-/

namespace Vanetza.Lib.RecencyQueue

open List

variable {α : Type*} [DecidableEq α]

/-- Remember an element in a queue with room for `room` elements. -/
def remember (room : Nat) (queue : List α) (x : α) : List α :=
  if x ∈ queue then queue.erase x ++ [x]
  else queue.drop (queue.length + 1 - room) ++ [x]

def rememberAll (room : Nat) (queue : List α) (xs : List α) : List α :=
  xs.foldl (remember room) queue

structure Bounded (room : Nat) (queue : List α) : Prop where
  nodup : queue.Nodup
  length_le : queue.length ≤ room

variable {room : Nat} {queue : List α} {x y : α}

omit [DecidableEq α] in
theorem bounded_nil : Bounded room ([] : List α) := ⟨.nil, Nat.zero_le _⟩

theorem Bounded.remember (hr : 1 ≤ room) (h : Bounded room queue) (x : α) :
  Bounded room (remember room queue x) := by
  have happ : ∀ {front : List α}, front.Nodup → x ∉ front → (front ++ [x]).Nodup := fun hfr hx =>
    nodup_append.2 ⟨hfr, nodup_singleton x, by
      rintro a ha b hb rfl
      exact hx (mem_singleton.1 hb ▸ ha)⟩
  unfold RecencyQueue.remember
  split
  · next hx =>
    refine ⟨happ (h.nodup.erase x) h.nodup.not_mem_erase, ?_⟩
    have hp := length_pos_of_mem hx
    rw [length_append, length_erase_of_mem hx, length_singleton]
    exact (Nat.sub_add_cancel hp).trans_le h.length_le
  · next hx =>
    refine ⟨happ (h.nodup.drop) fun hm => hx (mem_of_mem_drop hm), ?_⟩
    rw [length_append, length_drop, length_singleton]
    omega

theorem Bounded.rememberAll (hr : 1 ≤ room) (h : Bounded room queue)
  (xs : List α) : Bounded room (rememberAll room queue xs) := by
  induction xs generalizing queue with
  | nil => exact h
  | cons x xs ih => exact ih (h.remember hr x)

def Before (x : α) (others : Finset α) (queue : List α) : Prop :=
  ∃ front back, queue = front ++ x :: back ∧ ∀ y ∈ back, y ∈ others

theorem before_remember_self (others : Finset α) : Before x others (remember room queue x) := by
  unfold remember
  split
  · exact ⟨_, [], rfl, by simp⟩
  · exact ⟨_, [], rfl, by simp⟩

theorem mem_insert_of_back {others : Finset α} {back : List α}
  (h : ∀ z ∈ back, z ∈ others) : ∀ z ∈ back ++ [y], z ∈ insert y others := by
  intro z hz
  rcases mem_append.1 hz with hz | hz
  · exact Finset.mem_insert_of_mem (h z hz)
  · exact mem_singleton.1 hz ▸ Finset.mem_insert_self _ _

theorem Before.remember (h : Bounded room queue) {others : Finset α}
  (hbef : Before x others queue) (hy : y ≠ x) :
  Before x (insert y others) (remember room queue y) ∨
    ∃ back, queue = x :: back ∧ y ∉ queue ∧ room ≤ queue.length ∧ ∀ z ∈ back, z ∈ others := by
  obtain ⟨front, back, rfl, hb⟩ := hbef
  unfold RecencyQueue.remember
  split
  · next hm =>
    left
    by_cases hfr : y ∈ front
    · refine ⟨front.erase y, back ++ [y], ?_, mem_insert_of_back hb⟩
      rw [erase_append_left _ hfr]
      simp
    refine ⟨front, back.erase y ++ [y], ?_, mem_insert_of_back
      fun z hz => hb z (mem_of_mem_erase hz)⟩
    rw [erase_append_right _ hfr, erase_cons_tail (by simpa using hy.symm)]
    simp
  · next hm =>
    by_cases hfull : room ≤ (front ++ x :: back).length ∧ front = []
    · obtain ⟨hfull, rfl⟩ := hfull
      exact .inr ⟨back, rfl, hm, hfull, hb⟩
    left
    refine ⟨front.drop ((front ++ x :: back).length + 1 - room),
      back ++ [y], ?_, mem_insert_of_back hb⟩
    have hle : (front ++ x :: back).length + 1 - room ≤ front.length := by
      have hl := h.length_le
      cases front with
      | nil =>
        have hr := not_and'.1 hfull rfl
        omega
      | cons a front =>
        simp only [length_cons] at hl ⊢
        omega
    rw [drop_append_of_le_length hle]
    simp

def Recent (room : Nat) (x : α) (others : Finset α) (queue : List α) : Prop :=
  Before x others queue ∨ room ≤ (others.erase x).card

theorem Recent.remember (h : Bounded room queue) {others : Finset α}
  (hr : Recent room x others queue) (y : α) :
  Recent room x (insert y others) (remember room queue y) := by
  rcases hr with hbef | hc
  · by_cases hy : y = x
    · subst hy
      exact .inl (before_remember_self _)
    · rcases hbef.remember h hy with hs | ⟨back, rfl, hn, hfull, hb⟩
      · exact .inl hs
      · -- everything behind it, and the new element, is among the others
        right
        have hnod : (y :: back).Nodup :=
          nodup_cons.2 ⟨fun hm => hn (mem_cons_of_mem _ hm), (nodup_cons.1 h.nodup).2⟩
        have hsub : (y :: back).toFinset ⊆ (insert y others).erase x := by
          intro z hz
          rcases mem_cons.1 (mem_toFinset.1 hz) with rfl | hz
          · exact Finset.mem_erase.2 ⟨hy, Finset.mem_insert_self _ _⟩
          · refine Finset.mem_erase.2 ⟨?_, Finset.mem_insert_of_mem (hb z hz)⟩
            rintro rfl
            exact (nodup_cons.1 h.nodup).1 hz
        calc room ≤ (x :: back).length := hfull
          _ = (y :: back).toFinset.card := by
              rw [toFinset_card_of_nodup hnod]
              rfl
          _ ≤ ((insert y others).erase x).card := Finset.card_le_card hsub
  · right
    refine hc.trans (Finset.card_le_card ?_)
    exact Finset.erase_subset_erase x (Finset.subset_insert y others)

theorem Recent.rememberAll (hro : 1 ≤ room) (h : Bounded room queue)
  {others : Finset α} (hrec : Recent room x others queue) (ys : List α) :
  Recent room x (others ∪ ys.toFinset) (rememberAll room queue ys) := by
  induction ys generalizing queue others with
  | nil =>
    rw [toFinset_nil, Finset.union_empty]
    exact hrec
  | cons y ys ih =>
    have hr := ih (h.remember hro y) (hrec.remember h y)
    rw [Finset.insert_union, ← Finset.union_insert, ← toFinset_cons] at hr
    exact hr

theorem forgotten_after (hr : 1 ≤ room) (h : Bounded room queue) (x : α)
  (ys : List α) (hf : x ∉ rememberAll room (remember room queue x) ys) :
  room ≤ (ys.toFinset.erase x).card := by
  have hrec : Recent room x ∅ (remember room queue x) := .inl (before_remember_self _)
  have hl := hrec.rememberAll hr (h.remember hr x) ys
  rw [Finset.empty_union] at hl
  rcases hl with ⟨front, back, hq, -⟩ | hc
  · refine absurd ?_ hf
    rw [hq]
    exact mem_append_right _ mem_cons_self
  · exact hc

end Vanetza.Lib.RecencyQueue
