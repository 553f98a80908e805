import Mathlib

/-!
# Cutting a list

A list that is cut at offsets which do not decrease falls into consecutive
parts. Put together again, the parts between two cuts are the part of the list
between them, and their lengths add up to the distance of the cuts.
-/

namespace Vanetza.Lib

open List

variable {α : Type*}

def between (l : List α) (a b : Nat) : List α := (l.take b).drop a

theorem length_between {l : List α} {a b : Nat} (h : b ≤ l.length) :
  (between l a b).length = b - a := by
  rw [between, length_drop, length_take, min_eq_left h]

theorem between_append {a b c : Nat} (hab : a ≤ b) (hbc : b ≤ c)
  (l : List α) : between l a b ++ between l b c = between l a c := by
  have hc : c - a = b - a + (c - b) := by omega
  have hb : a + (b - a) = b := by omega
  simp only [between, drop_take]
  rw [hc, take_add, drop_drop, hb]

theorem take_between (l : List α) (a b n : Nat) :
  (between l a b).take n = between l a (min b (a + n)) := by
  have hm : min n (b - a) = min b (a + n) - a := by omega
  simp only [between, drop_take]
  rw [take_take, hm]

theorem flatMap_between {cut : Nat → Nat} {first count : Nat}
  (h : ∀ i < count, cut (first + i) ≤ cut (first + i + 1)) (l : List α) :
  (List.range' first count).flatMap (fun i => between l (cut i) (cut (i + 1))) =
    between l (cut first) (cut (first + count)) := by
  induction count with
  | zero =>
    have hno : between l (cut first) (cut first) = [] := drop_eq_nil_of_le (length_take_le _ _)
    rw [Nat.add_zero, hno]
    rfl
  | succ count ih =>
    have hm : ∀ n ≤ count, cut first ≤ cut (first + n) := by
      intro n
      induction n with
      | zero => intro _; exact le_rfl
      | succ n ihn =>
        intro hn
        exact (ihn (by omega)).trans (h n (by omega))
    rw [range'_1_concat, flatMap_append, ih fun i hi => h i (by omega), flatMap_singleton]
    exact between_append (hm count le_rfl) (h count (by omega)) l

end Vanetza.Lib
