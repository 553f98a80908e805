import Mathlib.Algebra.BigOperators.Group.List.Basic
import Mathlib.Algebra.Ring.Nat
import Mathlib.Data.List.Basic

/-!
# Counting octets in a machine word

A bounded buffer keeps a running count of the octets of what it stores. The count is a word of 64
bits, and the sum it stands for is a natural number.
-/

namespace Vanetza.Lib

variable {α : Type*}

def octets (size : α → UInt64) (items : List α) : Nat :=
  (items.map fun item => (size item).toNat).sum

section Octets

variable (size : α → UInt64)

@[simp]
theorem octets_nil : octets size [] = 0 := rfl

@[simp]
theorem octets_cons (item : α) (items : List α) :
  octets size (item :: items) = (size item).toNat + octets size items :=
  List.sum_cons

@[simp]
theorem octets_append (before after : List α) :
  octets size (before ++ after) = octets size before + octets size after := by
  rw [octets, List.map_append, List.sum_append]
  rfl

theorem octets_filter_add (keep : α → Bool) (items : List α) : octets size (items.filter keep) +
    octets size (items.filter fun item => !keep item) = octets size items := by
  induction items with
  | nil => rfl
  | cons item rest ih => cases hk : keep item <;> simp [hk, ← ih] <;> omega

theorem octets_map {change : α → α} (h : ∀ item, size (change item) = size item) (items : List α) :
  octets size (items.map change) = octets size items := by
  rw [octets, List.map_map]
  refine congrArg List.sum (List.map_congr_left fun item _ => ?_)
  exact congrArg UInt64.toNat (h item)

theorem toNat_foldl_sub {items : List α} {counter : UInt64}
  (h : octets size items ≤ counter.toNat) :
  (items.foldl (fun counter item => counter - size item) counter).toNat =
    counter.toNat - octets size items := by
  induction items generalizing counter with
  | nil => rfl
  | cons item rest ih =>
    rw [octets_cons] at h
    have hle : size item ≤ counter := UInt64.le_iff_toNat_le.2 (by omega)
    have hs := UInt64.toNat_sub_of_le counter (size item) hle
    rw [List.foldl_cons, ih (by omega), hs, octets_cons, Nat.sub_sub]

end Octets

end Vanetza.Lib
