import Mathlib.Data.List.Nodup
import Mathlib.Data.List.Perm.Basic

/-!
# Lists of items with distinct keys

Where no two items of a list have the same key, the first item with a key is the
only one. To take it out is then to keep what has another key, and to take out a
part of the list is to keep the keys that are not in that part.
-/

namespace Vanetza.Lib

open List

section Keyed

variable {α κ : Type*} [DecidableEq κ] {key : α → κ} {items : List α} (h : (items.map key).Nodup)

include h in
omit [DecidableEq κ] in
theorem nodup_map_filter (keep : α → Bool) : ((items.filter keep).map key).Nodup :=
  h.sublist (List.filter_sublist.map key)

include h in
theorem eraseP_key_eq_filter (k : κ) : items.eraseP (fun item => key item = k) =
    items.filter fun item => key item ≠ k := by
  induction items with
  | nil => rfl
  | cons item rest ih =>
    rw [map_cons, nodup_cons] at h
    by_cases hk : key item = k
    · have hr : ∀ other ∈ rest, key other ≠ k := fun other hm hoth =>
        h.1 (mem_map.2 ⟨other, hm, hoth.trans hk.symm⟩)
      rw [eraseP_cons_of_pos (by simp [hk]), filter_cons_of_neg (by simp [hk])]
      exact (filter_eq_self.2 fun other hm =>
        decide_eq_true (hr other hm)).symm
    · rw [eraseP_cons_of_neg (by simp [hk]), filter_cons_of_pos (by simp [hk]), ih h.2]

include h in
theorem filter_key_eq {item : α} (hm : item ∈ items) :
  items.filter (fun other => key other = key item) = [item] := by
  induction items with
  | nil => cases hm
  | cons first rest ih =>
    rw [map_cons, nodup_cons] at h
    rcases mem_cons.1 hm with rfl | hm
    · rw [filter_cons_of_pos (by simp)]
      refine congrArg _ (filter_eq_nil_iff.2 fun other ho => ?_)
      intro hk
      exact h.1 (mem_map.2 ⟨other, ho, of_decide_eq_true hk⟩)
    · have hne : key first ≠ key item := fun hk =>
        h.1 (mem_map.2 ⟨item, hm, hk.symm⟩)
      rw [filter_cons_of_neg (by simp [hne]), ih h.2 hm]

include h in
theorem find?_key_eq {item : α} (hm : item ∈ items) :
  items.find? (fun other => key other = key item) = some item := by
  rw [← head?_filter, filter_key_eq h hm]
  rfl

include h in
theorem find?_perm {other : List α} (hp : other.Perm items) (k : κ) :
  other.find? (fun item => key item = k) = items.find? fun item => key item = k := by
  cases hf : items.find? fun item => key item = k with
  | none =>
    rw [find?_eq_none] at hf ⊢
    exact fun item hit => hf item (hp.mem_iff.1 hit)
  | some found =>
    have hm := hp.mem_iff.2 (mem_of_find?_eq_some hf)
    have hk : key found = k := of_decide_eq_true (find?_some hf :)
    rw [← hk]
    exact find?_key_eq ((hp.map key).nodup_iff.2 h) hm

theorem find?_filter_of_keep {keep : α → Bool} {k : κ}
  (hke : ∀ item, key item = k → keep item = true) :
  (items.filter keep).find? (fun item => key item = k) = items.find? fun item => key item = k := by
  rw [← head?_filter, ← head?_filter, filter_filter]
  refine congrArg _ (filter_congr fun item _ => ?_)
  by_cases hk : key item = k
  · simp [hk, hke item hk]
  · simp [hk]

omit [DecidableEq κ] in
theorem filter_not_mem_keys {before after : List α}
  (h : ((before ++ after).map key).Nodup) {keep : κ → Bool}
  (hk : ∀ k, keep k = true ↔ k ∉ before.map key) :
  (before ++ after).filter (fun item => keep (key item)) = after := by
  rw [map_append, nodup_append] at h
  rw [filter_append, filter_eq_nil_iff.2, filter_eq_self.2, nil_append]
  · intro item hm
    refine (hk _).2 fun hkey => ?_
    exact h.2.2 _ hkey _ (mem_map_of_mem hm) rfl
  · intro item hm hkept
    exact (hk _).1 hkept (mem_map_of_mem hm)

include h in
omit [DecidableEq κ] in
theorem filter_not_mem_filter_keys (kind : α → Bool) {keep : κ → Bool}
  (hke : ∀ k, keep k = true ↔ k ∉ (items.filter kind).map key) :
  items.filter (fun item => keep (key item)) = items.filter fun item => !kind item := by
  refine filter_congr fun item hm => Bool.eq_iff_iff.2 ?_
  rw [hke, Bool.not_eq_true', ← Bool.not_eq_true]
  refine not_congr ⟨fun hkey => ?_, fun hk => ?_⟩
  · obtain ⟨other, ho, hs⟩ := mem_map.1 hkey
    obtain ⟨ho, hk⟩ := mem_filter.1 ho
    rw [← inj_on_of_nodup_map h ho hm hs]
    exact hk
  · exact mem_map_of_mem (mem_filter.2 ⟨hm, hk⟩)

end Keyed

theorem takeWhile_eq_filter {α : Type*} {kind : α → Bool} {items : List α}
  (h : items.Pairwise fun a b => kind b = true → kind a = true) :
  items.takeWhile kind = items.filter kind := by
  induction items with
  | nil => rfl
  | cons item rest ih =>
    rw [pairwise_cons] at h
    cases hk : kind item
    · rw [takeWhile_cons_of_neg (by simp [hk]), filter_cons_of_neg (by simp [hk])]
      refine (filter_eq_nil_iff.2 fun other hm hoth => ?_).symm
      rw [h.1 other hm hoth] at hk
      cases hk
    · rw [takeWhile_cons_of_pos hk, filter_cons_of_pos hk, ih h.2]

end Vanetza.Lib
