import Mathlib.Data.List.Basic

/-!
# Searches through a list

A loop that goes through a list from the front comes to an element when it
passes over all elements before it. `Reaches skip hit list` says that it comes
to an element that satisfies `hit`.
-/

namespace Vanetza.Lib

variable {α : Type} {skip hit : α → Prop} {a : α} {list : List α}

def Reaches (skip hit : α → Prop) (list : List α) : Prop :=
  ∃ before a after, list = before ++ a :: after ∧ hit a ∧ ∀ b ∈ before, skip b

namespace Reaches

theorem not_nil : ¬ Reaches skip hit [] := by
  rintro ⟨before, a, after, h, -⟩
  simp at h

theorem cons_iff : Reaches skip hit (a :: list) ↔ hit a ∨ skip a ∧ Reaches skip hit list := by
  constructor
  · rintro ⟨before, b, after, h, hh, hbef⟩
    cases before with
    | nil =>
      obtain ⟨rfl, rfl⟩ := List.cons.inj h
      exact .inl hh
    | cons b' before =>
      obtain ⟨rfl, rfl⟩ := List.cons.inj h
      obtain ⟨hb, hbef⟩ := List.forall_mem_cons.1 hbef
      exact .inr ⟨hb, before, b, after, rfl, hh, hbef⟩
  · rintro (hh | ⟨hs, before, b, after, rfl, hh, hbef⟩)
    · exact ⟨[], a, list, rfl, hh, by simp⟩
    · exact ⟨a :: before, b, after, rfl, hh, List.forall_mem_cons.2 ⟨hs, hbef⟩⟩

theorem exists_mem (h : Reaches skip hit list) : ∃ a ∈ list, hit a := by
  obtain ⟨before, a, after, rfl, hh, -⟩ := h
  exact ⟨a, by simp, hh⟩

end Reaches

end Vanetza.Lib
