import Mathlib.Data.List.Basic

/-!
# Computations that may throw

`Returns x` says that a computation leaves with a value and not with an
exception. The lemmas say what that means for each way of putting computations
together, so that a do-block returns exactly when all its steps do.
-/

namespace Vanetza.Lib

variable {ε α β : Type}

def Returns (x : Except ε α) : Prop := ∃ a, x = .ok a

variable {f : α → Except ε β} {x : Except ε α} {list : List α}

theorem bind_eq_ok_iff {b : β} : x >>= f = .ok b ↔ ∃ a, x = .ok a ∧ f a = .ok b := by
  cases x with
  | error e =>
    constructor
    · rintro ⟨⟩
    · rintro ⟨a, ⟨⟩, -⟩
  | ok a =>
    refine ⟨fun h => ⟨a, rfl, h⟩, fun ⟨a', ha', h⟩ => ?_⟩
    obtain rfl := Except.ok.inj ha'
    exact h

namespace Returns

@[simp] theorem ok (a : α) : Returns (.ok a : Except ε α) := ⟨a, rfl⟩

@[simp] theorem pure (a : α) : Returns (pure a : Except ε α) := ⟨a, rfl⟩

@[simp] theorem not_error (e : ε) : ¬ Returns (.error e : Except ε α) := by rintro ⟨a, ⟨⟩⟩

@[simp] theorem not_throw (e : ε) : ¬ Returns (throw e : Except ε α) := not_error e

theorem bind_iff : Returns (x >>= f) ↔ ∃ a, x = .ok a ∧ Returns (f a) := by
  constructor
  · rintro ⟨b, h⟩
    obtain ⟨a, hx, hf⟩ := bind_eq_ok_iff.1 h
    exact ⟨a, hx, b, hf⟩
  · rintro ⟨a, hx, b, hf⟩
    exact ⟨b, bind_eq_ok_iff.2 ⟨a, hx, hf⟩⟩

theorem ok_bind_iff {a : α} : Returns (.ok a >>= f) ↔ Returns (f a) := Iff.rfl

theorem bind_iff_and {P : Prop} (hf : ∀ a, Returns (f a) ↔ P) :
  Returns (x >>= f) ↔ Returns x ∧ P := by
  rw [bind_iff]
  constructor
  · rintro ⟨a, hx, h⟩
    exact ⟨⟨a, hx⟩, (hf a).1 h⟩
  · rintro ⟨⟨a, hx⟩, h⟩
    exact ⟨a, hx, (hf a).2 h⟩

theorem bind_iff_left (hf : ∀ a, Returns (f a)) : Returns (x >>= f) ↔ Returns x := by
  rw [bind_iff_and fun a => iff_true_intro (hf a), and_true]

theorem mapM_iff : Returns (list.mapM f) ↔ ∀ a ∈ list, Returns (f a) := by
  induction list with
  | nil => simp
  | cons a list ih =>
    rw [List.mapM_cons, List.forall_mem_cons, ← ih]
    exact bind_iff_and fun _ => bind_iff_left fun _ => pure _

end Returns

theorem exists_of_mapM {parts : List β} {a : α} (h : list.mapM f = .ok parts) (ha : a ∈ list) :
  ∃ b ∈ parts, f a = .ok b := by
  induction list generalizing parts with
  | nil => cases ha
  | cons a' list ih =>
    rw [List.mapM_cons] at h
    obtain ⟨b, hb, h⟩ := bind_eq_ok_iff.1 h
    obtain ⟨rest, hr, h⟩ := bind_eq_ok_iff.1 h
    cases h
    cases ha with
    | head => exact ⟨b, List.mem_cons_self, hb⟩
    | tail _ ha =>
      obtain ⟨b', hm, hb'⟩ := ih hr ha
      exact ⟨b', List.mem_cons_of_mem b hm, hb'⟩

end Vanetza.Lib
