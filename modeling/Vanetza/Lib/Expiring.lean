import Mathlib.Data.Option.Basic

/-!
# Maps with entries that expire

A map from keys to values, where each value has a time at which it expires. Whoever looks only sees
what has not expired.
-/

namespace Vanetza.Lib

abbrev Expiring (K V : Type*) := K → Option (V × Int)

namespace Expiring

variable {K V : Type*} {now : Int} {full part : Expiring K V}

def collect (now : Int) (m : Expiring K V) : Expiring K V :=
  fun key => (m key).filter fun entry => now ≤ entry.2

def visible (now : Int) (m : Expiring K V) (key : K) : Option V := (m.collect now key).map Prod.fst

variable {m : Expiring K V} {key : K} {entry : V × Int}

theorem collect_of_le (h : ∀ entry, m key = some entry → now ≤ entry.2) :
  m.collect now key = m key := by
  rw [collect]
  cases hent : m key with
  | none => rfl
  | some entry => exact Option.filter_some_pos (decide_eq_true (h entry hent))

theorem collect_of_lt (hent : m key = some entry) (h : entry.2 < now) :
  m.collect now key = none := by
  rw [collect, hent]
  exact Option.filter_some_neg (by simpa using h)

theorem eq_of_collect (h : m.collect now key = some entry) : m key = some entry :=
  (Option.filter_eq_some_iff.1 h).1

theorem visible_of_eq_none (h : m key = none) : m.visible now key = none := by
  rw [visible, collect, h]
  rfl

theorem visible_of_eq_some (h : m key = some entry) :
  m.visible now key = if now ≤ entry.2 then some entry.1 else none := by
  rw [visible, collect, h]
  split
  · next hle => simp [Option.filter_some_pos, hle]
  · next hlt => simp [Option.filter_some_neg, hlt]

def Thinned (now : Int) (full part : Expiring K V) : Prop :=
  ∀ key, part key = full key ∨ part key = none ∧ ∃ entry, full key = some entry ∧ entry.2 < now

namespace Thinned

theorem refl (m : Expiring K V) : Thinned now m m := fun _ => .inl rfl

theorem later {time : Int} (h : Thinned now full part) (hle : now ≤ time) :
  Thinned time full part := by
  intro key
  refine (h key).imp id ?_
  rintro ⟨hp, entry, hfull, hexp⟩
  exact ⟨hp, entry, hfull, Int.lt_of_lt_of_le hexp hle⟩

theorem collect_eq (h : Thinned now full part) : part.collect now = full.collect now := by
  funext key
  rcases h key with heq | ⟨hn, entry, hent, hexp⟩
  · rw [collect, collect, heq]
  · rw [collect_of_lt hent hexp, collect, hn]
    rfl

theorem visible_eq (h : Thinned now full part) : part.visible now = full.visible now := by
  funext key
  rw [visible, visible, h.collect_eq]

theorem collect (h : Thinned now full part) : Thinned now full (part.collect now) := by
  intro key
  rw [h.collect_eq]
  cases hent : full key with
  | none =>
    refine .inl ?_
    rw [Expiring.collect, hent]
    rfl
  | some entry =>
    by_cases hexp : entry.2 < now
    · exact .inr ⟨collect_of_lt hent hexp, entry, rfl, hexp⟩
    refine .inl ((collect_of_le ?_).trans hent)
    intro other ho
    rw [hent] at ho
    cases ho
    exact Int.not_lt.1 hexp

theorem collect_both (h : Thinned now full part) :
  Thinned now (full.collect now) (part.collect now) := by
  rw [h.collect_eq]
  exact refl _

theorem update [DecidableEq K] (h : Thinned now full part) (key : K) (entry : Option (V × Int)) :
  Thinned now (Function.update full key entry) (Function.update part key entry) := by
  intro other
  by_cases ho : other = key
  · subst ho
    rw [Function.update_self, Function.update_self]
    exact .inl rfl
  · rw [Function.update_of_ne ho, Function.update_of_ne ho]
    exact h other

theorem change (h : Thinned now full part) (write : K → V × Int → V) :
  Thinned now (fun key => (full key).map fun e => (write key e, e.2))
    (fun key => (part key).map fun e => (write key e, e.2)) := by
  intro key
  rcases h key with heq | ⟨hn, entry, hent, hexp⟩
  · exact .inl (congrArg _ heq)
  refine .inr ⟨?_, (write key entry, entry.2), ?_, hexp⟩
  · dsimp only
    rw [hn]
    rfl
  · dsimp only
    rw [hent]
    rfl

end Thinned

theorem visible_collect (now : Int) (m : Expiring K V) :
  (m.collect now).visible now = m.visible now :=
  (Thinned.refl m).collect.visible_eq

end Expiring

end Vanetza.Lib
