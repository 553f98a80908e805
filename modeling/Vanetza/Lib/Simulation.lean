import Mathlib
import Vanetza.Lib.Run

/-!
# Systems that answer

Each action of such a system has an answer. Two systems that are given the same actions cannot be
told apart if their answers are the same throughout.
-/

namespace Vanetza.Lib

variable {σ τ υ α β : Type*}

def answers (step : σ → α → σ × β) : σ → List α → List β
  | _, [] => []
  | s, action :: rest =>
    (step s action).2 :: answers step (step s action).1 rest

def after (step : σ → α → σ × β) : σ → List α → σ := run fun s action => (step s action).1

theorem after_append (step : σ → α → σ × β) (s : σ) (acts : List α) (act : α) :
  after step s (acts ++ [act]) = (step (after step s acts) act).1 :=
  Run.append _ s acts [act]

def Simulates (step : σ → α → σ × β) (step' : τ → α → τ × β) (R : σ → τ → Prop) : Prop :=
  ∀ s t action, R s t → (step s action).2 = (step' t action).2 ∧
    R (step s action).1 (step' t action).1

namespace Simulates

variable {step : σ → α → σ × β} {step' : τ → α → τ × β}
  {step'' : υ → α → υ × β} {R : σ → τ → Prop} {R' : τ → υ → Prop}

theorem answers_eq (h : Simulates step step' R) {s : σ} {t : τ} (hst : R s t)
  (actions : List α) : answers step s actions = answers step' t actions := by
  induction actions generalizing s t with
  | nil => rfl
  | cons act rest ih =>
    obtain ⟨ha, hn⟩ := h s t act hst
    rw [answers, answers, ha, ih hn]

theorem after (h : Simulates step step' R) {s : σ} {t : τ} (hst : R s t) (acts : List α) :
  R (Lib.after step s acts) (Lib.after step' t acts) := by
  induction acts generalizing s t with
  | nil => exact hst
  | cons act rest ih => exact ih (h s t act hst).2

theorem trans (h : Simulates step step' R) (h' : Simulates step' step'' R') :
  Simulates step step'' fun s u => ∃ t, R s t ∧ R' t u := by
  intro s u act hsu
  obtain ⟨t, hst, htu⟩ := hsu
  obtain ⟨ha, hn⟩ := h s t act hst
  obtain ⟨ha', hn'⟩ := h' t u act htu
  exact ⟨ha.trans ha', _, hn, hn'⟩

end Simulates

end Vanetza.Lib
