import Vanetza.Lib.Program

/-!
# Two programs side by side

Two programs agree if both return or both leave by the same exception, with
related values and related states. Where they start to differ only later, they
go through the same states before, and nothing has to be known of what they do
there (`bind_same`).
-/

namespace Vanetza.Lib

open Program

variable {ε σ α β γ δ : Type}

inductive Outcomes (R : σ → σ → Prop) (V : α → β → Prop) : Except ε α × σ → Except ε β × σ → Prop
  | ok {a : α} {b : β} {s t : σ} (hvalue : V a b) (hstate : R s t) :
      Outcomes R V (.ok a, s) (.ok b, t)
  | error {e : ε} {s t : σ} (hstate : R s t) : Outcomes R V (.error e, s) (.error e, t)

def Agree (R : σ → σ → Prop) (V : α → β → Prop) (x : Program ε σ α)
  (y : Program ε σ β) (s t : σ) : Prop :=
  Outcomes R V (x.exec s) (y.exec t)

namespace Agree

variable {R : σ → σ → Prop} {V : α → β → Prop} {W : γ → δ → Prop} {s t : σ}

theorem pure {a : α} {b : β} (hv : V a b) (hst : R s t) :
  Agree R V (pure a : Program ε σ α) (pure b) s t :=
  .ok hv hst

theorem throw (e : ε) (hst : R s t) : Agree R V (throw e : Program ε σ α) (throw e) s t :=
  .error hst

theorem modify {f g : σ → σ} (hst : R (f s) (g t)) :
  Agree R (fun _ _ => True) (modify f : Program ε σ PUnit) (modify g) s t :=
  .ok trivial hst

theorem set {s' t' : σ} (hst : R s' t') :
  Agree R (fun _ _ => True) (set s' : Program ε σ PUnit) (set t') s t :=
  .ok trivial hst

theorem get_bind {f : σ → Program ε σ γ} {g : σ → Program ε σ δ} (h : Agree R W (f s) (g t) s t) :
  Agree R W (get >>= f) (get >>= g) s t := h

theorem bind {x : Program ε σ α} {y : Program ε σ β} {f : α → Program ε σ γ}
  {g : β → Program ε σ δ} (h : Agree R V x y s t)
  (hr : ∀ a b s' t', V a b → R s' t' → Agree R W (f a) (g b) s' t') :
  Agree R W (x >>= f) (y >>= g) s t := by
  unfold Agree at h ⊢
  rcases hx : x.exec s with ⟨e | a, s'⟩
  · rcases hy : y.exec t with ⟨e' | b, t'⟩
    · rw [hx, hy] at h
      rw [exec_bind_error hx, exec_bind_error hy]
      cases h with
      | error hst => exact .error hst
    · rw [hx, hy] at h
      cases h
  · rcases hy : y.exec t with ⟨e' | b, t'⟩
    · rw [hx, hy] at h
      cases h
    · rw [hx, hy] at h
      rw [exec_bind_ok hx, exec_bind_ok hy]
      cases h with
      | ok hval hst => exact hr a b s' t' hval hst

theorem bind_same [Std.Refl R] {x : Program ε σ α} {f : α → Program ε σ γ}
  {g : α → Program ε σ δ} (hr : ∀ a s', Agree R W (f a) (g a) s' s') :
  Agree R W (x >>= f) (x >>= g) s s := by
  unfold Agree at hr ⊢
  rcases hx : x.exec s with ⟨e | a, s'⟩
  · rw [exec_bind_error hx, exec_bind_error hx]
    exact .error (Std.Refl.refl s')
  · rw [exec_bind_ok hx, exec_bind_ok hx]
    exact hr a s'

theorem same [Std.Refl R] {V : α → α → Prop} [Std.Refl V]
  (x : Program ε σ α) : Agree R V x x s s := by
  unfold Agree
  rcases x.exec s with ⟨e | a, s'⟩
  · exact .error (Std.Refl.refl s')
  · exact .ok (Std.Refl.refl a) (Std.Refl.refl s')

end Agree

end Vanetza.Lib
