import Mathlib.Order.Defs.Unbundled

/-!
# Programs with a state and exceptions

A program changes a state and may leave by an exception, which keeps the changes made so far. `Stays
R` is a frame condition: whatever the outcome, the state afterwards is related to the one before by
a preorder `R`.
-/

namespace Vanetza.Lib

/-- A program over states `σ` that may throw `ε`. -/
abbrev Program (ε σ α : Type) := ExceptT ε (StateM σ) α

variable {ε σ α β : Type}

def Program.exec (x : Program ε σ α) (s : σ) : Except ε α × σ := x.run s

def Program.orThrow (e : ε) : Option α → Program ε σ α
  | some a => pure a
  | none => throw e

variable {x : Program ε σ α} {f : α → Program ε σ β} {s : σ} {e : ε} {a : α}

namespace Program

theorem ext {y : Program ε σ α} (h : ∀ s, x.exec s = y.exec s) : x = y := funext h

variable {s' : σ}

theorem exec_bind_ok (h : x.exec s = (.ok a, s')) : (x >>= f).exec s = (f a).exec s' := by
  have hr : (x >>= f).exec s = ExceptT.bindCont f (x.exec s).1 (x.exec s).2 := rfl
  rw [hr, h]
  rfl

theorem exec_bind_error (h : x.exec s = (.error e, s')) : (x >>= f).exec s = (.error e, s') := by
  have hr : (x >>= f).exec s = ExceptT.bindCont f (x.exec s).1 (x.exec s).2 := rfl
  rw [hr, h]
  rfl

theorem exec_bind_eq_ok {b : β} : (x >>= f).exec s = (.ok b, s') ↔
    ∃ a t, x.exec s = (.ok a, t) ∧ (f a).exec t = (.ok b, s') := by
  constructor
  · intro h
    rcases hex : x.exec s with ⟨e | a, t⟩
    · rw [exec_bind_error hex] at h
      cases h
    · rw [exec_bind_ok hex] at h
      exact ⟨a, t, rfl, h⟩
  · rintro ⟨a, t, hx, hf⟩
    rw [exec_bind_ok hx, hf]

theorem ite_bind {c : Prop} [Decidable c] (x : Program ε σ PUnit) (f : PUnit → Program ε σ α) :
  (if c then x >>= f else f ⟨⟩) = (if c then x else pure ⟨⟩) >>= f := by
  split
  · rfl
  · exact (pure_bind _ _).symm

theorem exec_return_snd (x : Program ε σ α) (b : β) (s : σ) :
    ((x >>= fun _ => pure b).exec s).2 = (x.exec s).2 := by
  rcases hex : x.exec s with ⟨e | a, s'⟩
  · rw [exec_bind_error hex]
  · rw [exec_bind_ok hex]
    rfl

theorem exec_discard_snd (x : Program ε σ α) (s : σ) :
  ((discard x : Program ε σ PUnit).exec s).2 = (x.exec s).2 := by
  have hb : (discard x : Program ε σ PUnit).exec s = (x >>= fun _ => pure ⟨⟩).exec s := rfl
  rw [hb]
  exact exec_return_snd x _ s

theorem ofExcept_ok_bind (a : α) (f : α → Program ε σ β) :
  MonadExcept.ofExcept (.ok a) >>= f = f a := rfl

theorem exec_ofExcept (x : Except ε α) (s : σ) :
  (MonadExcept.ofExcept x : Program ε σ α).exec s = (x, s) := by
  cases x <;> rfl

theorem exec_orThrow_eq_ok {x : Option α} :
  (orThrow e x).exec s = (.ok a, s') ↔ x = some a ∧ s' = s := by
  cases x with
  | none =>
    constructor
    · rintro ⟨⟩
    · rintro ⟨⟨⟩, -⟩
  | some b =>
    constructor
    · rintro ⟨⟩
      exact ⟨rfl, rfl⟩
    · rintro ⟨⟨⟩, rfl⟩
      rfl

end Program

def Stays (R : σ → σ → Prop) (x : Program ε σ α) (s : σ) : Prop := R s (x.exec s).2

namespace Stays

variable {R : σ → σ → Prop} [IsPreorder σ R] {s : σ}

theorem pure (a : α) : Stays R (pure a : Program ε σ α) s := refl_of R s

theorem bind (hx : Stays R x s) (hf : ∀ a s', x.exec s = (.ok a, s') → Stays R (f a) s') :
  Stays R (x >>= f) s := by
  unfold Stays at hx ⊢
  rcases hex : x.exec s with ⟨e | a, s'⟩
  · rw [Program.exec_bind_error hex]
    rwa [hex] at hx
  · rw [Program.exec_bind_ok hex]
    rw [hex] at hx
    exact trans_of R hx (hf a s' hex)

theorem ofExcept_bind {x : Except ε α} (h : ∀ a, x = .ok a → Stays R (f a) s) :
  Stays R (MonadExcept.ofExcept x >>= f) s := by
  refine bind ?_ fun a s' hex => ?_
  · rw [Stays, Program.exec_ofExcept]
    exact refl_of R s
  · rw [Program.exec_ofExcept] at hex
    obtain ⟨rfl, rfl⟩ := Prod.mk.inj hex
    exact h a rfl

end Stays

/-- From a state with the invariant a program ends in one with the invariant. It
returns what satisfies `Q` and throws what satisfies `E`. -/
structure Keeps (I : σ → Prop) (E : ε → Prop) (x : Program ε σ α) (Q : α → Prop) : Prop where
  state : ∀ {s}, I s → I (x.exec s).2
  returns : ∀ {s a}, I s → (x.exec s).1 = .ok a → Q a
  throws : ∀ {s e}, I s → (x.exec s).1 = .error e → E e

namespace Keeps

variable {I : σ → Prop} {E : ε → Prop} {Q : α → Prop} {R : β → Prop}

theorem pure (h : Q a) : Keeps I E (pure a : Program ε σ α) Q where
  state hs := hs
  returns _ := by
    rintro ⟨⟩
    exact h
  throws _ := by rintro ⟨⟩

theorem throw (h : E e) : Keeps I E (throw e : Program ε σ α) Q where
  state hs := hs
  returns _ := by rintro ⟨⟩
  throws _ := by
    rintro ⟨⟩
    exact h

theorem bind (hx : Keeps I E x Q) (hf : ∀ a, Q a → Keeps I E (f a) R) : Keeps I E (x >>= f) R := by
  have hc : ∀ {s}, I s → (∃ e s', (x >>= f).exec s = (.error e, s') ∧ I s' ∧ E e) ∨
        ∃ a s', (x >>= f).exec s = (f a).exec s' ∧ I s' ∧ Q a := by
    intro s hs
    have hst := hx.state hs
    rcases hex : x.exec s with ⟨e | a, s'⟩
    · rw [hex] at hst
      exact .inl ⟨e, s', Program.exec_bind_error hex, hst, hx.throws hs (by rw [hex])⟩
    · rw [hex] at hst
      exact .inr ⟨a, s', Program.exec_bind_ok hex, hst, hx.returns hs (by rw [hex])⟩
  refine ⟨?_, ?_, ?_⟩
  · intro s hs
    rcases hc hs with ⟨e, s', h, hs', -⟩ | ⟨a, s', h, hs', ha⟩ <;> rw [h]
    · exact hs'
    · exact (hf a ha).state hs'
  · intro s b hs
    rcases hc hs with ⟨e, s', h, hs', -⟩ | ⟨a, s', h, hs', ha⟩ <;> rw [h]
    · rintro ⟨⟩
    · exact (hf a ha).returns hs'
  intro s e hs
  rcases hc hs with ⟨e', s', h, hs', he⟩ | ⟨a, s', h, hs', ha⟩ <;> rw [h]
  · rintro ⟨⟩
    exact he
  · exact (hf a ha).throws hs'

theorem ofExec (h : ∀ s, I s → ∃ y, Keeps I E y Q ∧ x.exec s = y.exec s) : Keeps I E x Q where
  state := by
    intro s hs
    obtain ⟨y, hy, heq⟩ := h s hs
    rw [heq]
    exact hy.state hs
  returns := by
    intro s a hs
    obtain ⟨y, hy, heq⟩ := h s hs
    rw [heq]
    exact hy.returns hs
  throws := by
    intro s e hs
    obtain ⟨y, hy, heq⟩ := h s hs
    rw [heq]
    exact hy.throws hs

theorem weaken {Q' : α → Prop} (hx : Keeps I E x Q) (h : ∀ a, Q a → Q' a) : Keeps I E x Q' where
  state := hx.state
  returns hs ha := h _ (hx.returns hs ha)
  throws := hx.throws

theorem get : Keeps I E (get : Program ε σ σ) I where
  state hs := hs
  returns hs := by
    rintro ⟨⟩
    exact hs
  throws _ := by rintro ⟨⟩

theorem set (h : I s) : Keeps I E (set s : Program ε σ PUnit) fun _ => True where
  state _ := h
  returns _ _ := trivial
  throws _ := by rintro ⟨⟩

theorem modify {f : σ → σ} (h : ∀ s, I s → I (f s)) :
  Keeps I E (modify f : Program ε σ PUnit) fun _ => True where
  state hs := h _ hs
  returns _ _ := trivial
  throws _ := by rintro ⟨⟩

theorem ofExcept {x : Except ε α} (hok : ∀ a, x = .ok a → Q a) (herr : ∀ e, x = .error e → E e) :
  Keeps I E (MonadExcept.ofExcept x : Program ε σ α) Q where
  state hs := by
    rw [Program.exec_ofExcept]
    exact hs
  returns _ h := by
    rw [Program.exec_ofExcept] at h
    exact hok _ h
  throws _ h := by
    rw [Program.exec_ofExcept] at h
    exact herr _ h

theorem orThrow {x : Option α} (h : ∀ a, x = some a → Q a) (he : E e) :
  Keeps I E (Program.orThrow e x) Q := by
  cases x with
  | none => exact throw he
  | some a => exact pure (h a rfl)

theorem forM {f : β → Program ε σ PUnit} {list : List β}
  (h : ∀ b ∈ list, Keeps I E (f b) fun _ => True) :
  Keeps I E (list.forM f) fun _ => True := by
  induction list with
  | nil => exact pure trivial
  | cons b rest ih =>
    obtain ⟨hb, hr⟩ := List.forall_mem_cons.1 h
    exact bind hb fun _ _ => ih hr

end Keeps

end Vanetza.Lib
