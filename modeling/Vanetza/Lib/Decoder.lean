import Mathlib.Data.Vector.Basic

/-!
# Decoders over an octet stream

A decoder reads octets from the front of an input and may leave by an
exception. Apart from that the input carries a recorded failure: a decoder can
note that something was wrong and carry on, and only the first such note is
kept.
-/

namespace Vanetza.Lib

structure Input (κ : Type) where
  rest : List UInt8
  failure : Option κ
  deriving DecidableEq

/-- A decoder that throws `ε` and notes failures `κ`. -/
abbrev Decoder (ε κ α : Type) := StateT (Input κ) (Except ε) α

namespace Decoder

variable {ε κ α β : Type}

def octets (short : ε) (n : Nat) : Decoder ε κ (List.Vector UInt8 n) :=
  fun input =>
    if h : n ≤ input.rest.length then
      .ok (⟨input.rest.take n, List.length_take_of_le h⟩, { input with rest := input.rest.drop n })
    else .error short

def note (code : κ) : Decoder ε κ Unit :=
  fun input =>
    .ok ((), { input with failure := input.failure.or (some code) })

def isGood : Decoder ε κ Bool := fun input => .ok (input.failure.isNone, input)

def remaining : Decoder ε κ Nat := fun input => .ok (input.rest.length, input)

/-- Whatever the input, a decoded value satisfies `P`. -/
def Yields (d : Decoder ε κ α) (P : α → Prop) : Prop :=
  ∀ input a input', d input = .ok (a, input') → P a

variable {d : Decoder ε κ α} {f : α → Decoder ε κ β} {P : α → Prop} {Q : β → Prop}

theorem Yields.any (d : Decoder ε κ α) : Yields d fun _ => True := fun _ _ _ _ => trivial

theorem Yields.pure {a : α} (h : P a) : Yields (pure a : Decoder ε κ α) P := by
  rintro input a' input' ⟨⟩
  exact h

theorem Yields.throw (e : ε) : Yields (throw e : Decoder ε κ α) P := by rintro input a input' ⟨⟩

theorem Yields.bind (hd : Yields d P) (hf : ∀ a, P a → Yields (f a) Q) : Yields (d >>= f) Q := by
  intro input b input' h
  cases hd' : d input with
  | error e =>
    rw [show (d >>= f) input = .error e by
      simp only [Bind.bind, StateT.bind, hd', Except.bind]] at h
    cases h
  | ok out =>
    rw [show (d >>= f) input = f out.1 out.2 by
      simp only [Bind.bind, StateT.bind, hd', Except.bind]] at h
    exact hf out.1 (hd input out.1 out.2 hd') out.2 b input' h

theorem Yields.then (hf : ∀ a, Yields (f a) Q) : Yields (d >>= f) Q :=
  (Yields.any d).bind fun a _ => hf a

/-- Whatever the input, an exception satisfies `E`. -/
def Raises (d : Decoder ε κ α) (E : ε → Prop) : Prop := ∀ input e, d input = .error e → E e

variable {E : ε → Prop}

theorem Raises.pure (a : α) : Raises (pure a : Decoder ε κ α) E := by rintro input e ⟨⟩

theorem Raises.bind (hd : Raises d E) (hf : ∀ a, Raises (f a) E) : Raises (d >>= f) E := by
  intro input e h
  cases hd' : d input with
  | error e' =>
    rw [show (d >>= f) input = .error e' by
      simp only [Bind.bind, StateT.bind, hd', Except.bind]] at h
    cases h
    exact hd input e hd'
  | ok out =>
    rw [show (d >>= f) input = f out.1 out.2 by
      simp only [Bind.bind, StateT.bind, hd', Except.bind]] at h
    exact hf out.1 out.2 e h

theorem Raises.map (hd : Raises d E) (g : α → β) : Raises (g <$> d) E := hd.bind fun a => pure (g a)

theorem Raises.octets {short : ε} (h : E short) (n : Nat) :
  Raises (octets short n : Decoder ε κ (List.Vector UInt8 n)) E := by
  intro input e he
  unfold Decoder.octets at he
  split at he
  · cases he
  · cases he
    exact h

end Decoder

end Vanetza.Lib
