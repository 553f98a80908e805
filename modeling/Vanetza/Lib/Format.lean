import Vanetza.Lib.Decoder

/-!
# Formats and the decoders that recognize them

A format says which octets a value may be written as. It is a relation and not
a function, because many formats let a value be written in more than one way.
-/

namespace Vanetza.Lib

abbrev Format (α : Type) := α → List UInt8 → Prop

namespace Format

variable {α β : Type}

def pure (a : α) : Format α := fun a' w => a' = a ∧ w = []

def bind (F : Format α) (G : α → Format β) : Format β :=
  fun b w => ∃ a u v, F a u ∧ G a b v ∧ w = u ++ v

def map (g : α → β) (F : Format α) : Format β := fun b w => ∃ a, F a w ∧ b = g a

def empty : Format α := fun _ _ => False

def each (F : Format α) : Format (List α) :=
  fun list w => ∃ parts, List.Forall₂ F list parts ∧ w = parts.flatten

variable {F : Format α}

theorem each_nil {w : List UInt8} : each F [] w ↔ w = [] := by
  constructor
  · rintro ⟨parts, h, rfl⟩
    cases h
    rfl
  · rintro rfl
    exact ⟨[], .nil, rfl⟩

theorem each_cons {a : α} {list : List α} {w : List UInt8} :
  each F (a :: list) w ↔ ∃ u v, F a u ∧ each F list v ∧ w = u ++ v := by
  constructor
  · rintro ⟨parts, h, rfl⟩
    cases h with
    | @cons _ u _ parts hu ht => exact ⟨u, parts.flatten, hu, ⟨parts, ht, rfl⟩, List.flatten_cons⟩
  · rintro ⟨u, v, hu, ⟨parts, ht, rfl⟩, rfl⟩
    exact ⟨u :: parts, .cons hu ht, List.flatten_cons.symm⟩

end Format

namespace Decoder

variable {ε κ α β : Type}

theorem bind_apply (d : Decoder ε κ α) (f : α → Decoder ε κ β) (input : Input κ) :
  (d >>= f) input = (d input).bind fun out => f out.1 out.2 := rfl

theorem bind_ok {d : Decoder ε κ α} {f : α → Decoder ε κ β}
  {input middle : Input κ} {a : α} (h : d input = .ok (a, middle)) :
  (d >>= f) input = f a middle := by
  rw [bind_apply, h]
  rfl

theorem bind_eq_ok {d : Decoder ε κ α} {f : α → Decoder ε κ β}
  {input output : Input κ} {b : β} (h : (d >>= f) input = .ok (b, output)) :
  ∃ a middle, d input = .ok (a, middle) ∧ f a middle = .ok (b, output) := by
  rw [bind_apply] at h
  cases hd : d input with
  | error e =>
    rw [hd] at h
    cases h
  | ok out =>
    rw [hd] at h
    exact ⟨out.1, out.2, rfl, h⟩

def Sticky (d : Decoder ε κ α) : Prop :=
  ∀ bytes code a output, d ⟨bytes, some code⟩ = .ok (a, output) → output.failure = some code

namespace Sticky

variable {d : Decoder ε κ α} {f : α → Decoder ε κ β}

theorem pure (a : α) : Sticky (Pure.pure a : Decoder ε κ α) := by
  rintro bytes code a' output ⟨⟩
  rfl

theorem note (code : κ) : Sticky (note code : Decoder ε κ Unit) := by
  rintro bytes code' a output ⟨⟩
  rfl

theorem isGood : Sticky (isGood : Decoder ε κ Bool) := by
  rintro bytes code a output ⟨⟩
  rfl

theorem bind (hd : Sticky d) (hf : ∀ a, Sticky (f a)) : Sticky (d >>= f) := by
  intro bytes code b output h
  obtain ⟨a, ⟨left, failure⟩, h₁, h₂⟩ := bind_eq_ok h
  obtain rfl := hd _ _ _ _ h₁
  exact hf a _ _ _ _ h₂

end Sticky

structure Recognizes (d : Decoder ε κ α) (F : Format α) : Prop where
  sound : ∀ {bytes a rest}, d ⟨bytes, none⟩ = .ok (a, ⟨rest, none⟩) → ∃ w, F a w ∧ bytes = w ++ rest
  complete : ∀ {a w} rest, F a w → d ⟨w ++ rest, none⟩ = .ok (a, ⟨rest, none⟩)
  sticky : Sticky d

namespace Recognizes

variable {d : Decoder ε κ α} {f : α → Decoder ε κ β} {F G : Format α} {H : α → Format β}

theorem congr (h : Recognizes d F) (hFG : ∀ a w, F a w ↔ G a w) : Recognizes d G where
  sound hd := by
    obtain ⟨w, hw, rfl⟩ := h.sound hd
    exact ⟨w, (hFG _ _).1 hw, rfl⟩
  complete rest hw := h.complete rest ((hFG _ _).2 hw)
  sticky := h.sticky

theorem pure (a : α) : Recognizes (Pure.pure a : Decoder ε κ α) (Format.pure a) where
  sound := by
    rintro bytes a' rest ⟨⟩
    exact ⟨[], ⟨rfl, rfl⟩, rfl⟩
  complete := by
    rintro a' w rest ⟨rfl, rfl⟩
    rfl
  sticky := Sticky.pure a

theorem throw (e : ε) : Recognizes (MonadExcept.throw e : Decoder ε κ α) Format.empty where
  sound := by rintro bytes a rest ⟨⟩
  complete := by rintro a w rest ⟨⟩
  sticky := by rintro bytes code a output ⟨⟩

theorem bind_of {P : α → Prop} (hd : Recognizes d F) (hP : ∀ a w, F a w → P a)
  (hf : ∀ a, P a → Recognizes (f a) (H a)) (hs : ∀ a, Sticky (f a)) :
  Recognizes (d >>= f) (F.bind H) where
  sound := by
    intro bytes b rest h
    obtain ⟨a, ⟨left, failure⟩, h₁, h₂⟩ := bind_eq_ok h
    cases failure with
    | some code => cases hs a _ _ _ _ h₂
    | none =>
      obtain ⟨u, hu, rfl⟩ := hd.sound h₁
      obtain ⟨v, hv, rfl⟩ := (hf a (hP a u hu)).sound h₂
      exact ⟨u ++ v, ⟨a, u, v, hu, hv, rfl⟩, (List.append_assoc u v rest).symm⟩
  complete := by
    rintro b w rest ⟨a, u, v, hu, hv, rfl⟩
    rw [List.append_assoc, bind_ok (hd.complete (v ++ rest) hu)]
    exact (hf a (hP a u hu)).complete rest hv
  sticky := hd.sticky.bind hs

theorem bind (hd : Recognizes d F) (hf : ∀ a, Recognizes (f a) (H a)) :
  Recognizes (d >>= f) (F.bind H) :=
  hd.bind_of (P := fun _ => True) (fun _ _ _ => trivial) (fun a _ => hf a) fun a => (hf a).sticky

theorem bind_written {s : α → List UInt8} (hd : Recognizes d fun a w => w = s a)
  (hf : ∀ a, Recognizes (f a) (H a)) :
  Recognizes (d >>= f) fun b w => ∃ a v, H a b v ∧ w = s a ++ v := by
  refine (hd.bind hf).congr fun b w => ?_
  constructor
  · rintro ⟨a, u, v, rfl, hv, rfl⟩
    exact ⟨a, v, hv, rfl⟩
  · rintro ⟨a, v, hv, rfl⟩
    exact ⟨a, s a, v, rfl, hv, rfl⟩

theorem map (hd : Recognizes d F) (g : α → β) : Recognizes (g <$> d) (F.map g) := by
  have h : Recognizes (d >>= fun a => Pure.pure (g a)) _ := hd.bind fun a => pure (g a)
  refine h.congr fun b w => ?_
  constructor
  · rintro ⟨a, u, v, hu, ⟨rfl, rfl⟩, rfl⟩
    exact ⟨a, by rwa [List.append_nil], rfl⟩
  · rintro ⟨a, hu, rfl⟩
    exact ⟨a, w, [], hu, ⟨rfl, rfl⟩, (List.append_nil w).symm⟩

theorem octets (short : ε) (n : Nat) :
  Recognizes (octets short n : Decoder ε κ (List.Vector UInt8 n)) fun v w => w = v.toList where
  sound := by
    intro bytes v rest h
    unfold Decoder.octets at h
    split at h
    · next hle =>
      cases h
      exact ⟨bytes.take n, rfl, (List.take_append_drop n bytes).symm⟩
    · cases h
  complete := by
    rintro v w rest rfl
    have hl : v.toList.length = n := v.toList_length
    have hle : n ≤ (v.toList ++ rest).length := by
      rw [List.length_append, hl]
      exact Nat.le_add_right n rest.length
    have ht : (v.toList ++ rest).take n = v.toList := List.take_left' hl
    have hd : (v.toList ++ rest).drop n = rest := List.drop_left' hl
    unfold Decoder.octets
    rw [dif_pos hle]
    simp only [ht, hd]
    rfl
  sticky := by
    intro bytes code v output h
    unfold Decoder.octets at h
    split at h
    · cases h
      rfl
    · cases h

theorem note (code : κ) : Recognizes (note code : Decoder ε κ Unit) Format.empty where
  sound := by rintro bytes a rest ⟨⟩
  complete := by rintro a w rest ⟨⟩
  sticky := Sticky.note code

theorem isGood : Recognizes (isGood : Decoder ε κ Bool) (Format.pure true) where
  sound := by
    rintro bytes a rest ⟨⟩
    exact ⟨[], ⟨rfl, rfl⟩, rfl⟩
  complete := by
    rintro a w rest ⟨rfl, rfl⟩
    rfl
  sticky := Sticky.isGood

theorem bind_empty (hd : Recognizes d Format.empty) (hf : ∀ a, Recognizes (f a) (H a)) :
  Recognizes (d >>= f) Format.empty :=
  (hd.bind hf).congr fun _ _ => ⟨fun ⟨_, _, _, h, _⟩ => h, False.elim⟩

theorem ite {c : Prop} [Decidable c] {d' : Decoder ε κ α}
  (hd : Recognizes d F) (hd' : Recognizes d' Format.empty) :
  Recognizes (if c then d else d') fun a w => c ∧ F a w := by
  by_cases hc : c
  · rw [if_pos hc]
    exact hd.congr fun a w => (and_iff_right hc).symm
  · rw [if_neg hc]
    exact hd'.congr fun a w => (iff_of_false id fun h => hc h.1)

theorem ite_else {c : Prop} [Decidable c] {d' : Decoder ε κ α}
  (hd : Recognizes d F) (hd' : Recognizes d' G) :
  Recognizes (if c then d else d') fun a w => (c ∧ F a w) ∨ (¬ c ∧ G a w) := by
  by_cases hc : c
  · rw [if_pos hc]
    refine hd.congr fun a w => ?_
    rw [and_iff_right hc, or_iff_left fun h => h.1 hc]
  · rw [if_neg hc]
    refine hd'.congr fun a w => ?_
    rw [and_iff_right hc, or_iff_right fun h => hc h.1]

theorem unique (h : Recognizes d F) {a a' : α} {u v rest rest' : List UInt8}
  (hu : F a u) (hv : F a' v) (heq : u ++ rest = v ++ rest') :
  a = a' ∧ rest = rest' := by
  have hr := h.complete rest hu
  rw [heq, h.complete rest' hv] at hr
  cases hr
  exact ⟨rfl, rfl⟩

end Recognizes

def Quiet (d : Decoder ε κ α) : Prop :=
  ∀ input a output, d input = .ok (a, output) → output.failure = input.failure

namespace Quiet

variable {d : Decoder ε κ α} {f : α → Decoder ε κ β}

theorem pure (a : α) : Quiet (Pure.pure a : Decoder ε κ α) := by
  rintro input a' output ⟨⟩
  rfl

theorem bind (hd : Quiet d) (hf : ∀ a, Quiet (f a)) : Quiet (d >>= f) := by
  intro input b output h
  obtain ⟨a, middle, h₁, h₂⟩ := bind_eq_ok h
  exact (hf a middle b output h₂).trans (hd input a middle h₁)

theorem map (hd : Quiet d) (g : α → β) : Quiet (g <$> d) := hd.bind fun a => pure (g a)

theorem octets (short : ε) (n : Nat) :
  Quiet (octets short n : Decoder ε κ (List.Vector UInt8 n)) := by
  intro input v output h
  unfold Decoder.octets at h
  split at h
  · cases h
    rfl
  · cases h

end Quiet

end Decoder

end Vanetza.Lib
