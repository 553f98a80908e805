import Vanetza.Lib.Format

/-!
# Demands on the run of a decoder

What a decoder does on its way is not visible in what it returns. A demand is a
predicate on the input a decoder starts from, and it is written down along the
steps of the decoder: `After d Q` looks at what comes after `d`.
-/

namespace Vanetza.Lib.Decoder

variable {ε κ α β : Type} {d : Decoder ε κ α} {f : α → Decoder ε κ β}

def After (d : Decoder ε κ α) (Q : α → Input κ → Prop) (input : Input κ) : Prop :=
  ∀ a output, d input = .ok (a, output) → Q a output

theorem after_iff {Q : α → Input κ → Prop} {input output : Input κ} {a : α}
  (h : d input = .ok (a, output)) : After d Q input ↔ Q a output := by
  constructor
  · intro ha
    exact ha a output h
  intro hQ a' output' h'
  rw [h] at h'
  cases h'
  exact hQ

theorem after_congr {Q Q' : α → Input κ → Prop}
  (h : ∀ a output, Q a output ↔ Q' a output) (input : Input κ) :
  After d Q input ↔ After d Q' input :=
  forall₃_congr fun a output _ => h a output

def Takes (d : Decoder ε κ α) (Q : α → Nat → Prop) (input : Input κ) : Prop :=
  After d (fun a output => Q a (input.rest.length - output.rest.length)) input

structure Audits (d : Decoder ε κ α) (W : Input κ → Prop) (F E : Format α) : Prop where
  recognizes : Recognizes d F
  within : ∀ {a w}, E a w → F a w
  meets : ∀ {a w} rest, F a w → (W ⟨w ++ rest, none⟩ ↔ E a w)

namespace Audits

variable {W : Input κ → Prop} {W' : α → Input κ → Prop} {F E F' E' : Format α} {H K : α → Format β}

theorem of_recognizes (h : Recognizes d F) : Audits d (fun _ => True) F F where
  recognizes := h
  within := id
  meets _ hw := iff_of_true trivial hw

theorem of_empty (W : Input κ → Prop) (h : Recognizes d Format.empty) :
  Audits d W Format.empty Format.empty where
  recognizes := h
  within := id
  meets _ hw := hw.elim

theorem of_prop (p : Prop) (h : Recognizes d F) : Audits d (fun _ => p) F fun a w => p ∧ F a w where
  recognizes := h
  within hw := hw.2
  meets _ hw := (and_iff_left hw).symm

theorem congr (h : Audits d W F E) (hF : ∀ a w, F a w ↔ F' a w)
  (hE : ∀ a w, E a w ↔ E' a w) : Audits d W F' E' where
  recognizes := h.recognizes.congr hF
  within hw := (hF _ _).1 (h.within ((hE _ _).2 hw))
  meets rest hw := (h.meets rest ((hF _ _).2 hw)).trans (hE _ _)

theorem congr_demand {V : Input κ → Prop} (h : Audits d W F E)
  (hV : ∀ bytes, V ⟨bytes, none⟩ ↔ W ⟨bytes, none⟩) : Audits d V F E where
  recognizes := h.recognizes
  within := h.within
  meets rest hw := (hV _).trans (h.meets rest hw)

theorem bind_of {P : α → Prop} (hd : Audits d W F E) (hP : ∀ a w, F a w → P a)
  (hf : ∀ a, P a → Audits (f a) (W' a) (H a) (K a)) (hs : ∀ a, Sticky (f a)) :
  Audits (d >>= f) (fun input => W input ∧ After d W' input) (F.bind H) (E.bind K) where
  recognizes := hd.recognizes.bind_of hP (fun a ha => (hf a ha).recognizes) hs
  within := by
    intro b w h
    obtain ⟨a, u, v, hu, hv, rfl⟩ := h
    have hu := hd.within hu
    exact ⟨a, u, v, hu, (hf a (hP a u hu)).within hv, rfl⟩
  meets := by
    have hstep : ∀ {a b u v} rest, F a u → H a b v →
        ((W ⟨u ++ v ++ rest, none⟩ ∧ After d W' ⟨u ++ v ++ rest, none⟩) ↔ E a u ∧ K a b v) := by
      intro a b u v rest hu hv
      rw [List.append_assoc, hd.meets (v ++ rest) hu,
        after_iff (hd.recognizes.complete (v ++ rest) hu), (hf a (hP a u hu)).meets rest hv]
    intro b w rest h
    constructor
    · intro hW
      obtain ⟨a, u, v, hu, hv, rfl⟩ := h
      obtain ⟨hu, hv⟩ := (hstep rest hu hv).1 hW
      exact ⟨a, u, v, hu, hv, rfl⟩
    intro hE
    obtain ⟨a, u, v, hu, hv, rfl⟩ := hE
    have hF := hd.within hu
    exact (hstep rest hF ((hf a (hP a u hF)).within hv)).2 ⟨hu, hv⟩

theorem bind (hd : Audits d W F E) (hf : ∀ a, Audits (f a) (W' a) (H a) (K a)) :
  Audits (d >>= f) (fun input => W input ∧ After d W' input) (F.bind H) (E.bind K) :=
  hd.bind_of (P := fun _ => True) (fun _ _ _ => trivial) (fun a _ => hf a)
    fun a => (hf a).recognizes.sticky

theorem bind_right (hd : Recognizes d F) (hf : ∀ a, Audits (f a) (W' a) (H a) (K a)) :
  Audits (d >>= f) (After d W') (F.bind H) (F.bind K) :=
  ((of_recognizes hd).bind hf).congr_demand fun _ =>
    (and_iff_right trivial).symm

theorem bind_left (hd : Audits d W F E) (hf : ∀ a, Recognizes (f a) (H a)) :
  Audits (d >>= f) W (F.bind H) (E.bind H) :=
  (hd.bind fun a => of_recognizes (hf a)).congr_demand fun _ =>
    (and_iff_left fun _ _ _ => trivial).symm

theorem map (hd : Audits d W F E) (g : α → β) : Audits (g <$> d) W (F.map g) (E.map g) where
  recognizes := hd.recognizes.map g
  within := by
    intro b w h
    obtain ⟨a, hw, rfl⟩ := h
    exact ⟨a, hd.within hw, rfl⟩
  meets := by
    intro b w rest h
    constructor
    · intro hW
      obtain ⟨a, hw, rfl⟩ := h
      exact ⟨a, (hd.meets rest hw).1 hW, rfl⟩
    · intro hE
      obtain ⟨a, hw, rfl⟩ := hE
      exact (hd.meets rest (hd.within hw)).2 hw

theorem ite {c : Prop} [Decidable c] {d' : Decoder ε κ α}
  (hd : Audits d W F E) (hd' : Recognizes d' Format.empty) :
  Audits (if c then d else d') W (fun a w => c ∧ F a w) fun a w => c ∧ E a w where
  recognizes := hd.recognizes.ite hd'
  within h := ⟨h.1, hd.within h.2⟩
  meets rest h := (hd.meets rest h.2).trans (and_iff_right h.1).symm

theorem ite_else {c : Prop} [Decidable c] {d' : Decoder ε κ α}
  {V : Input κ → Prop} (hd : Audits d W F E) (hd' : Audits d' V F' E') :
  Audits (if c then d else d') (fun input => (c → W input) ∧ (¬ c → V input))
    (fun a w => (c ∧ F a w) ∨ (¬ c ∧ F' a w)) (fun a w => (c ∧ E a w) ∨ (¬ c ∧ E' a w)) := by
  by_cases hc : c
  · have hl : ∀ (G G' : Format α) a w, G a w ↔ (c ∧ G a w) ∨ (¬ c ∧ G' a w) := by
      intro G G' a w
      rw [and_iff_right hc, or_iff_left fun h => h.1 hc]
    rw [if_pos hc]
    refine (hd.congr (hl F F') (hl E E')).congr_demand fun input => ?_
    exact ⟨fun h => h.1 hc, fun h => ⟨fun _ => h, fun hn => absurd hc hn⟩⟩
  · have hr : ∀ (G G' : Format α) a w, G' a w ↔ (c ∧ G a w) ∨ (¬ c ∧ G' a w) := by
      intro G G' a w
      rw [and_iff_right hc, or_iff_right fun h => hc h.1]
    rw [if_neg hc]
    refine (hd'.congr (hr F F') (hr E E')).congr_demand fun input => ?_
    exact ⟨fun h => h.2 hc, fun h => ⟨fun hp => absurd hp hc, fun _ => h⟩⟩

theorem takes {Q : α → Nat → Prop} (hd : Audits d W F E) :
  Audits d (fun input => W input ∧ Takes d Q input) F fun a w => E a w ∧ Q a w.length where
  recognizes := hd.recognizes
  within h := hd.within h.1
  meets := by
    intro a w rest hw
    have ht : (w ++ rest).length - rest.length = w.length := by
      rw [List.length_append, Nat.add_sub_cancel]
    rw [hd.meets rest hw, Takes, after_iff (hd.recognizes.complete rest hw), ht]

end Audits

end Vanetza.Lib.Decoder
