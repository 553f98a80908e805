import Vanetza.Lib.Cuts
import Vanetza.Lib.Run
import Vanetza.Net.Packet

/-!
# The layers of a cohesive packet

A cohesive packet is cut into layers by eight boundaries into one buffer, and each operation moves
some of them on its own: `set_boundary` one, `trim` those that lie too far up, and a copy measures
all of them anew in its own buffer.
-/

namespace Vanetza

open Lib

namespace CohesivePacket

theorem neZero_eight : NeZero 8 := inferInstance

def boundary (packet : CohesivePacket) (i : Nat) : Nat :=
  packet.iterators (@Fin.ofNat 8 neZero_eight i)

/-- `rebuild_iterators`: `next`, which starts at the beginning of the buffer, is
moved on by the distance of two boundaries at a time. -/
def rebuildIterators (other : CohesivePacket) : Nat → Nat
  | 0 => 0
  | i + 1 => rebuildIterators other i + other.boundary (i + 1) - other.boundary i

def copy (other : CohesivePacket) : CohesivePacket :=
  ⟨other.buffer, fun i => rebuildIterators other i⟩

structure Ordered (packet : CohesivePacket) : Prop where
  start : packet.iterators 0 = 0
  monotone : Monotone packet.iterators
  inside : packet.iterators 7 ≤ packet.buffer.length

theorem lower_lt (layer : OsiLayer) : layer.index - 1 < layer.index := by cases layer <;> decide

theorem le_lower {layer : OsiLayer} {i : Fin 8} (h : i < layer.index) : i ≤ layer.index - 1 := by
  have hv : ((layer.index - 1 : Fin 8) : Nat) = layer.index - 1 := by cases layer <;> rfl
  rw [Fin.le_def, hv]
  rw [Fin.lt_def] at h
  omega

theorem Ordered.ofBuffer (buf : ByteBuffer) (layer : OsiLayer) :
  Ordered (ofBuffer buf layer) where
  start := by
    have hp : 0 < layer.index := by cases layer <;> decide
    exact if_pos hp
  monotone := by
    intro i j hij
    show ite _ _ _ ≤ ite _ _ _
    by_cases hj : j < layer.index
    · rw [if_pos (lt_of_le_of_lt hij hj)]
      exact Nat.zero_le _
    · rw [if_neg hj]
      split <;> omega
  inside := by
    have hl : layer.index ≤ 7 := Fin.le_last _
    exact (if_neg (not_lt.2 hl)).le

theorem buffer_trim (packet : CohesivePacket) (layer : OsiLayer) (bytes : Nat) :
  (packet.trim layer bytes).buffer = packet.buffer := by
  rw [trim]
  split <;> rfl

namespace Ordered

variable {packet : CohesivePacket} (h : Ordered packet)

include h

theorem lower_le (layer : OsiLayer) :
  packet.iterators (layer.index - 1) ≤ packet.iterators layer.index :=
  h.monotone (lower_lt layer).le

theorem setBoundary {layer : OsiLayer} {bytes : Nat} (hbs : bytes ≤ packet.size layer layer) :
  Ordered (packet.setBoundary layer bytes) := by
  have hn : packet.iterators (layer.index - 1) + bytes ≤ packet.iterators layer.index := by
    have hle := h.lower_le layer
    rw [size] at hbs
    omega
  have hp : (0 : Fin 8) ≠ layer.index := by cases layer <;> decide
  refine ⟨?_, ?_, ?_⟩
  · show ite _ _ _ = 0
    rw [if_neg hp]
    exact h.start
  · intro i j hij
    show ite _ _ _ ≤ ite _ _ _
    by_cases hi : i = layer.index
    · by_cases hj : j = layer.index
      · rw [if_pos hi, if_pos hj]
      · rw [if_pos hi, if_neg hj]
        exact hn.trans (h.monotone (hi ▸ hij))
    by_cases hj : j = layer.index
    · rw [if_neg hi, if_pos hj]
      have hlo := h.monotone (le_lower (lt_of_le_of_ne (hj ▸ hij) hi))
      omega
    · rw [if_neg hi, if_neg hj]
      exact h.monotone hij
  · show ite _ _ _ ≤ packet.buffer.length
    have hins := h.inside
    split
    · have hl := h.monotone (Fin.le_last layer.index)
      change _ ≤ packet.iterators 7 at hl
      omega
    · exact hins

theorem iterators_trim (layer : OsiLayer) (bytes : Nat) (i : Fin 8) :
  (packet.trim layer bytes).iterators i =
    if i < layer.index then packet.iterators i
    else min (packet.iterators i) (packet.iterators (layer.index - 1) + bytes) := by
  have hl : packet.iterators i ≤ packet.iterators 7 := h.monotone (Fin.le_last i)
  rw [CohesivePacket.trim]
  by_cases hs : packet.size layer .application > bytes
  · rw [if_pos hs]
    show ite _ _ _ = _
    by_cases hi : i < layer.index
    · have hlo := h.monotone (le_lower hi)
      rw [if_pos hi, if_neg (by omega)]
    have hlo : layer.index - 1 ≤ i := (lower_lt layer).le.trans (not_lt.1 hi)
    rw [if_neg hi]
    split <;> omega
  · rw [if_neg hs]
    have hle : packet.iterators 7 - packet.iterators (layer.index - 1) ≤ bytes := not_lt.1 hs
    split <;> omega

theorem trim (layer : OsiLayer) (bytes : Nat) : Ordered (packet.trim layer bytes) := by
  have hp : 0 < layer.index := by cases layer <;> decide
  refine ⟨?_, ?_, ?_⟩
  · rw [h.iterators_trim, if_pos hp]
    exact h.start
  · intro i j hij
    have hm := h.monotone hij
    rw [h.iterators_trim, h.iterators_trim]
    by_cases hj : j < layer.index
    · rw [if_pos hj, if_pos (lt_of_le_of_lt hij hj)]
      exact hm
    rw [if_neg hj]
    by_cases hi : i < layer.index
    · have hlo := h.monotone (le_lower hi)
      rw [if_pos hi]
      omega
    · rw [if_neg hi]
      omega
  · have hl : ¬ 7 < layer.index := not_lt.2 (Fin.le_last _)
    have hins := h.inside
    rw [h.iterators_trim, if_neg hl, buffer_trim]
    omega

theorem boundary_le {i j : Nat} (hij : i ≤ j) (hj : j ≤ 7) :
  packet.boundary i ≤ packet.boundary j := by
  apply h.monotone
  rw [Fin.le_def, Fin.val_ofNat, Fin.val_ofNat]
  omega

theorem rebuildIterators_eq {i : Nat} (hi : i ≤ 7) :
  packet.rebuildIterators i = packet.boundary i := by
  induction i with
  | zero => exact h.start.symm
  | succ i ih =>
    have hm := h.boundary_le (Nat.le_succ i) hi
    rw [rebuildIterators, ih (by omega)]
    omega

theorem copy_eq : packet.copy = packet := by
  have hs : (fun i : Fin 8 => packet.rebuildIterators i) = packet.iterators := by
    funext i
    rw [h.rebuildIterators_eq (by omega), boundary, Fin.ofNat_val_eq_self]
  rw [copy, hs]

end Ordered

/-! ## Layers

Layers are numbered in a row, so a range of layers is a range of numbers. -/

theorem osiLayerRange_index (first last : OsiLayer) :
  (osiLayerRange first last).map (fun layer => (layer.index : Nat) - 1) =
    List.range' (first.index - 1) (last.index + 1 - first.index) := by
  cases first <;> cases last <;> rfl

theorem get_eq (packet : CohesivePacket) (layer : OsiLayer) :
  packet.get layer = between packet.buffer (packet.boundary (layer.index - 1))
    (packet.boundary (layer.index - 1 + 1)) := by
  cases layer <;> rfl

theorem lower_eq (packet : CohesivePacket) (layer : OsiLayer) :
  packet.iterators (layer.index - 1) = packet.boundary (layer.index - 1) := by
  cases layer <;> rfl

theorem upper_eq (packet : CohesivePacket) (layer : OsiLayer) :
  packet.iterators layer.index = packet.boundary layer.index := by
  cases layer <;> rfl

theorem index_pos (layer : OsiLayer) : 1 ≤ (layer.index : Nat) := by cases layer <;> decide

namespace Ordered

variable {packet : CohesivePacket} (h : Ordered packet)

include h

theorem boundary_inside (layer : OsiLayer) : packet.iterators layer.index ≤ packet.buffer.length :=
  (h.monotone (Fin.le_last layer.index)).trans h.inside

theorem flatMap_get (first last : OsiLayer) :
  (osiLayerRange first last).flatMap packet.get = between packet.buffer
    (packet.iterators (first.index - 1)) (packet.iterators last.index) := by
  have hf := index_pos first
  have hl : (last.index : Nat) ≤ 7 := Nat.le_of_lt_succ last.index.isLt
  have hind : (osiLayerRange first last).flatMap packet.get =
      (List.range' (first.index - 1) (last.index + 1 - first.index)).flatMap
        fun i => between packet.buffer (packet.boundary i) (packet.boundary (i + 1)) := by
    rw [← osiLayerRange_index, List.flatMap_map]
    exact congrArg (List.flatMap · _) (funext packet.get_eq)
  rw [hind, lower_eq, upper_eq]
  by_cases hle : (first.index : Nat) ≤ last.index
  · have hend : (first.index : Nat) - 1 + (last.index + 1 - first.index) = last.index := by omega
    rw [flatMap_between, hend]
    intro i hi
    exact h.boundary_le (by omega) (by omega)
  -- no layer is in the range, and the last one ends below the first
  have hn : (last.index : Nat) + 1 - first.index = 0 := by omega
  have hb : packet.boundary last.index ≤ packet.boundary (first.index - 1) :=
    h.boundary_le (by omega) (by omega)
  rw [hn, between, List.drop_eq_nil_of_le]
  · rfl
  · exact (List.length_take_le _ _).trans hb

theorem length_get (layer : OsiLayer) : (packet.get layer).length = packet.size layer layer :=
  length_between (h.boundary_inside layer)

theorem size_eq_sum (first last : OsiLayer) : packet.size first last =
    ((osiLayerRange first last).map fun layer =>
      packet.size layer layer).sum := by
  have hl := congrArg List.length (h.flatMap_get first last)
  rw [length_between (h.boundary_inside last), List.length_flatMap] at hl
  rw [size, ← hl]
  exact congrArg (fun f => ((osiLayerRange first last).map f).sum) (funext h.length_get)

theorem flatMap_get_trim (layer : OsiLayer) (bytes : Nat) :
  (osiLayerRange layer .application).flatMap (packet.trim layer bytes).get =
    ((osiLayerRange layer .application).flatMap packet.get).take bytes := by
  have hl : ¬ OsiLayer.application.index < layer.index := not_lt.2 (Fin.le_last _)
  rw [(h.trim layer bytes).flatMap_get, h.flatMap_get, take_between,
    h.iterators_trim, h.iterators_trim, if_pos (lower_lt layer), if_neg hl, buffer_trim]

theorem size_trim (layer : OsiLayer) (bytes : Nat) :
  (packet.trim layer bytes).size layer .application =
    min bytes (packet.size layer .application) := by
  have hl : ¬ OsiLayer.application.index < layer.index := not_lt.2 (Fin.le_last _)
  rw [size, size, h.iterators_trim, h.iterators_trim, if_pos (lower_lt layer), if_neg hl]
  omega

theorem get_trim_of_lt {layer below : OsiLayer} (hb : below.index < layer.index)
  (bytes : Nat) : (packet.trim layer bytes).get below = packet.get below := by
  rw [get, get, h.iterators_trim, h.iterators_trim, if_pos hb,
    if_pos ((lower_lt below).trans hb), buffer_trim]

end Ordered

inductive Action where
  | setBoundary (layer : OsiLayer) (bytes : Nat)
  | trim (layer : OsiLayer) (bytes : Nat)
  | copy

def step (packet : CohesivePacket) : Action → CohesivePacket
  | .setBoundary layer bytes => packet.setBoundary layer bytes
  | .trim layer bytes => packet.trim layer bytes
  | .copy => packet.copy

def WithinLayer (packet : CohesivePacket) : Action → Prop
  | .setBoundary layer bytes => bytes ≤ packet.size layer layer
  | .trim _ _ => True
  | .copy => True

theorem Ordered.step {packet : CohesivePacket} (h : Ordered packet)
  {act : Action} (ha : packet.WithinLayer act) :
  Ordered (packet.step act) := by
  cases act with
  | setBoundary layer bytes => exact h.setBoundary ha
  | trim layer bytes => exact h.trim layer bytes
  | copy =>
    show Ordered packet.copy
    rw [h.copy_eq]
    exact h

theorem buffer_step (packet : CohesivePacket) (act : Action) :
  (packet.step act).buffer = packet.buffer := by
  cases act with
  | setBoundary layer bytes => rfl
  | trim layer bytes => exact buffer_trim packet layer bytes
  | copy => rfl

/-- What holds of a packet after any use of it: the boundaries are in order and
inside the buffer, ranges of layers are parts of the buffer, and their sizes
add up; trimming then leaves the beginning of what it trims, and a copy has the
same layers. -/
theorem layers_in_order (buffer : ByteBuffer) (layer : OsiLayer) (actions : List Action)
  (hactions : RunMeets step WithinLayer (ofBuffer buffer layer) actions) :
  let packet := run step (ofBuffer buffer layer) actions
  packet.buffer = buffer ∧ Monotone packet.iterators ∧ packet.iterators 7 ≤ packet.buffer.length ∧
    osiLayers.flatMap packet.get = between packet.buffer (packet.iterators 0) (packet.iterators 7) ∧
    (∀ first last, (osiLayerRange first last).flatMap packet.get =
      between packet.buffer (packet.iterators (first.index - 1)) (packet.iterators last.index)) ∧
    (∀ first last, packet.size first last =
      ((osiLayerRange first last).map fun l => (packet.get l).length).sum) ∧
    (∀ lowest bytes, (packet.trim lowest bytes).size lowest .application =
        min bytes (packet.size lowest .application) ∧
      (osiLayerRange lowest .application).flatMap (packet.trim lowest bytes).get =
        ((osiLayerRange lowest .application).flatMap packet.get).take bytes ∧
      ∀ l : OsiLayer, l.index < lowest.index → (packet.trim lowest bytes).get l = packet.get l) ∧
    ∀ l, packet.copy.get l = packet.get l := by
  intro packet
  have h : Ordered packet :=
    Run.invariant (fun _ _ hinv haction => hinv.step haction)
      (Ordered.ofBuffer buffer layer) hactions
  have hb : packet.buffer = buffer :=
    @Run.always _ _ step (fun p => p.buffer = buffer)
      (fun p act hp => (buffer_step p act).trans hp) _ _ rfl
  refine ⟨hb, h.monotone, h.inside, h.flatMap_get .physical .application, h.flatMap_get, ?_, ?_, ?_⟩
  · intro first last
    rw [h.size_eq_sum first last]
    exact congrArg (fun f => ((osiLayerRange first last).map f).sum)
      (funext fun l => (h.length_get l).symm)
  · intro lowest bytes
    exact ⟨h.size_trim lowest bytes, h.flatMap_get_trim lowest bytes,
      fun l hl => h.get_trim_of_lt hl bytes⟩
  · intro l
    rw [h.copy_eq]

def cutOff : List Action :=
  [.setBoundary .network 2, .setBoundary .transport 2, .trim .network 3, .copy]

theorem layers_in_order_cut_off :
  RunMeets step WithinLayer (ofBuffer [1, 2, 3, 4, 5] .network) cutOff ∧
    (run step (ofBuffer [1, 2, 3, 4, 5] .network) cutOff).get .transport = [3] ∧
    Monotone (run step (ofBuffer [1, 2, 3, 4, 5] .network) cutOff).iterators := by
  have ha : RunMeets step WithinLayer (ofBuffer [1, 2, 3, 4, 5] .network) cutOff := by
    refine ⟨?_, ?_, trivial, trivial, trivial⟩
    · show 2 ≤ (ofBuffer [1, 2, 3, 4, 5] .network).size .network .network
      decide
    · show 2 ≤ ((ofBuffer [1, 2, 3, 4, 5] .network).setBoundary .network 2).size
        .transport .transport
      decide
  exact ⟨ha, by decide, (layers_in_order _ _ _ ha).2.1⟩

end CohesivePacket

end Vanetza
