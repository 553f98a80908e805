import Mathlib

/-!
# Lanes

A lane lets items through in the order they come. An item is admitted, and either passes at once,
which it may only if nothing waits, or joins the ones that wait.
-/

namespace Vanetza.Lib

open List

structure Lane (α : Type*) where
  admitted : List α
  waiting : List α
  delivered : List α
  removed : List α

namespace Lane

variable {α : Type*}

def empty : Lane α := ⟨[], [], [], []⟩

def pass (lane : Lane α) (item : α) : Lane α :=
  { lane with
    admitted := lane.admitted ++ [item]
    delivered := lane.delivered ++ [item] }

def join (lane : Lane α) (item : α) : Lane α :=
  { lane with
    admitted := lane.admitted ++ [item]
    waiting := lane.waiting ++ [item] }

/-- Deliver the first that waits, `item`, before the others. -/
def deliver (lane : Lane α) (item : α) (rest : List α) : Lane α :=
  { lane with waiting := rest, delivered := lane.delivered ++ [item] }

def deliverAll (lane : Lane α) (items rest : List α) : Lane α :=
  { lane with waiting := rest, delivered := lane.delivered ++ items }

def remove (lane : Lane α) (kept gone : List α) : Lane α :=
  { lane with waiting := kept, removed := lane.removed ++ gone }

structure Accounted (lane : Lane α) : Prop where
  inOrder : (lane.delivered ++ lane.waiting).Sublist lane.admitted
  all : (lane.delivered ++ lane.waiting ++ lane.removed).Perm lane.admitted

namespace Accounted

variable {lane : Lane α}

theorem empty : (Lane.empty : Lane α).Accounted := ⟨List.Sublist.refl _, List.Perm.refl _⟩

theorem perm_snoc {inOrder removed admitted : List α}
  (h : (inOrder ++ removed).Perm admitted) (item : α) :
  (inOrder ++ [item] ++ removed).Perm (admitted ++ [item]) := by
  have hm : (inOrder ++ [item] ++ removed).Perm (inOrder ++ removed ++ [item]) := by
    rw [append_assoc, append_assoc]
    exact perm_append_comm.append_left inOrder
  exact hm.trans (h.append_right [item])

theorem pass (h : lane.Accounted) (hemp : lane.waiting = []) (item : α) :
  (lane.pass item).Accounted := by
  obtain ⟨hin, ha⟩ := h
  rw [hemp, append_nil] at hin ha
  refine ⟨?_, ?_⟩
  · show (lane.delivered ++ [item] ++ lane.waiting).Sublist (lane.admitted ++ [item])
    rw [hemp, append_nil]
    exact hin.append (List.Sublist.refl _)
  · show (lane.delivered ++ [item] ++ lane.waiting ++ lane.removed).Perm (lane.admitted ++ [item])
    rw [hemp, append_nil]
    exact perm_snoc ha item

theorem join (h : lane.Accounted) (item : α) : (lane.join item).Accounted := by
  refine ⟨?_, ?_⟩
  · show (lane.delivered ++ (lane.waiting ++ [item])).Sublist (lane.admitted ++ [item])
    rw [← append_assoc]
    exact h.inOrder.append (List.Sublist.refl _)
  · show (lane.delivered ++ (lane.waiting ++ [item]) ++ lane.removed).Perm (lane.admitted ++ [item])
    rw [← append_assoc]
    exact perm_snoc h.all item

theorem deliverAll (h : lane.Accounted) {items rest : List α} (hf : lane.waiting = items ++ rest) :
  (lane.deliverAll items rest).Accounted := by
  have hs : lane.delivered ++ items ++ rest = lane.delivered ++ lane.waiting := by
    rw [hf, append_assoc]
  refine ⟨?_, ?_⟩
  · show (lane.delivered ++ items ++ rest).Sublist lane.admitted
    rw [hs]
    exact h.inOrder
  · show (lane.delivered ++ items ++ rest ++ lane.removed).Perm lane.admitted
    rw [hs]
    exact h.all

theorem deliver (h : lane.Accounted) {item : α} {rest : List α} (hf : lane.waiting = item :: rest) :
  (lane.deliver item rest).Accounted :=
  @deliverAll α lane h [item] rest hf

theorem remove (h : lane.Accounted) {kept gone : List α} (hk : kept.Sublist lane.waiting)
  (ha : (kept ++ gone).Perm lane.waiting) :
  (lane.remove kept gone).Accounted := by
  refine ⟨?_, ?_⟩
  · show (lane.delivered ++ kept).Sublist lane.admitted
    exact (hk.append_left _).trans h.inOrder
  show (lane.delivered ++ kept ++ (lane.removed ++ gone)).Perm lane.admitted
  refine List.Perm.trans ?_ h.all
  -- those that go move over to where the removed are
  have hs : (kept ++ (lane.removed ++ gone)).Perm (kept ++ gone ++ lane.removed) := by
    rw [append_assoc]
    exact perm_append_comm.append_left kept
  rw [append_assoc, append_assoc]
  exact (hs.trans (ha.append_right _)).append_left _

theorem mem_admitted_of_waiting (h : lane.Accounted) {item : α}
  (hit : item ∈ lane.waiting) : item ∈ lane.admitted :=
  h.inOrder.subset (List.mem_append_right _ hit)

theorem mem_admitted_of_removed (h : lane.Accounted) {item : α}
  (hit : item ∈ lane.removed) : item ∈ lane.admitted :=
  h.all.subset (List.mem_append_right _ hit)

theorem delivered_sublist (h : lane.Accounted) : lane.delivered.Sublist lane.admitted :=
  (List.sublist_append_left _ _).trans h.inOrder

theorem count [DecidableEq α] (h : lane.Accounted) (item : α) :
  lane.waiting.count item + lane.removed.count item +
    lane.delivered.count item = lane.admitted.count item := by
  have hc := h.all.count_eq item
  rw [count_append, count_append] at hc
  omega

end Accounted

end Lane

end Vanetza.Lib
