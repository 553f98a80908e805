import Vanetza.Geonet.CbfPacketBuffer
import Vanetza.Lib.Expiring
import Vanetza.Lib.Keyed
import Vanetza.Lib.Run

/-!
# Collecting what has expired

The hash map and the heap of a `SoftStateMap` are linked: every value has a
handle to an element of the heap with its key. What they stand for is a map from
keys to values with an expiry, `view`.
-/

namespace Vanetza.Geonet

open Lib List Function Expiring

namespace SoftStateMap

variable {K V : Type} [DecidableEq K] {m : SoftStateMap K V} {now : Int} {key : K}

structure Linked (m : SoftStateMap K V) : Prop where
  keys : (m.map.map MapElement.key).Nodup
  handles : (m.heap.map HeapElement.handle).Nodup
  linked : (m.heap.map fun element => (element.handle, element.key)).Perm
    (m.map.map fun data => (data.handle, data.key))
  fresh : ∀ element ∈ m.heap, element.handle < m.nextHandle

omit [DecidableEq K] in
theorem linked_empty (lifetime : Int) : (empty lifetime : SoftStateMap K V).Linked where
  keys := List.nodup_nil
  handles := List.nodup_nil
  linked := List.Perm.refl []
  fresh _ h := by cases h

def view (m : SoftStateMap K V) : Expiring K V := fun key =>
  (m.getDataPtr key).bind fun data =>
    (m.heap.find? fun element => element.handle = data.handle).map
      fun element => (data.value, element.expiry)

structure Shows (m : SoftStateMap K V) (entries : Expiring K V) (lifetime : Int) : Prop where
  linked : m.Linked
  view : m.view = entries
  lifetime : m.lifetime = lifetime

namespace Linked

variable (h : m.Linked)

include h

omit [DecidableEq K] in
theorem element {data : MapElement K V} (hd : data ∈ m.map) :
  ∃ element ∈ m.heap, element.handle = data.handle ∧ element.key = data.key := by
  have hp : (data.handle, data.key) ∈ m.heap.map fun element =>
      (element.handle, element.key) :=
    h.linked.mem_iff.2 (mem_map.2 ⟨data, hd, rfl⟩)
  obtain ⟨element, hm, heq⟩ := mem_map.1 hp
  exact ⟨element, hm, congrArg Prod.fst heq, congrArg Prod.snd heq⟩

omit [DecidableEq K] in
theorem key_eq {data : MapElement K V} (hd : data ∈ m.map)
  {elt : HeapElement K} (helt : elt ∈ m.heap)
  (hh : elt.handle = data.handle) : elt.key = data.key := by
  obtain ⟨linked, hlin, hl, hk⟩ := h.element hd
  rw [← hk, inj_on_of_nodup_map h.handles helt hlin (hh.trans hl.symm)]

omit [DecidableEq K] in
theorem data {elt : HeapElement K} (helt : elt ∈ m.heap) :
  ∃ data ∈ m.map, data.handle = elt.handle ∧ data.key = elt.key := by
  have hp : (elt.handle, elt.key) ∈ m.map.map fun data =>
      (data.handle, data.key) :=
    h.linked.mem_iff.1 (mem_map.2 ⟨elt, helt, rfl⟩)
  obtain ⟨data, hm, heq⟩ := mem_map.1 hp
  exact ⟨data, hm, congrArg Prod.fst heq, congrArg Prod.snd heq⟩

omit [DecidableEq K] in
theorem heap_keys : (m.heap.map HeapElement.key).Nodup := by
  have hp := h.linked.map Prod.snd
  rw [map_map, map_map] at hp
  exact hp.nodup_iff.2 h.keys

omit [DecidableEq K] in
theorem isExpired_eq {elt : HeapElement K} (helt : elt ∈ m.heap) (now : Int) :
  m.isExpired now elt.handle = decide (elt.expiry < now) := by
  rw [isExpired, Bool.eq_iff_iff, any_eq_true, decide_eq_true_eq]
  constructor
  · rintro ⟨other, ho, hexp⟩
    obtain ⟨hh, hexp⟩ := of_decide_eq_true hexp
    rwa [← inj_on_of_nodup_map h.handles ho helt hh]
  · intro hexp
    exact ⟨elt, helt, decide_eq_true ⟨rfl, hexp⟩⟩

theorem view_eq {data : MapElement K V} (hd : data ∈ m.map)
  {elt : HeapElement K} (helt : elt ∈ m.heap) (hh : elt.handle = data.handle) :
  m.view data.key = some (data.value, elt.expiry) := by
  rw [view, getDataPtr, find?_key_eq h.keys hd, Option.bind_some, ← hh, find?_key_eq h.handles helt]
  rfl

theorem view_cases (key : K) : (m.getDataPtr key = none ∧ m.view key = none) ∨
    ∃ data ∈ m.map, ∃ elt ∈ m.heap, data.key = key ∧
      elt.handle = data.handle ∧ m.getDataPtr key = some data ∧
      m.view key = some (data.value, elt.expiry) ∧
      ∀ now, m.isExpired now data.handle = decide (elt.expiry < now) := by
  cases hd : m.getDataPtr key with
  | none => exact .inl ⟨rfl, by rw [view, hd]; rfl⟩
  | some data =>
    have hm := mem_of_find?_eq_some hd
    have hk : data.key = key := of_decide_eq_true (find?_some hd :)
    obtain ⟨elt, helt, hh, -⟩ := h.element hm
    refine .inr ⟨data, hm, elt, helt, hk, hh, rfl, ?_, ?_⟩
    · rw [← hk]
      exact h.view_eq hm helt hh
    · rw [← hh]
      exact h.isExpired_eq helt

theorem getDataPtr_value (key : K) :
  (m.getDataPtr key).map MapElement.value = (m.view key).map Prod.fst := by
  rcases h.view_cases key with ⟨hd, hv⟩ | ⟨data, -, elt, -, -, -, hd, hv, -⟩ <;> rw [hd, hv] <;> rfl

theorem getValuePtr_eq (now : Int) (key : K) : m.getValuePtr now key = m.view.visible now key := by
  rw [getValuePtr]
  rcases h.view_cases key with ⟨hd, hv⟩ | ⟨data, -, elt, -, -, -, hd, hv, hexp⟩
  · rw [hd, visible_of_eq_none hv]
  rw [hd, visible_of_eq_some hv]
  dsimp only
  rw [hexp]
  by_cases hlt : elt.expiry < now
  · rw [if_pos (decide_eq_true hlt), if_neg (Int.not_le.2 hlt)]
  · rw [if_neg (by simpa using hlt), if_pos (Int.not_lt.1 hlt)]

end Linked

theorem getDataPtr_none_iff : m.getDataPtr key = none ↔ key ∉ m.map.map MapElement.key := by
  rw [getDataPtr, find?_eq_none]
  simp only [decide_eq_true_eq, mem_map, not_exists, not_and]

theorem Linked.insert (h : m.Linked) (hn : m.getDataPtr key = none) (now : Int) (value : V) :
  (m.insert now key value).Linked where
  keys := List.nodup_cons.2 ⟨getDataPtr_none_iff.1 hn, h.keys⟩
  handles := by
    refine nodup_cons.2 ⟨fun hm => ?_, h.handles⟩
    obtain ⟨elt, helt, hh⟩ := mem_map.1 hm
    exact Nat.ne_of_lt (h.fresh elt helt) hh
  linked := h.linked.cons _
  fresh := by
    refine forall_mem_cons.2 ⟨Nat.lt_succ_self _, fun elt helt => ?_⟩
    exact Nat.lt_succ_of_lt (h.fresh elt helt)

theorem Linked.view_insert (h : m.Linked) (hn : m.getDataPtr key = none) (now : Int) (value : V) :
  (m.insert now key value).view = Function.update m.view key (some (value, now + m.lifetime)) := by
  have ha := h.insert hn now value
  funext other
  by_cases ho : other = key
  · subst ho
    rw [update_self]
    exact ha.view_eq mem_cons_self mem_cons_self rfl
  rw [update_of_ne ho]
  rcases h.view_cases other with ⟨hd, hv⟩ | ⟨data, hd, elt, helt, rfl, hh, -, hv, -⟩
  · rw [hv, view]
    have hs : (m.insert now key value).getDataPtr other = none := by
      rw [getDataPtr_none_iff] at hd ⊢
      exact not_mem_cons_of_ne_of_not_mem ho hd
    rw [hs]
    rfl
  · rw [hv]
    exact ha.view_eq (mem_cons_of_mem _ hd) (mem_cons_of_mem _ helt) hh

omit [DecidableEq K] in
theorem Linked.refreshHandle (h : m.Linked) (now : Int) (handle : Nat) :
  (m.refreshHandle now handle).Linked := by
  have hs : ∀ {β : Type} (field : HeapElement K → β), (∀ elt : HeapElement K, ∀ expiry,
        field { elt with expiry } = field elt) →
      (m.refreshHandle now handle).heap.map field = m.heap.map field := by
    intro β field hf
    rw [SoftStateMap.refreshHandle, map_map]
    refine map_congr_left fun elt _ => ?_
    rw [comp_apply]
    split
    · exact hf elt _
    · rfl
  refine ⟨h.keys, ?_, ?_, ?_⟩
  · rw [hs _ fun _ _ => rfl]
    exact h.handles
  · rw [hs _ fun _ _ => rfl]
    exact h.linked
  intro elt helt
  have hm := mem_map_of_mem (f := HeapElement.handle) helt
  rw [hs _ fun _ _ => rfl] at hm
  obtain ⟨before, hb, hh⟩ := mem_map.1 hm
  rw [← hh]
  exact h.fresh before hb

theorem Linked.view_refreshHandle (h : m.Linked) {data : MapElement K V}
  (hd : data ∈ m.map) (now : Int) :
  (m.refreshHandle now data.handle).view = Function.update m.view data.key
    (some (data.value, now + m.lifetime)) := by
  have haft := h.refreshHandle now data.handle
  funext other
  by_cases ho : other = data.key
  · subst ho
    obtain ⟨elt, helt, hh, -⟩ := h.element hd
    have hm : { elt with expiry := now + m.lifetime } ∈ (m.refreshHandle now data.handle).heap :=
      mem_map.2 ⟨elt, helt, if_pos hh⟩
    rw [update_self]
    exact haft.view_eq hd hm hh
  · rw [update_of_ne ho]
    rcases h.view_cases other with ⟨hn, hv⟩ | ⟨another, ha, elt, helt, rfl, hh, -, hv, -⟩
    · rw [hv, view]
      have hstl : (m.refreshHandle now data.handle).getDataPtr other = none := hn
      rw [hstl]
      rfl
    rw [hv]
    refine haft.view_eq ha (mem_map.2 ⟨elt, helt, ?_⟩) hh
    -- another key has another handle
    refine if_neg fun hs => ho ?_
    rw [← h.key_eq ha helt hh, h.key_eq hd helt hs]

def mapValues (f : MapElement K V → V) (m : SoftStateMap K V) : SoftStateMap K V :=
  { m with map := m.map.map fun data => { data with value := f data } }

omit [DecidableEq K] in
theorem Linked.mapValues (h : m.Linked) (f : MapElement K V → V) : (m.mapValues f).Linked where
  keys := by
    rw [SoftStateMap.mapValues, map_map]
    exact h.keys
  handles := h.handles
  linked := by
    rw [SoftStateMap.mapValues, map_map]
    exact h.linked
  fresh := h.fresh

theorem Linked.view_mapValues (h : m.Linked) (f : MapElement K V → V) (key : K) :
  (m.mapValues f).view key = (m.getDataPtr key).bind fun data =>
    (m.view key).map fun entry => (f data, entry.2) := by
  have ha := h.mapValues f
  rcases h.view_cases key with ⟨hn, hv⟩ | ⟨data, hd, elt, helt, rfl, hh, hf, hv, -⟩
  · have hs : (m.mapValues f).getDataPtr key = none := by
      rw [getDataPtr_none_iff] at hn ⊢
      rw [SoftStateMap.mapValues, map_map]
      exact hn
    rw [view, hs, hn]
    rfl
  · rw [hf, hv]
    exact ha.view_eq (mem_map.2 ⟨data, hd, rfl⟩) helt hh

theorem modify_eq (m : SoftStateMap K V) (key : K) (f : V → V) :
  m.modify key f = m.mapValues fun data =>
    if data.key = key then f data.value else data.value := by
  rw [modify, mapValues]
  congr 1
  refine map_congr_left fun data _ => ?_
  split <;> rfl

theorem Linked.modify (h : m.Linked) (key : K) (f : V → V) : (m.modify key f).Linked := by
  rw [modify_eq]
  exact h.mapValues _

theorem Linked.view_modify (h : m.Linked) (key : K) (f : V → V) :
  (m.modify key f).view = Function.update m.view key
    ((m.view key).map fun entry => (f entry.1, entry.2)) := by
  funext other
  rw [modify_eq, h.view_mapValues]
  rcases h.view_cases other with ⟨hn, hv⟩ | ⟨data, -, elt, -, hk, -, hf, hv, -⟩
  · rw [hn]
    by_cases ho : other = key
    · subst ho
      rw [update_self, hv]
      rfl
    · rw [update_of_ne ho, hv]
      rfl
  · rw [hf, Option.bind_some, hv, hk]
    by_cases ho : other = key
    · subst ho
      rw [update_self, hv, if_pos rfl]
      rfl
    · rw [update_of_ne ho, if_neg ho, hv]
      rfl

def modifyEntries (m : SoftStateMap K V) (now : Int) (f : K → V → V) : SoftStateMap K V :=
  m.mapValues fun data =>
    if m.isExpired now data.handle then data.value else f data.key data.value

theorem Linked.view_modifyEntries (h : m.Linked) (now : Int) (f : K → V → V) :
  (m.modifyEntries now f).view = fun key => (m.view key).map fun entry =>
    (if entry.2 < now then entry.1 else f key entry.1, entry.2) := by
  funext key
  rw [modifyEntries, h.view_mapValues]
  rcases h.view_cases key with ⟨hn, hv⟩ | ⟨data, -, elt, -, hk, -, hf, hv, hexp⟩
  · rw [hn, hv]
    rfl
  · rw [hf, hv, Option.bind_some, hexp, hk]
    simp only [Option.map_some, decide_eq_true_eq]

def without (element : HeapElement K) (m : SoftStateMap K V) : SoftStateMap K V :=
  { m with
    map := m.map.filter fun data => data.key ≠ element.key
    heap := m.heap.filter fun e => e.handle ≠ element.handle }

theorem Linked.without (h : m.Linked) {elt : HeapElement K}
  (helt : elt ∈ m.heap) : (m.without elt).Linked where
  keys := nodup_map_filter h.keys _
  handles := nodup_map_filter h.handles _
  linked := by
    -- in the heap a handle stands for a key
    have hh : (m.without elt).heap = m.heap.filter fun e => e.key ≠ elt.key := by
      refine filter_congr fun e he => decide_eq_decide.2 (not_congr ?_)
      constructor
      · intro hhnd
        rw [inj_on_of_nodup_map h.handles he helt hhnd]
      · intro hk
        rw [inj_on_of_nodup_map h.heap_keys he helt hk]
    have hf := h.linked.filter fun pair => pair.2 ≠ elt.key
    rw [filter_map, filter_map] at hf
    rw [hh]
    exact hf
  fresh e he := h.fresh e (mem_of_mem_filter he)

theorem Linked.view_without (h : m.Linked) {elt : HeapElement K} (helt : elt ∈ m.heap) :
  (m.without elt).view = Function.update m.view elt.key none := by
  have ha := h.without helt
  funext other
  by_cases ho : other = elt.key
  · have hn : (m.without elt).getDataPtr other = none := by
      rw [getDataPtr, find?_eq_none]
      intro data hd hkey
      have hne := of_decide_eq_true (mem_filter.1 hd).2
      exact hne ((of_decide_eq_true hkey).trans ho)
    rw [ho, update_self, ← ho, view, hn]
    rfl
  · rw [update_of_ne ho]
    rcases h.view_cases other with ⟨hn, hv⟩ | ⟨data, hd, e, he, rfl, hh, -, hv, -⟩
    · have hstl : (m.without elt).getDataPtr other = none := by
        rw [getDataPtr_none_iff] at hn ⊢
        exact fun hm => hn ((filter_sublist.map _).subset hm)
      rw [hv, view, hstl]
      rfl
    · rw [hv]
      refine ha.view_eq (mem_filter.2 ⟨hd, decide_eq_true ho⟩)
        (mem_filter.2 ⟨he, decide_eq_true fun hs => ?_⟩) hh
      refine ho ((h.key_eq hd he hh).symm.trans ?_)
      rw [inj_on_of_nodup_map h.handles he helt hs]

omit [DecidableEq K] in
theorem top_spec (heap : List (HeapElement K)) :
  (top heap = none ∧ heap = []) ∨ ∃ least ∈ heap, top heap = some least ∧
    ∀ elt ∈ heap, least.expiry ≤ elt.expiry := by
  induction heap with
  | nil => exact .inl ⟨rfl, rfl⟩
  | cons elt rest ih =>
    rw [top]
    rcases ih with ⟨hn, rfl⟩ | ⟨least, hl, ht, hle⟩
    · rw [hn]
      refine .inr ⟨elt, mem_cons_self, rfl, ?_⟩
      exact forall_mem_singleton.2 (Int.le_refl _)
    rw [ht]
    dsimp only
    split
    · next hlt =>
      refine .inr ⟨least, mem_cons_of_mem _ hl, rfl, ?_⟩
      exact forall_mem_cons.2 ⟨Int.le_of_lt hlt, hle⟩
    next hnot =>
    refine .inr ⟨elt, mem_cons_self, rfl, ?_⟩
    refine forall_mem_cons.2 ⟨Int.le_refl _, fun e he => ?_⟩
    exact Int.le_trans (Int.not_lt.1 hnot) (hle e he)

theorem Linked.shows_collect (h : m.Linked) (hle : ∀ elt ∈ m.heap, now ≤ elt.expiry) :
  m.Shows (m.view.collect now) m.lifetime := by
  refine ⟨h, funext fun key => Eq.symm ?_, rfl⟩
  refine collect_of_le fun entry hent => ?_
  rcases h.view_cases key with ⟨-, hv⟩ | ⟨data, -, elt, helt, -, -, -, hv, -⟩
  · rw [hv] at hent
    cases hent
  · rw [hv] at hent
    cases hent
    exact hle elt helt

theorem Linked.dropLoop (now : Int) {n : Nat} (h : m.Linked) (hn : m.heap.length ≤ n) :
  (SoftStateMap.dropLoop now n m).Shows (m.view.collect now) m.lifetime := by
  induction n generalizing m with
  | zero =>
    have hnil : m.heap = [] := length_eq_zero_iff.1 (Nat.le_zero.1 hn)
    refine h.shows_collect fun elt helt => ?_
    rw [hnil] at helt
    cases helt
  | succ n ih =>
    rw [SoftStateMap.dropLoop]
    rcases top_spec m.heap with ⟨ht, hnil⟩ | ⟨least, hl, ht, hle⟩
    · rw [ht]
      refine h.shows_collect fun elt helt => ?_
      rw [hnil] at helt
      cases helt
    rw [ht]
    dsimp only
    split
    · next hexp =>
      have hs : (m.without least).heap.length ≤ n := by
        have hlt : (m.without least).heap.length < m.heap.length :=
          length_filter_lt_length_iff_exists.2 ⟨least, hl, by simp⟩
        omega
      obtain ⟨hlin, hv, hlif⟩ := ih (h.without hl) hs
      refine ⟨hlin, hv.trans ?_, hlif⟩
      rw [h.view_without hl]
      obtain ⟨data, hd, hh, hk⟩ := h.data hl
      have hent := h.view_eq hd hl hh.symm
      rw [hk] at hent
      funext key
      by_cases ho : key = least.key
      · rw [ho, collect_of_lt hent hexp, collect, update_self]
        rfl
      · rw [collect, collect, update_of_ne ho]
    · next hnot =>
      refine h.shows_collect fun elt helt => ?_
      exact Int.le_trans (Int.not_lt.1 hnot) (hle elt helt)

theorem Linked.dropExpired (h : m.Linked) (now : Int) :
  (m.dropExpired now).Shows (m.view.collect now) m.lifetime :=
  h.dropLoop now (Nat.le_refl _)

def gotten (creator : V) (expiry now : Int) : Option (V × Int) → V × Int
  | none => (creator, expiry)
  | some entry => (entry.1, if entry.2 < now then expiry else entry.2)

def refreshed (creator : V) (expiry : Int) : Option (V × Int) → V × Int
  | none => (creator, expiry)
  | some entry => (entry.1, expiry)

theorem Linked.getValue (h : m.Linked) (now : Int) (creator : V) (key : K) :
  (m.getValue now creator key).Shows (Function.update m.view key
      (some (gotten creator (now + m.lifetime) now (m.view key)))) m.lifetime := by
  rw [SoftStateMap.getValue]
  rcases h.view_cases key with ⟨hn, hv⟩ | ⟨data, hd, elt, -, rfl, -, hf, hv, hexp⟩
  · rw [hn, hv]
    exact ⟨h.insert hn now creator, h.view_insert hn now creator, rfl⟩
  rw [hf, hv]
  dsimp only [gotten]
  rw [hexp]
  by_cases hlt : elt.expiry < now
  · rw [if_pos (decide_eq_true hlt), if_pos hlt]
    exact ⟨h.refreshHandle now _, h.view_refreshHandle hd now, rfl⟩
  · rw [if_neg (by simpa using hlt), if_neg hlt, ← hv]
    exact ⟨h, (update_eq_self _ _).symm, rfl⟩

theorem Linked.refresh (h : m.Linked) (now : Int) (creator : V) (key : K) :
  (m.refresh now creator key).Shows (Function.update m.view key
      (some (refreshed creator (now + m.lifetime) (m.view key)))) m.lifetime := by
  rw [SoftStateMap.refresh]
  rcases h.view_cases key with ⟨hn, hv⟩ | ⟨data, hd, elt, -, rfl, -, hf, hv, -⟩
  · rw [hn, hv]
    exact ⟨h.insert hn now creator, h.view_insert hn now creator, rfl⟩
  · rw [hf, hv]
    exact ⟨h.refreshHandle now _, h.view_refreshHandle hd now, rfl⟩

theorem value_of_entered {view : Expiring K V} {entry : V × Int} {lifetime : Int}
  (h : m.Shows (Function.update view key (some entry)) lifetime) :
  (m.getDataPtr key).map MapElement.value = some entry.1 := by
  rw [h.linked.getDataPtr_value, h.view, update_self]
  rfl

theorem Linked.mem_entries (h : m.Linked) (now : Int) (key : K) (value : V) :
  (key, value) ∈ m.entries now ↔ m.view.visible now key = some value := by
  rw [← h.getValuePtr_eq, entries, mem_map, getValuePtr]
  constructor
  · rintro ⟨data, hm, heq⟩
    obtain ⟨hd, hexp⟩ := mem_filter.1 hm
    cases heq
    rw [getDataPtr, find?_key_eq h.keys hd]
    dsimp only
    rw [if_neg (by simpa using hexp)]
  · intro hv
    split at hv
    · next data hf =>
      split at hv
      · cases hv
      next hexp =>
      cases hv
      refine ⟨data, mem_filter.2 ⟨mem_of_find?_eq_some hf, by simpa using hexp⟩, ?_⟩
      rw [of_decide_eq_true (find?_some hf :)]
    · cases hv

theorem entries_perm {m m' : SoftStateMap K V} (h : m.Linked) (h' : m'.Linked)
  (heq : m'.view.visible now = m.view.visible now) :
  (m'.entries now).Perm (m.entries now) := by
  have hn : ∀ {m : SoftStateMap K V}, m.Linked → (m.entries now).Nodup := by
    intro m h
    refine List.Nodup.of_map Prod.fst ?_
    rw [entries, map_map]
    exact nodup_map_filter h.keys _
  refine (perm_ext_iff_of_nodup (hn h') (hn h)).2 ?_
  rintro ⟨key, value⟩
  rw [h'.mem_entries, h.mem_entries, heq]

inductive Call (K V : Type) where
  | getValue (key : K) (write : V → V)
  | getValuePtr (key : K) (write : V → V)
  | refresh (key : K) (write : V → V)
  | map (write : K → V → V)
  | dropExpired
  | elapse (duration : Nat)

inductive Answer (K V : Type) where
  | value (value : Option V)
  | range (entries : Multiset (K × V))
  | nothing

end SoftStateMap

structure SoftStateUse (K V : Type) where
  map : SoftStateMap K V
  now : Int

namespace SoftStateUse

open SoftStateMap

variable {K V : Type} [DecidableEq K] {creator : Int → V} {s t : SoftStateUse K V}

def start (lifetime now : Int) : SoftStateUse K V := ⟨.empty lifetime, now⟩

def call (creator : Int → V) (s : SoftStateUse K V) : Call K V → Answer K V × SoftStateUse K V
  | .getValue key write =>
    let gotten := s.map.getValue s.now (creator s.now) key
    (.value ((gotten.getDataPtr key).map MapElement.value),
      { s with map := gotten.modify key write })
  | .getValuePtr key write =>
    match s.map.getValuePtr s.now key with
    | none => (.value none, s)
    | some value => (.value (some value), { s with map := s.map.modify key write })
  | .refresh key write =>
    let refreshed := s.map.refresh s.now (creator s.now) key
    (.value ((refreshed.getDataPtr key).map MapElement.value),
      { s with map := refreshed.modify key write })
  | .map write => (.range (s.map.entries s.now), { s with map := s.map.modifyEntries s.now write })
  | .dropExpired => (.nothing, { s with map := s.map.dropExpired s.now })
  | .elapse duration => (.nothing, { s with now := s.now + duration })

def step (creator : Int → V) (s : SoftStateUse K V) (c : Call K V) : SoftStateUse K V :=
  (s.call creator c).2

def answers (creator : Int → V) (s : SoftStateUse K V) : List (Call K V) → List (Answer K V)
  | [] => []
  | .dropExpired :: rest => answers creator (s.step creator .dropExpired) rest
  | c :: rest => (s.call creator c).1 :: answers creator (s.step creator c) rest

/-- The same calls with more of `dropExpired` in between. -/
inductive Collecting : List (Call K V) → List (Call K V) → Prop
  | nil : Collecting [] []
  | same (c : Call K V) {calls more : List (Call K V)} :
      Collecting calls more → Collecting (c :: calls) (c :: more)
  | extra {calls more : List (Call K V)} :
      Collecting calls more → Collecting calls (.dropExpired :: more)

omit [DecidableEq K] in
theorem Collecting.refl (calls : List (Call K V)) : Collecting calls calls := by
  induction calls with
  | nil => exact .nil
  | cons c rest ih => exact .same c ih

def Unresurrected (creator : Int → V) (s : SoftStateUse K V) : Call K V → Prop
  | .getValue key _ | .refresh key _ =>
    ∀ data, s.map.getDataPtr key = some data →
      s.map.isExpired s.now data.handle = true → data.value = creator s.now
  | _ => True

structure Behind (s t : SoftStateUse K V) : Prop where
  full : s.map.Linked
  part : t.map.Linked
  now : t.now = s.now
  lifetime : t.map.lifetime = s.map.lifetime
  thinned : Expiring.Thinned s.now s.map.view t.map.view

theorem Behind.refl (h : s.map.Linked) : s.Behind s := ⟨h, h, rfl, rfl, .refl _⟩

theorem Behind.extra (h : s.Behind t) : s.Behind (t.step creator .dropExpired) := by
  obtain ⟨hlin, hv, hl⟩ := h.part.dropExpired t.now
  refine ⟨h.full, hlin, h.now, hl.trans h.lifetime, ?_⟩
  show Expiring.Thinned s.now s.map.view (t.map.dropExpired t.now).view
  rw [hv, h.now]
  exact h.thinned.collect

theorem Behind.dropExpired (h : s.Behind t) :
  (s.step creator .dropExpired).Behind (t.step creator .dropExpired) := by
  obtain ⟨hlin, hv, hl⟩ := h.full.dropExpired s.now
  obtain ⟨hlin', hv', hl'⟩ := h.part.dropExpired t.now
  refine ⟨hlin, hlin', h.now, hl'.trans (h.lifetime.trans hl.symm), ?_⟩
  show Expiring.Thinned s.now (s.map.dropExpired s.now).view (t.map.dropExpired t.now).view
  rw [hv, hv', h.now]
  exact h.thinned.collect_both

theorem unresurrected_iff (h : s.map.Linked) (key : K) (value : V) :
  (∀ data, s.map.getDataPtr key = some data →
    s.map.isExpired s.now data.handle = true → data.value = value) ↔
    ∀ entry, s.map.view key = some entry → entry.2 < s.now → entry.1 = value := by
  rcases h.view_cases key with ⟨hn, hv⟩ | ⟨data, -, elt, -, -, -, hf, hv, hexp⟩
  · rw [hn, hv]
    exact iff_of_true (by rintro _ ⟨⟩) (by rintro _ ⟨⟩)
  · rw [hf, hv]
    simp only [Option.some.injEq, forall_eq', hexp, decide_eq_true_eq]

theorem Behind.accessed (h : s.Behind t) {key : K} (access : Option (V × Int) → V × Int)
  (hc : ∀ entry, s.map.view key = some entry → entry.2 < s.now →
    access (some entry) = access none) :
  access (t.map.view key) = access (s.map.view key) := by
  rcases h.thinned key with heq | ⟨hn, entry, hent, hlt⟩
  · rw [heq]
  · rw [hn, hent, hc entry hent hlt]

theorem Behind.modify (h : s.Behind t) {key : K}
  (hs : t.map.view key = s.map.view key) (write : V → V) :
  Behind { s with map := s.map.modify key write } { t with map := t.map.modify key write } := by
  refine ⟨h.full.modify key write, h.part.modify key write, h.now, h.lifetime, ?_⟩
  dsimp only
  rw [h.full.view_modify, h.part.view_modify, hs]
  exact h.thinned.update key _

theorem Behind.entered (h : s.Behind t) {key : K} {entry : V × Int} {full part : SoftStateMap K V}
  (hfull : full.Shows (Function.update s.map.view key (some entry)) s.map.lifetime)
  (hp : part.Shows (Function.update t.map.view key (some entry)) s.map.lifetime) (write : V → V) :
  (part.getDataPtr key).map MapElement.value = (full.getDataPtr key).map MapElement.value ∧
    Behind { s with map := full.modify key write } { t with map := part.modify key write } := by
  obtain ⟨hfull, hv, hl⟩ := hfull
  obtain ⟨hp, hv', hl'⟩ := hp
  have hs : part.view key = full.view key := by rw [hv, hv', update_self, update_self]
  have hb : Behind { s with map := full } { t with map := part } := by
    refine ⟨hfull, hp, h.now, hl'.trans hl.symm, ?_⟩
    dsimp only
    rw [hv, hv']
    exact h.thinned.update key _
  refine ⟨?_, hb.modify hs write⟩
  rw [hfull.getDataPtr_value, hp.getDataPtr_value, hs]

theorem Behind.call (h : s.Behind t) {c : Call K V} (hc : s.Unresurrected creator c) :
  (t.call creator c).1 = (s.call creator c).1 ∧ (s.step creator c).Behind (t.step creator c) := by
  obtain ⟨part, time⟩ := t
  obtain rfl : time = s.now := h.now
  cases c with
  | getValue key write =>
    have hent := h.accessed (gotten (creator s.now) (s.now + s.map.lifetime) s.now)
      fun entry hent hlt => by
        rw [gotten, gotten, if_pos hlt, (unresurrected_iff h.full key _).1 hc entry hent hlt]
    have hp := h.part.getValue s.now (creator s.now) key
    rw [h.lifetime, hent] at hp
    obtain ⟨ha, hb⟩ := h.entered (h.full.getValue s.now (creator s.now) key) hp write
    exact ⟨congrArg Answer.value ha, hb⟩
  | refresh key write =>
    have hent := h.accessed (refreshed (creator s.now) (s.now + s.map.lifetime))
      fun entry hent hlt => by
        rw [refreshed, refreshed, (unresurrected_iff h.full key _).1 hc entry hent hlt]
    have hp := h.part.refresh s.now (creator s.now) key
    rw [h.lifetime, hent] at hp
    obtain ⟨ha, hb⟩ := h.entered (h.full.refresh s.now (creator s.now) key) hp write
    exact ⟨congrArg Answer.value ha, hb⟩
  | getValuePtr key write =>
    have hv : part.getValuePtr s.now key = s.map.getValuePtr s.now key := by
      rw [h.part.getValuePtr_eq, h.full.getValuePtr_eq, h.thinned.visible_eq]
    simp only [SoftStateUse.call, step]
    rw [hv]
    cases hf : s.map.getValuePtr s.now key with
    | none => exact ⟨rfl, h⟩
    | some value =>
      -- what is visible has not been collected
      have hs : part.view key = s.map.view key := by
        refine (h.thinned key).resolve_right ?_
        rintro ⟨-, entry, hent, hlt⟩
        rw [h.full.getValuePtr_eq, visible, collect_of_lt hent hlt] at hf
        cases hf
      exact ⟨rfl, h.modify hs write⟩
  | map write =>
    refine ⟨congrArg Answer.range (Quotient.sound ?_), ?_⟩
    · exact entries_perm h.full h.part h.thinned.visible_eq
    refine ⟨h.full.mapValues _, h.part.mapValues _, rfl, h.lifetime, ?_⟩
    show Expiring.Thinned s.now (s.map.modifyEntries s.now write).view
      (part.modifyEntries s.now write).view
    rw [h.full.view_modifyEntries, h.part.view_modifyEntries]
    exact h.thinned.change fun key entry =>
      if entry.2 < s.now then entry.1 else write key entry.1
  | dropExpired => exact ⟨rfl, h.dropExpired⟩
  | elapse dur =>
    exact ⟨rfl, h.full, h.part, rfl, h.lifetime,
      h.thinned.later (Int.le_add_of_nonneg_right (Int.natCast_nonneg _))⟩

theorem linked_step (h : s.map.Linked) (c : Call K V) : (s.step creator c).map.Linked := by
  cases c with
  | getValue key write => exact (h.getValue _ _ _).linked.modify key write
  | getValuePtr key write =>
    rw [step, SoftStateUse.call]
    split
    · exact h
    · exact h.modify key write
  | refresh key write => exact (h.refresh _ _ _).linked.modify key write
  | map write => exact h.mapValues _
  | dropExpired => exact (h.dropExpired _).linked
  | elapse dur => exact h

theorem answers_cons {c : Call K V} (hc : c ≠ .dropExpired) (rest : List (Call K V)) :
  answers creator s (c :: rest) =
    (s.call creator c).1 :: answers creator (s.step creator c) rest := by
  cases c <;> first | rfl | exact absurd rfl hc

theorem Behind.answers_eq (h : s.Behind t) {calls more : List (Call K V)}
  (hm : Collecting calls more) (hrun : RunMeets (step creator) (Unresurrected creator) s calls) :
  answers creator t more = answers creator s calls := by
  induction hm generalizing s t with
  | nil => rfl
  | extra _ ih => exact ih h.extra hrun
  | same c _ ih =>
    obtain ⟨ha, hb⟩ := h.call hrun.1
    have hr := ih hb hrun.2
    by_cases hc : c = .dropExpired
    · subst hc
      exact hr
    · rw [answers_cons hc, answers_cons hc, ha, hr]

theorem unresurrected_of_call_eq (h : s.map.Linked) {c : Call K V}
  (heq : ((s.step creator .dropExpired).call creator c).1 =
    (s.call creator c).1) : s.Unresurrected creator c := by
  obtain ⟨hl, hv, -⟩ := h.dropExpired s.now
  cases c with
  | getValue key write =>
    refine (unresurrected_iff h key _).2 fun entry hent hlt => ?_
    have hn := collect_of_lt hent hlt
    rw [← hv] at hn
    have ha := Answer.value.inj heq
    rw [value_of_entered (h.getValue s.now (creator s.now) key), hent] at ha
    have hnew := value_of_entered (hl.getValue s.now (creator s.now) key)
    rw [hn] at hnew
    exact (Option.some.inj (hnew.symm.trans ha)).symm
  | refresh key write =>
    refine (unresurrected_iff h key _).2 fun entry hent hlt => ?_
    have hn := collect_of_lt hent hlt
    rw [← hv] at hn
    have ha := Answer.value.inj heq
    rw [value_of_entered (h.refresh s.now (creator s.now) key), hent] at ha
    have hnew := value_of_entered (hl.refresh s.now (creator s.now) key)
    rw [hn] at hnew
    exact (Option.some.inj (hnew.symm.trans ha)).symm
  | getValuePtr key write | map write | dropExpired | elapse dur => trivial

/-- Additional calls to `dropExpired` change no answer if and only if no expired value is asked for
by `getValue` or `refresh` before it has been collected. -/
theorem answers_eq_iff (creator : Int → V) (h : s.map.Linked) (calls : List (Call K V)) :
  (∀ more, Collecting calls more → answers creator s more = answers creator s calls) ↔
    RunMeets (step creator) (Unresurrected creator) s calls := by
  constructor
  · intro hs
    induction calls generalizing s with
    | nil => trivial
    | cons c rest ih =>
      constructor
      · by_cases hc : c = .dropExpired
        · subst hc
          trivial
        · have hext := hs _ (.extra (.refl (c :: rest)))
          rw [answers, answers_cons hc, answers_cons hc] at hext
          exact unresurrected_of_call_eq h (cons.inj hext).1
      · refine ih (linked_step h c) fun more hm => ?_
        have hb := hs _ (.same c hm)
        by_cases hc : c = .dropExpired
        · subst hc
          exact hb
        · rw [answers_cons hc, answers_cons hc] at hb
          exact (cons.inj hb).2
  · intro hr more hm
    exact (Behind.refl h).answers_eq hm hr

end SoftStateUse

structure CounterUse where
  counter : CbfCounter
  now : Int

namespace CounterUse

open SoftStateMap

inductive Call where
  | add (id : CbfPacketIdentifier)
  | remove (id : CbfPacketIdentifier)
  | increment (id : CbfPacketIdentifier)
  | elapse (duration : Nat)

def fading (lifetime now : Int) : CounterUse := ⟨.fading (.empty lifetime), now⟩

def step (s : CounterUse) : Call → CounterUse
  | .add id => { s with counter := s.counter.add s.now id }
  | .remove id => { s with counter := s.counter.remove id }
  | .increment id => { s with counter := s.counter.increment s.now id }
  | .elapse duration => { s with now := s.now + duration }

structure Counting (lifetime : Int) (counters : SoftStateMap CbfPacketIdentifier Nat) : Prop where
  linked : counters.Linked
  lifetime : counters.lifetime = lifetime
  positive : ∀ id entry, counters.view id = some entry → 1 ≤ entry.1

variable {counters : SoftStateMap CbfPacketIdentifier Nat} {lifetime : Int}

theorem Counting.counted (h : Counting lifetime counters)
  {after : SoftStateMap CbfPacketIdentifier Nat} {id : CbfPacketIdentifier} {entry : Nat × Int}
  (ha : after.Shows (Function.update counters.view id (some entry)) counters.lifetime) :
  Counting lifetime (after.modify id (· + 1)) ∧ (after.modify id (· + 1)).view =
      Function.update counters.view id (some (entry.1 + 1, entry.2)) := by
  obtain ⟨hl, hv, hlif⟩ := ha
  have hm : (after.modify id (· + 1)).view =
      update counters.view id (some (entry.1 + 1, entry.2)) := by
    rw [hl.view_modify, hv, update_self, update_idem]
    rfl
  refine ⟨⟨hl.modify id _, hlif.trans h.lifetime, ?_⟩, hm⟩
  intro other entry' he'
  rw [hm] at he'
  by_cases ho : other = id
  · rw [ho, update_self] at he'
    cases he'
    exact Nat.le_add_left 1 _
  · rw [update_of_ne ho] at he'
    exact h.positive other entry' he'

theorem Counting.dropExpired (h : Counting lifetime counters) (now : Int) :
  Counting lifetime (counters.dropExpired now) := by
  obtain ⟨hlin, hv, hl⟩ := h.linked.dropExpired now
  refine ⟨hlin, hl.trans h.lifetime, fun id entry hent => ?_⟩
  rw [hv] at hent
  exact h.positive id entry (eq_of_collect hent)

theorem counting_step {s : CounterUse}
  (h : ∃ counters, s.counter = .fading counters ∧ Counting lifetime counters)
  (c : Call) : ∃ counters, (s.step c).counter = .fading counters ∧ Counting lifetime counters := by
  obtain ⟨counters, hcnt, hc⟩ := h
  cases c with
  | add id =>
    refine ⟨_, congrArg (CbfCounter.add · s.now id) hcnt, ?_⟩
    exact (hc.counted (hc.linked.refresh s.now 0 id)).1.dropExpired s.now
  | remove id => exact ⟨_, congrArg (CbfCounter.remove · id) hcnt, hc⟩
  | increment id =>
    refine ⟨_, congrArg (CbfCounter.increment · s.now id) hcnt, ?_⟩
    exact (hc.counted (hc.linked.getValue s.now 0 id)).1
  | elapse dur => exact ⟨counters, hcnt, hc⟩

theorem counting_run (lifetime now : Int) (calls : List Call) :
  ∃ counters, (run step (fading lifetime now) calls).counter =
    .fading counters ∧ Counting lifetime counters := by
  have hstep : ∀ (s : CounterUse) (c : Call),
      (∃ counters, s.counter = .fading counters ∧ Counting lifetime counters) →
      ∃ counters, (s.step c).counter = .fading counters ∧
        Counting lifetime counters := fun _ c h => counting_step h c
  exact Run.always hstep ⟨_, rfl, linked_empty lifetime, rfl, by rintro _ _ ⟨⟩⟩

theorem Counting.count_add (h : Counting lifetime counters) (now : Int) (id : CbfPacketIdentifier) :
  ((CbfCounter.fading counters).add now id).count now id =
    if 0 ≤ lifetime then ((counters.view id).map Prod.fst).getD 0 + 1
    else 0 := by
  obtain ⟨hc, hv⟩ := h.counted (h.linked.refresh now 0 id)
  obtain ⟨hl, hcol, -⟩ := hc.linked.dropExpired now
  have hent := congrFun hv id
  rw [update_self] at hent
  rw [CbfCounter.add, CbfCounter.count, hl.getValuePtr_eq, hcol,
    visible_collect, visible_of_eq_some hent]
  have hval : (refreshed 0 (now + counters.lifetime) (counters.view id)).1 =
      ((counters.view id).map Prod.fst).getD 0 := by
    cases counters.view id <;> rfl
  have hex : (refreshed 0 (now + counters.lifetime) (counters.view id)).2 = now + lifetime := by
    rw [← h.lifetime]
    cases counters.view id <;> rfl
  dsimp only
  rw [hval, hex]
  by_cases hn : 0 ≤ lifetime
  · rw [if_pos (by omega), if_pos hn]
    rfl
  · rw [if_neg (by omega), if_neg hn]
    rfl

theorem Counting.count_add_eq_one_iff (h : Counting lifetime counters)
  (now : Int) (id : CbfPacketIdentifier) :
  ((CbfCounter.fading counters).add now id).count now id = 1 ↔
    counters.getDataPtr id = none ∧ 0 ≤ lifetime := by
  rw [h.count_add]
  rcases h.linked.view_cases id with ⟨hn, hv⟩ | ⟨data, -, elt, -, -, -, hf, hv, -⟩
  · rw [hn, hv]
    by_cases hnon : 0 ≤ lifetime
    · rw [if_pos hnon]
      exact iff_of_true rfl ⟨rfl, hnon⟩
    · rw [if_neg hnon]
      exact iff_of_false Nat.zero_ne_one fun hb => hnon hb.2
  · have hp := h.positive id _ hv
    dsimp only at hp
    rw [hf, hv]
    refine iff_of_false ?_ (by rintro ⟨⟨⟩, -⟩)
    split
    · rw [Option.map_some, Option.getD_some]
      omega
    · exact Nat.zero_ne_one

end CounterUse

/-- Additional calls to `dropExpired` change no answer if and only if no expired
value is asked for by `getValue` or `refresh` before it has been collected. A
fading counter is one after an addition if and only if nothing was stored for
it, also nothing that has expired, and if it does not expire at once. -/
theorem collection_unnoticed_iff {K V : Type} [DecidableEq K]
  (creator : Int → V) (lifetime now : Int) (calls : List (SoftStateMap.Call K V))
  (counterCalls : List CounterUse.Call) (id : CbfPacketIdentifier) :
  ((∀ more, SoftStateUse.Collecting calls more →
      SoftStateUse.answers creator (.start lifetime now) more =
        SoftStateUse.answers creator (.start lifetime now) calls) ↔
    RunMeets (SoftStateUse.step creator) (SoftStateUse.Unresurrected creator)
      (.start lifetime now) calls) ∧
  let s := run CounterUse.step (.fading lifetime now) counterCalls
  ∃ counters, s.counter = .fading counters ∧ ((s.counter.add s.now id).count s.now id = 1 ↔
      counters.getDataPtr id = none ∧ 0 ≤ lifetime) := by
  constructor
  · exact SoftStateUse.answers_eq_iff creator (SoftStateMap.linked_empty lifetime) calls
  intro s
  obtain ⟨counters, hcnt, hc⟩ := CounterUse.counting_run lifetime now counterCalls
  refine ⟨counters, hcnt, ?_⟩
  have hiff := hc.count_add_eq_one_iff s.now id
  rw [← hcnt] at hiff
  exact hiff

/-- A value that has expired after one second is asked for after two. It is the
old one, unless it has been collected, and so is the count. -/
theorem expired_value_comes_back :
  let write : Nat → Nat := (· + 1)
  let id : CbfPacketIdentifier := (⟨false, 0, 0, cBroadcastMacAddress⟩, ⟨1⟩)
  let answers := SoftStateUse.answers (fun _ => 0) (.start 1000000 0)
  let counter := run CounterUse.step (.fading 1000000 0) [.add id, .elapse 2000000]
  answers [.refresh () write, .elapse 2000000, .refresh () write] =
      [.value (some 0), .nothing, .value (some 1)] ∧
    answers [.refresh () write, .elapse 2000000, .dropExpired,
      .refresh () write] = [.value (some 0), .nothing, .value (some 0)] ∧
    counter.counter.count counter.now id = 0 ∧
    (counter.counter.add counter.now id).count counter.now id = 2 := by
  exact ⟨rfl, rfl, rfl, rfl⟩

end Vanetza.Geonet
