import Vanetza.Geonet.SoftStateCollection

/-!
# How long an entry stays

An entry of a `SoftStateMap` expires a lifetime after it was put in or refreshed. The lifetime is
the one in force at that moment; to set another one later makes no difference to it.
-/

namespace Vanetza.Geonet

open Lib Option

namespace SoftStateMap

variable {K V : Type} [DecidableEq K] {m : SoftStateMap K V}

def expiry (m : SoftStateMap K V) (key : K) : Option Int := (m.view key).map Prod.snd

theorem Linked.expiry_modify (h : m.Linked) (key : K) (f : V → V) :
  (m.modify key f).expiry = m.expiry := by
  funext other
  rw [expiry, h.view_modify]
  by_cases ho : other = key
  · subst ho
    rw [Function.update_self, map_map]
    rfl
  · rw [Function.update_of_ne ho]
    rfl

theorem Linked.isSome_expiry (h : m.Linked) (key : K) :
  (m.expiry key).isSome = true ↔ key ∈ m.map.map MapElement.key := by
  rcases h.view_cases key with ⟨hn, hv⟩ | ⟨data, hd, elt, -, rfl, -, -, hv, -⟩
  · have hm := getDataPtr_none_iff.1 hn
    simp only [expiry, hv, map_none, isSome_none, hm]
    simp
  · have hm := List.mem_map_of_mem (f := MapElement.key) hd
    simp only [expiry, hv, map_some, isSome_some, hm]

theorem Shows.expiry_entered {view : Expiring K V} {lifetime : Int} {key : K} {entry : V × Int}
  (h : m.Shows (Function.update view key (some entry)) lifetime) (other : K) :
  m.expiry other = if key = other then some entry.2
    else (view other).map Prod.snd := by
  rw [expiry, h.view]
  by_cases ho : key = other
  · subst ho
    rw [Function.update_self, if_pos rfl]
    rfl
  · rw [Function.update_of_ne (Ne.symm ho), if_neg ho]

end SoftStateMap

namespace SoftStateUse

open SoftStateMap

variable {K V : Type} [DecidableEq K] {creator : Int → V} {s : SoftStateUse K V}

def renews (s : SoftStateUse K V) : Call K V → Option K
  | .getValue key _ =>
    match s.map.getDataPtr key with
    | none => some key
    | some data => if s.map.isExpired s.now data.handle then some key else none
  | .refresh key _ => some key
  | _ => none

def collects : Call K V → Bool
  | .dropExpired => true
  | _ => false

theorem expiry_getValue (h : s.map.Linked) (key : K) (write : V → V) (other : K) :
  (s.step creator (.getValue key write)).map.expiry other =
    if s.renews (.getValue key write) = some other then
      some (s.now + s.map.lifetime)
    else s.map.expiry other := by
  have hg := h.getValue s.now (creator s.now) key
  show ((s.map.getValue s.now (creator s.now) key).modify key write).expiry other = _
  rw [hg.linked.expiry_modify, hg.expiry_entered, renews]
  rcases h.view_cases key with ⟨hn, hv⟩ | ⟨data, -, elt, -, -, -, hf, hv, hexp⟩
  · simp only [hn, hv, gotten, some.injEq]
    rfl
  simp only [hf, hv, gotten, hexp, decide_eq_true_eq]
  by_cases hlt : elt.expiry < s.now
  · simp only [hlt, if_true, some.injEq]
    rfl
  simp only [hlt, if_false]
  by_cases ho : key = other
  · subst ho
    simp [expiry, hv]
  · simp [ho, expiry]

theorem expiry_refresh (h : s.map.Linked) (key : K) (write : V → V) (other : K) :
  (s.step creator (.refresh key write)).map.expiry other =
    if key = other then some (s.now + s.map.lifetime)
    else s.map.expiry other := by
  have hr := h.refresh s.now (creator s.now) key
  show ((s.map.refresh s.now (creator s.now) key).modify key write).expiry other = _
  rw [hr.linked.expiry_modify, hr.expiry_entered]
  rcases h.view_cases key with ⟨-, hv⟩ | ⟨data, -, elt, -, -, -, -, hv, -⟩
  · simp only [hv, refreshed]
    rfl
  · simp only [hv, refreshed]
    rfl

theorem expiry_step (h : s.map.Linked) (c : Call K V) (key : K) :
  (s.step creator c).map.expiry key =
    if s.renews c = some key then some (s.now + s.map.lifetime)
    else if collects c then
      (s.map.expiry key).filter fun expiry => s.now ≤ expiry
    else s.map.expiry key := by
  cases c with
  | getValue other write => exact expiry_getValue h other write key
  | getValuePtr other write =>
    simp only [renews, collects, reduceCtorEq, if_false, Bool.false_eq_true]
    rw [step, SoftStateUse.call]
    split
    · rfl
    · exact congrFun (h.expiry_modify other write) key
  | refresh other write =>
    simp only [renews, some.injEq]
    exact expiry_refresh h other write key
  | map write =>
    simp only [renews, collects, reduceCtorEq, if_false, Bool.false_eq_true]
    show (s.map.modifyEntries s.now write).expiry key = _
    rw [expiry, h.view_modifyEntries, map_map, expiry]
    rfl
  | dropExpired =>
    simp only [renews, collects, reduceCtorEq, if_false, if_true]
    show (s.map.dropExpired s.now).expiry key = _
    rw [expiry, (h.dropExpired s.now).view, Expiring.collect, expiry]
    cases s.map.view key with
    | none => rfl
    | some entry => simp [filter_some, apply_ite]
  | elapse dur => rfl

end SoftStateUse

structure SoftStateHistory (K V : Type) where
  use : SoftStateUse K V
  last : K → Option (Int × Int)

namespace SoftStateHistory

open SoftStateMap

inductive Action (K V : Type) where
  | call (c : Call K V)
  | setLifetime (lifetime : Int)

variable {K V : Type} [DecidableEq K] {creator : Int → V} {s : SoftStateHistory K V}

def start (lifetime now : Int) : SoftStateHistory K V := ⟨.start lifetime now, fun _ => none⟩

def step (creator : Int → V) (s : SoftStateHistory K V) : Action K V → SoftStateHistory K V
  | .call c => {
      use := s.use.step creator c
      last := match s.use.renews c with
        | none => s.last
        | some key => Function.update s.last key (some (s.use.now, s.use.map.lifetime)) }
  | .setLifetime lifetime =>
    { s with use := { s.use with map := s.use.map.setLifetime lifetime } }

theorem last_call (c : Call K V) (key : K) : (s.step creator (.call c)).last key =
    if s.use.renews c = some key then
      some (s.use.now, s.use.map.lifetime)
    else s.last key := by
  rw [step]
  cases hr : s.use.renews c with
  | none => simp
  | some other =>
    by_cases ho : other = key
    · subst ho
      simp
    · simp [ho, Function.update_of_ne (Ne.symm ho)]

structure Recorded (s : SoftStateHistory K V) : Prop where
  linked : s.use.map.Linked
  expiry : ∀ key expiry, s.use.map.expiry key = some expiry →
    ∃ time lifetime, s.last key = some (time, lifetime) ∧ expiry = time + lifetime

theorem Recorded.step (h : s.Recorded) (act : Action K V) :
  (s.step creator act).Recorded := by
  cases act with
  | call c =>
    refine ⟨SoftStateUse.linked_step h.linked c, fun key expiry hex => ?_⟩
    change (s.use.step creator c).map.expiry key = some expiry at hex
    rw [SoftStateUse.expiry_step h.linked] at hex
    rw [last_call]
    by_cases hr : s.use.renews c = some key
    · rw [if_pos hr] at hex ⊢
      exact ⟨_, _, rfl, (some.inj hex).symm⟩
    rw [if_neg hr] at hex ⊢
    split at hex
    · exact h.expiry key expiry (filter_eq_some_iff.1 hex).1
    · exact h.expiry key expiry hex
  | setLifetime lifetime =>
    obtain ⟨⟨hk, hh, hl, hfr⟩, hex⟩ := h
    exact ⟨⟨hk, hh, hl, hfr⟩, hex⟩

theorem recorded_run (creator : Int → V) (lifetime now : Int) (acts : List (Action K V)) :
  (run (step creator) (start lifetime now) acts).Recorded := by
  refine Run.always (fun _ act h => h.step act) ⟨linked_empty lifetime, ?_⟩
  intro key expiry hex
  cases hex

theorem Recorded.removed (h : s.Recorded) {act : Action K V} {key : K}
  (hb : (s.use.map.expiry key).isSome = true)
  (ha : ((s.step creator act).use.map.expiry key).isSome = false) :
  ∃ time lifetime, s.last key = some (time, lifetime) ∧ time + lifetime < s.use.now := by
  obtain ⟨expiry, hex⟩ := isSome_iff_exists.1 hb
  obtain ⟨time, lifetime, hl, heq⟩ := h.expiry key expiry hex
  refine ⟨time, lifetime, hl, ?_⟩
  cases act with
  | call c =>
    change ((s.use.step creator c).map.expiry key).isSome = false at ha
    rw [SoftStateUse.expiry_step h.linked, hex] at ha
    split at ha
    · cases ha
    split at ha
    · by_contra hle
      rw [filter_some_pos (by simp; omega)] at ha
      cases ha
    · cases ha
  | setLifetime other =>
    change (s.use.map.expiry key).isSome = false at ha
    rw [hb] at ha
    cases ha

/-- In every history: map and heap have the same keys, and every handle is that
of its own key; an entry expires a lifetime after it was put in or refreshed, by
the lifetime in force then, and is not removed before; and after `dropExpired`
there is exactly what has not expired. -/
theorem entries_until_expiry (creator : Int → V) (lifetime now : Int)
  (actions : List (Action K V)) :
  let s := run (step creator) (start lifetime now) actions
  let m := s.use.map
  (m.map.map MapElement.key).Nodup ∧
  (m.heap.map HeapElement.key).Perm (m.map.map MapElement.key) ∧
  (∀ data ∈ m.map, ∃ element ∈ m.heap, element.handle = data.handle ∧ element.key = data.key ∧
    ∀ other ∈ m.heap, other.handle = data.handle → other = element) ∧
  (∀ key value expiry, m.view key = some (value, expiry) →
    ∃ time lifetime, s.last key = some (time, lifetime) ∧ expiry = time + lifetime) ∧
  (∀ action, ∀ key ∈ m.map.map MapElement.key,
    key ∉ (s.step creator action).use.map.map.map MapElement.key →
    ∃ time lifetime, s.last key = some (time, lifetime) ∧ time + lifetime < s.use.now) ∧
  ∀ key value expiry, (m.dropExpired s.use.now).view key = some (value, expiry) ↔
      m.view key = some (value, expiry) ∧ s.use.now ≤ expiry := by
  intro s m
  have h : s.Recorded := recorded_run creator lifetime now actions
  refine ⟨h.linked.keys, ?_, fun data hd => ?_, fun key value expiry hv => ?_,
    fun act key hb haft => ?_, fun key value expiry => ?_⟩
  · have hp := h.linked.linked.map Prod.snd
    rwa [List.map_map, List.map_map] at hp
  · obtain ⟨elt, helt, hh, hk⟩ := h.linked.element hd
    refine ⟨elt, helt, hh, hk, fun other ho heq => ?_⟩
    exact List.inj_on_of_nodup_map h.linked.handles ho helt (heq.trans hh.symm)
  · exact h.expiry key expiry (by rw [SoftStateMap.expiry, hv]; rfl)
  · have hstep : (s.step creator act).Recorded := h.step act
    have hg : ((s.step creator act).use.map.expiry key).isSome = false :=
      Bool.eq_false_iff.2 fun hs =>
        haft ((hstep.linked.isSome_expiry key).1 hs)
    exact h.removed ((h.linked.isSome_expiry key).2 hb) hg
  · rw [(h.linked.dropExpired s.use.now).view, Expiring.collect,
      filter_eq_some_iff, decide_eq_true_eq]

end SoftStateHistory

end Vanetza.Geonet
