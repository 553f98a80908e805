import Vanetza.Common.ManualRuntime
import Vanetza.Dcc.Limeric

/-!
# Limeric on a runtime

A `Limeric` schedules its first calculation when it is created, and every calculation schedules the
next one after its hook has returned. It shares a `ManualRuntime` with other objects.
-/

namespace Vanetza.Dcc

open Lib List

inductive LimericCallback (κ : Type) where
  | calculate
  | other (callback : κ)

def LimericCallback.isCalculate {κ : Type} : LimericCallback κ → Bool
  | .calculate => true
  | .other _ => false

/-- A runtime with a `Limeric` among its users. Scopes are addresses. -/
structure LimericUse (κ σ : Type) where
  runtime : ManualRuntime (LimericCallback κ) σ
  /-- What `reset` has taken out and not invoked yet. -/
  resetting : List (ScheduledCallback (LimericCallback κ) σ)
  limeric : Option Limeric
  calculating : Bool
  destroyed : Bool
  broken : Bool
  dangling : Bool

namespace LimericUse

inductive Action (κ σ : Type) where
  | create (params : Limeric.Parameters)
  | updateCbr (cbr : UnitInterval)
  | configureDualAlpha (params : Option Limeric.DualAlphaParameters)
  | schedule (deadline : Int) (callback : κ) (scope : Option σ)
  | cancel (scope : Option σ)
  | elapse (tp : Int)
  | trigger
  | reset (tp : Int)
  | resetNext
  | abandon (count : Nat)
  | hookReturns
  | hookRaises
  | destroy

variable {κ σ : Type}

def start (init : Int) : LimericUse κ σ where
  runtime := .create init
  resetting := []
  limeric := none
  calculating := false
  destroyed := false
  broken := false
  dangling := false

/-- `Limeric::schedule`; the scope is left to its default, the null pointer. -/
def scheduleCalculation (u : LimericUse κ σ) (l : Limeric) : LimericUse κ σ :=
  let deadline := l.schedulingTime u.runtime.now
  { u with runtime := u.runtime.schedule deadline .calculate none }

def invoke (u : LimericUse κ σ) : LimericCallback κ → LimericUse κ σ
  | .other _ => u
  | .calculate => { u with
      limeric := u.limeric.map (·.calculate)
      calculating := true
      dangling := u.dangling || u.destroyed }

def create (u : LimericUse κ σ) (params : Limeric.Parameters) : LimericUse κ σ :=
  match u.limeric with
  | none =>
    { u with limeric := some (.create params) }.scheduleCalculation (.create params)
  | some _ => u

def modify (u : LimericUse κ σ) (f : Limeric → Limeric) : LimericUse κ σ :=
  { u with limeric := u.limeric.map f }

def trigger (u : LimericUse κ σ) : LimericUse κ σ :=
  match u.runtime.due with
  | none => u
  | some (top, runtime) => { u with runtime }.invoke top.callback

/-- The start of `reset`. A loop that is already under way goes on later. -/
def reset (u : LimericUse κ σ) (tp : Int) : LimericUse κ σ :=
  { u with
    runtime := (u.runtime.reset tp).2
    resetting := (u.runtime.reset tp).1 ++ u.resetting }

def resetNext (u : LimericUse κ σ) : LimericUse κ σ :=
  match u.resetting with
  | [] => u
  | item :: resetting => { u with resetting }.invoke item.callback

def abandon (u : LimericUse κ σ) (count : Nat) : LimericUse κ σ :=
  { u with
    resetting := u.resetting.drop count
    broken := u.broken || (u.resetting.take count).any (·.callback.isCalculate) }

def hookReturns (u : LimericUse κ σ) : LimericUse κ σ :=
  match u.calculating, u.limeric with
  | true, some l =>
    { u with
      calculating := false
      dangling := u.dangling || u.destroyed }.scheduleCalculation l
  | _, _ => u

def hookRaises (u : LimericUse κ σ) : LimericUse κ σ :=
  if u.calculating then { u with calculating := false, broken := true } else u

def destroy [DecidableEq σ] (this : σ) (u : LimericUse κ σ) : LimericUse κ σ :=
  if u.limeric.isSome ∧ ¬u.destroyed then
    { u with runtime := u.runtime.cancel (some this), destroyed := true }
  else u

def step [DecidableEq σ] (this : σ) (u : LimericUse κ σ) : Action κ σ → LimericUse κ σ
  | .create params => u.create params
  | .updateCbr cbr => u.modify (·.updateCbr cbr)
  | .configureDualAlpha params => u.modify (·.configureDualAlpha params)
  | .schedule deadline callback scope =>
    { u with runtime := u.runtime.schedule deadline (.other callback) scope }
  | .cancel scope => { u with runtime := u.runtime.cancel scope }
  | .elapse tp => { u with runtime := u.runtime.elapse tp }
  | .trigger => u.trigger
  | .reset tp => u.reset tp
  | .resetNext => u.resetNext
  | .abandon count => u.abandon count
  | .hookReturns => u.hookReturns
  | .hookRaises => u.hookRaises
  | .destroy => u.destroy this

def items (u : LimericUse κ σ) : List (ScheduledCallback (LimericCallback κ) σ) :=
  u.runtime.queue ++ u.resetting

def calculations (u : LimericUse κ σ) : Nat := u.items.countP (·.callback.isCalculate)

def Safe (u : LimericUse κ σ) : Prop := u.destroyed = true → u.calculations = 0 ∧ u.dangling = false

structure Chained (u : LimericUse κ σ) : Prop where
  one : u.calculations + u.calculating.toNat = (u.limeric.isSome && !u.broken).toNat
  scope : ∀ item ∈ u.items, item.callback.isCalculate = true → item.scope = none
  broken : u.broken = true → u.limeric.isSome = true
  destroyed : u.destroyed = true → u.limeric.isSome = true
  dangling : u.dangling = true → u.destroyed = true

variable {u u' : LimericUse κ σ} {item : ScheduledCallback (LimericCallback κ) σ}

theorem items_schedule (u : LimericUse κ σ) (due : Int)
  (cb : LimericCallback κ) (scope : Option σ) :
  ({ u with runtime := u.runtime.schedule due cb scope }).items.Perm
    (⟨due, cb, scope⟩ :: u.items) :=
  (ManualRuntime.emplace_perm _ _).append_right _

theorem calculations_of_perm (h : u.items.Perm (item :: u'.items)) : u.calculations =
    u'.calculations + item.callback.isCalculate.toNat := by
  unfold calculations
  rw [h.countP_eq, countP_cons]
  cases item.callback.isCalculate <;> rfl

def Turn (u u' : LimericUse κ σ) : Prop :=
  u' = u ∨ ∃ item runtime resetting, u.items.Perm (item :: { u with runtime, resetting }.items) ∧
      u' = { u with runtime, resetting }.invoke item.callback

theorem turn_trigger (u : LimericUse κ σ) : Turn u u.trigger := by
  unfold trigger
  split
  · exact .inl rfl
  next top runtime hdue =>
  refine .inr ⟨top, runtime, u.resetting, ?_, rfl⟩
  unfold items
  rw [ManualRuntime.queue_of_due hdue]
  exact .refl _

theorem turn_resetNext (u : LimericUse κ σ) : Turn u u.resetNext := by
  unfold resetNext
  split
  · exact .inl rfl
  next item resetting hr =>
  refine .inr ⟨item, u.runtime, resetting, ?_, rfl⟩
  unfold items
  rw [hr]
  exact perm_middle

theorem calculations_abandon (u : LimericUse κ σ) (count : Nat) :
  u.calculations = (u.abandon count).calculations +
    (u.resetting.take count).countP (·.callback.isCalculate) := by
  unfold calculations items
  conv_lhs => rw [← take_append_drop count u.resetting]
  unfold abandon
  simp only [countP_append]
  omega

theorem Chained.start (init : Int) : Chained (LimericUse.start init : LimericUse κ σ) :=
  ⟨rfl, by rintro _ ⟨⟩, by rintro ⟨⟩, by rintro ⟨⟩, id⟩

variable {resetting : List (ScheduledCallback (LimericCallback κ) σ)}
  {runtime : ManualRuntime (LimericCallback κ) σ}

namespace Chained

theorem move (h : Chained u) (hc : { u with runtime, resetting }.calculations = u.calculations)
  (hs : ∀ item ∈ { u with runtime, resetting }.items,
    item.callback.isCalculate = true → item ∈ u.items) :
  Chained { u with runtime, resetting } where
  one := by
    rw [hc]
    exact h.one
  scope item hmem hcalc := h.scope item (hs item hmem hcalc) hcalc
  broken := h.broken
  destroyed := h.destroyed
  dangling := h.dangling

theorem scheduleOther (h : Chained u) (due : Int) (cb : κ) (scope : Option σ) :
  Chained { u with runtime :=
    u.runtime.schedule due (.other cb) scope } := by
  have hp := items_schedule u due (.other cb) scope
  refine h.move (calculations_of_perm hp) fun item hm hc => ?_
  rcases mem_cons.1 (hp.mem_iff.1 hm) with rfl | hm
  · cases hc
  · exact hm

theorem calculations_cancel [DecidableEq σ] (h : Chained u) (scope : Option σ) :
  { u with runtime := u.runtime.cancel scope }.calculations =
    u.calculations := by
  cases scope with
  | none => rfl
  | some scope =>
    have hq : (u.runtime.queue.filter (·.scope ≠ some scope)).countP (·.callback.isCalculate) =
        u.runtime.queue.countP (·.callback.isCalculate) := by
      rw [countP_filter]
      refine countP_congr fun item hm => ?_
      have hn := h.scope item (mem_append_left _ hm)
      constructor
      · intro hb
        exact (Bool.and_eq_true_iff.1 hb).1
      · intro hc
        rw [hc, hn hc]
        rfl
    unfold calculations items
    rw [countP_append, countP_append]
    exact congrArg (· + _) hq

theorem cancel [DecidableEq σ] (h : Chained u) (scope : Option σ) :
  Chained { u with runtime := u.runtime.cancel scope } := by
  refine h.move (h.calculations_cancel scope) fun item hm _ => ?_
  cases scope with
  | none => exact hm
  | some scope => exact (filter_sublist.append_right _).subset hm

theorem invoke (h : Chained u) (hp : u.items.Perm (item :: { u with runtime, resetting }.items)) :
  Chained ({ u with runtime, resetting }.invoke item.callback) := by
  have hc := calculations_of_perm hp
  have hsub : ∀ other ∈ { u with runtime, resetting }.items, other ∈ u.items :=
    fun other hm => hp.mem_iff.2 (mem_cons_of_mem _ hm)
  have ho := h.one
  obtain ⟨due, cb, scope⟩ := item
  cases cb with
  | other cb => exact h.move hc.symm fun other hm _ => hsub other hm
  | calculate =>
    have hs : (u.limeric.map (·.calculate)).isSome = u.limeric.isSome := Option.isSome_map
    refine ⟨?_, fun other hm => h.scope other (hsub other hm),
      fun hb => hs.trans (h.broken hb), fun hdes => hs.trans (h.destroyed hdes), fun hd => ?_⟩
    · have hle := Bool.toNat_le (u.limeric.isSome && !u.broken)
      have hn : u.calculating.toNat = 0 := by
        rw [← ho, hc, LimericCallback.isCalculate, Bool.toNat_true] at hle
        omega
      change _ + 1 = ((u.limeric.map _).isSome && !u.broken).toNat
      rw [hs, ← ho, hc, hn]
      rfl
    · rcases Bool.or_eq_true_iff.1 hd with hd | hdes
      · exact h.dangling hd
      · exact hdes

theorem scheduleCalculation (l : Limeric) (hn : u.calculations = 0)
  (hnot : u.calculating = false) (hs : u.limeric.isSome = true) (hb : u.broken = false)
  (hd : u.dangling = true → u.destroyed = true) :
  Chained (u.scheduleCalculation l) := by
  have hp := items_schedule u (l.schedulingTime u.runtime.now) .calculate none
  refine ⟨?_, fun item hm hc => ?_, fun _ => hs, fun _ => hs, hd⟩
  · have hcnt := calculations_of_perm hp
    unfold LimericUse.scheduleCalculation
    dsimp only
    rw [hcnt, hn, hnot, hs, hb]
    rfl
  · rcases mem_cons.1 (hp.mem_iff.1 hm) with rfl | hm
    · rfl
    · have hpos : 0 < u.calculations :=
        countP_pos_iff.2 ⟨item, hm, hc⟩
      exact absurd hn hpos.ne'

theorem create (h : Chained u) (params : Limeric.Parameters) : Chained (u.create params) := by
  unfold LimericUse.create
  split
  · next hn =>
    have ho := h.one
    rw [hn, Option.isSome_none, Bool.false_and, Bool.toNat_false, Nat.add_eq_zero_iff] at ho
    refine Chained.scheduleCalculation _ ho.1 ?_ rfl ?_ h.dangling
    · exact Bool.toNat_eq_zero.1 ho.2
    by_contra hbrk
    have hs := h.broken (by simpa using hbrk)
    rw [hn] at hs
    cases hs
  · exact h

theorem modify (h : Chained u) (f : Limeric → Limeric) : Chained (u.modify f) := by
  have hs : (u.modify f).limeric.isSome = u.limeric.isSome := Option.isSome_map
  refine ⟨?_, h.scope, fun hb => hs.trans (h.broken hb),
    fun hd => hs.trans (h.destroyed hd), h.dangling⟩
  rw [hs]
  exact h.one

theorem turn (h : Chained u) (ht : Turn u u') : Chained u' := by
  rcases ht with rfl | ⟨item, runtime, resetting, hp, rfl⟩
  · exact h
  · exact h.invoke hp

theorem reset (h : Chained u) (tp : Int) : Chained (u.reset tp) := h.move rfl fun _ hm _ => hm

theorem unbroken (h : Chained u) (hp : 0 < u.calculations + u.calculating.toNat) :
  u.limeric.isSome = true ∧ u.broken = false := by
  rw [h.one] at hp
  cases hb : u.limeric.isSome && !u.broken with
  | false =>
    rw [hb] at hp
    cases hp
  | true => simpa using hb

theorem one_of_unbroken (h : Chained u) (hp : 0 < u.calculations + u.calculating.toNat) :
  u.calculations + u.calculating.toNat = 1 := by
  obtain ⟨hs, hb⟩ := h.unbroken hp
  rw [h.one, hs, hb]
  rfl

theorem abandon (h : Chained u) (count : Nat) : Chained (u.abandon count) := by
  have hspl := u.calculations_abandon count
  have hscp : ∀ item ∈ (u.abandon count).items,
      item.callback.isCalculate = true → item.scope = none :=
    fun item hm => h.scope item (((drop_sublist count _).append_left _).subset hm)
  cases ha : (u.resetting.take count).any (·.callback.isCalculate) with
  | false =>
    have hs : (u.abandon count).broken = u.broken := by rw [LimericUse.abandon, ha, Bool.or_false]
    have hn : (u.resetting.take count).countP (·.callback.isCalculate) = 0 :=
      countP_eq_zero.2 fun item hm =>
        any_eq_false.1 ha item hm
    refine ⟨?_, hscp, fun hb => ?_, h.destroyed, h.dangling⟩
    · rw [hs, ← Nat.add_zero (calculations _), ← hn, ← hspl]
      exact h.one
    · rw [hs] at hb
      exact h.broken hb
  | true =>
    have hb : (u.abandon count).broken = true := by rw [LimericUse.abandon, ha, Bool.or_true]
    obtain ⟨item, hm, hc⟩ := any_eq_true.1 ha
    have hso : 0 < (u.resetting.take count).countP (·.callback.isCalculate) :=
      countP_pos_iff.2 ⟨item, hm, hc⟩
    have ho := h.one_of_unbroken (by omega)
    refine ⟨?_, hscp, fun _ => (h.unbroken (by omega)).1, h.destroyed, h.dangling⟩
    rw [hb, Bool.not_true, Bool.and_false, Bool.toNat_false]
    change _ + u.calculating.toNat = 0
    omega

theorem calculations_of_calculating (h : Chained u) (hc : u.calculating = true) :
  u.calculations = 0 ∧ u.limeric.isSome = true ∧ u.broken = false := by
  have hp : 0 < u.calculations + u.calculating.toNat := by
    rw [hc]
    exact Nat.succ_pos _
  have ho := h.one_of_unbroken hp
  rw [hc, Bool.toNat_true] at ho
  exact ⟨Nat.succ.inj ho, h.unbroken hp⟩

theorem hookReturns (h : Chained u) : Chained u.hookReturns := by
  unfold LimericUse.hookReturns
  split
  · next l hc hlim =>
    obtain ⟨hn, hs, hb⟩ := h.calculations_of_calculating hc
    refine Chained.scheduleCalculation l hn rfl hs hb fun hd => ?_
    rcases Bool.or_eq_true_iff.1 hd with hd | hdes
    · exact h.dangling hd
    · exact hdes
  · exact h

theorem hookRaises (h : Chained u) : Chained u.hookRaises := by
  unfold LimericUse.hookRaises
  split
  · next hc =>
    obtain ⟨hn, hs, -⟩ := h.calculations_of_calculating hc
    refine ⟨?_, h.scope, fun _ => hs, fun _ => hs, h.dangling⟩
    change u.calculations + 0 = _
    rw [hn, Bool.not_true, Bool.and_false]
    rfl
  · exact h

theorem destroy [DecidableEq σ] (h : Chained u) (this : σ) : Chained (u.destroy this) := by
  unfold LimericUse.destroy
  split
  · next hd =>
    have hc := h.cancel (some this)
    exact ⟨hc.one, hc.scope, hc.broken, fun _ => hd.1, fun _ => rfl⟩
  · exact h

end Chained

def AfterBreak (u : LimericUse κ σ) : Action κ σ → Prop
  | .destroy => u.limeric.isSome = true → u.destroyed = false →
      u.broken = true ∨ u.calculating = true
  | .hookReturns => u.calculating = true → u.destroyed = false
  | _ => True

theorem Safe.invoke (h : Safe u) (hp : u.items.Perm (item :: { u with runtime, resetting }.items)) :
  Safe ({ u with runtime, resetting }.invoke item.callback) := by
  have hc := calculations_of_perm hp
  obtain ⟨due, cb, scope⟩ := item
  cases cb with
  | other cb =>
    intro hd
    exact ⟨hc.symm.trans (h hd).1, (h hd).2⟩
  | calculate =>
    intro hd
    have hz := hc.symm.trans (h hd).1
    cases hz

theorem Safe.turn (h : Safe u) (ht : Turn u u') : Safe u' := by
  rcases ht with rfl | ⟨item, runtime, resetting, hp, rfl⟩
  · exact h
  · exact h.invoke hp

theorem Safe.abandon (h : Safe u) (count : Nat) : Safe (u.abandon count) := by
  intro hdes
  have hs := u.calculations_abandon count
  obtain ⟨hz, hd⟩ := h hdes
  exact ⟨by omega, hd⟩

theorem Safe.hookRaises (h : Safe u) : Safe u.hookRaises := by
  unfold LimericUse.hookRaises
  split
  · exact h
  · exact h

theorem Safe.create (hc : Chained u) (h : Safe u)
  (params : Limeric.Parameters) : Safe (u.create params) := by
  unfold LimericUse.create
  split
  · next hn =>
    intro hd
    have hs := hc.destroyed hd
    rw [hn] at hs
    cases hs
  · exact h

theorem safe_hookReturns_iff (hchn : Chained u) (h : Safe u) :
  Safe u.hookReturns ↔ AfterBreak u (.hookReturns : Action κ σ) := by
  unfold hookReturns
  split
  · next l hc hl =>
    constructor
    · intro hs _
      by_contra hd
      have hd : u.destroyed = true := by simpa using hd
      have hdan := (hs hd).2
      change (u.dangling || u.destroyed) = false at hdan
      rw [hd, Bool.or_true] at hdan
      cases hdan
    · intro hn hd
      have hf := hn hc
      rw [show u.destroyed = true from hd] at hf
      cases hf
  · next ho =>
    refine iff_of_true h fun hc => ?_
    obtain ⟨l, hl⟩ := Option.isSome_iff_exists.1 (hchn.calculations_of_calculating hc).2.1
    exact (ho l hc hl).elim

section Runs

variable [DecidableEq σ] {this : σ}

theorem Chained.step (h : Chained u) (act : Action κ σ) : Chained (u.step this act) := by
  cases act with
  | create params => exact h.create params
  | updateCbr cbr | configureDualAlpha params => exact h.modify _
  | schedule due cb scope => exact h.scheduleOther due cb scope
  | cancel scope => exact h.cancel scope
  | elapse tp => exact h.move rfl fun _ hm _ => hm
  | trigger => exact h.turn u.turn_trigger
  | reset tp => exact h.reset tp
  | resetNext => exact h.turn u.turn_resetNext
  | abandon count => exact h.abandon count
  | hookReturns => exact h.hookReturns
  | hookRaises => exact h.hookRaises
  | destroy => exact h.destroy this

theorem safe_destroy_iff (hc : Chained u) (h : Safe u) :
  Safe (u.destroy this) ↔ AfterBreak u (.destroy : Action κ σ) := by
  unfold destroy
  split
  · next hd =>
    have hn : u.destroyed = false := by simpa using hd.2
    have hdan : u.dangling = false := by
      by_contra hdan
      exact hd.2 (hc.dangling (by simpa using hdan))
    have hcnt := hc.calculations_cancel (some this)
    have ho := hc.one
    rw [hd.1, Bool.true_and] at ho
    constructor
    · intro hs _ _
      have hz := hcnt.symm.trans (hs rfl).1
      rw [hz, Nat.zero_add] at ho
      cases hbrk : u.broken with
      | true => exact .inl rfl
      | false =>
        rw [hbrk] at ho
        exact .inr (by simpa using ho)
    · intro hb _
      refine ⟨hcnt.trans ?_, hdan⟩
      rcases hb hd.1 hn with hbrk | hcal
      · rw [hbrk] at ho
        exact (Nat.add_eq_zero_iff.1 ho).1
      · exact (hc.calculations_of_calculating hcal).1
  · next hd =>
    refine iff_of_true h fun hso hn => ?_
    exact absurd ⟨hso, by simpa using hn⟩ hd

theorem safe_step_iff (hc : Chained u) (h : Safe u)
  (action : Action κ σ) : Safe (u.step this action) ↔ AfterBreak u action := by
  cases action with
  | create params => exact iff_of_true (h.create hc params) trivial
  | updateCbr cbr | configureDualAlpha params => exact iff_of_true h trivial
  | schedule due cb scope =>
    refine iff_of_true (fun hd => ?_) trivial
    have hcnt := calculations_of_perm (items_schedule u due (.other cb) scope)
    exact ⟨hcnt.trans (h hd).1, (h hd).2⟩
  | cancel scope =>
    refine iff_of_true (fun hd => ?_) trivial
    exact ⟨(hc.calculations_cancel scope).trans (h hd).1, (h hd).2⟩
  | elapse tp => exact iff_of_true h trivial
  | trigger => exact iff_of_true (h.turn u.turn_trigger) trivial
  | reset tp => exact iff_of_true h trivial
  | resetNext => exact iff_of_true (h.turn u.turn_resetNext) trivial
  | abandon count => exact iff_of_true (h.abandon count) trivial
  | hookReturns => exact safe_hookReturns_iff hc h
  | hookRaises => exact iff_of_true h.hookRaises trivial
  | destroy => exact safe_destroy_iff hc h

/-- No destroyed object is left in the runtime if and only if the chain of
calculations has been broken whenever one is destroyed. -/
theorem destroyed_unscheduled_iff (this : σ) (init : Int) (actions : List (Action κ σ)) :
  (∀ before, before <+: actions → Safe (run (LimericUse.step this) (start init) before)) ↔
  RunMeets (LimericUse.step this) AfterBreak (start init) actions := by
  have hkp : ∀ (u : LimericUse κ σ) act, True → Chained u →
      Chained (u.step this act) := fun _ act _ h => h.step act
  have hstep : ∀ (u : LimericUse κ σ) act, True → Chained u → Safe u →
      (Safe (u.step this act) ↔ AfterBreak u act) :=
    fun _ act _ hc h => safe_step_iff hc h act
  exact Run.goesThrough_iff hkp hstep (Chained.start init) (by rintro ⟨⟩)
    (Run.meets_of_forall (fun _ _ => trivial) _ _)

/-- An object that is created and destroyed: its calculation is still scheduled,
and is run when its time has come. -/
theorem calculation_outlives_object :
  let u : LimericUse Empty Unit := run (LimericUse.step ()) (start 0) [.create .default, .destroy]
  ¬Safe u ∧ u.runtime.queue.map (·.deadline) = [200000] ∧
    (run (LimericUse.step ()) u [.elapse 200000, .trigger]).dangling = true := by
  refine ⟨fun hs => ?_, rfl, rfl⟩
  exact Nat.one_ne_zero (hs rfl).1

end Runs

end LimericUse

end Vanetza.Dcc
