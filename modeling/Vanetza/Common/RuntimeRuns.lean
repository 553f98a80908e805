import Vanetza.Common.ManualRuntime
import Vanetza.Lib.Run

/-!
# A manual runtime in use

`trigger` takes the callbacks out of the queue one by one, `reset` swaps the queue out and goes
through the copy. Callbacks may schedule and cancel, so what they do comes in between the turns of a
loop (`next`).
-/

namespace Vanetza

open Lib List

inductive RuntimeEvent (σ : Type) where
  | scheduled (item : ScheduledCallback Nat σ)
  | cancelled (scope : σ)
  | invoked (item : ScheduledCallback Nat σ) (pending : List (ScheduledCallback Nat σ))

inductive RuntimeLoop (σ : Type) where
  | idle
  | trigger
  | reset (items : List (ScheduledCallback Nat σ))

structure RuntimeUse (σ : Type) where
  runtime : ManualRuntime Nat σ
  loop : RuntimeLoop σ
  count : Nat
  trace : List (RuntimeEvent σ)

namespace RuntimeUse

inductive Action (σ : Type) where
  | schedule (deadline : Int) (scope : Option σ)
  | cancel (scope : Option σ)
  | trigger (tp : Int)
  | reset (tp : Int)
  | next

variable {σ : Type}

def start (runtime : ManualRuntime Nat σ) (count : Nat) : RuntimeUse σ :=
  ⟨runtime, .idle, count, runtime.queue.map .scheduled⟩

def next (s : RuntimeUse σ) : RuntimeUse σ :=
  match s.loop with
  | .idle => s
  | .trigger =>
    match s.runtime.due with
    | none => { s with loop := .idle }
    | some (top, runtime) =>
      { s with runtime, trace := .invoked top s.runtime.queue :: s.trace }
  | .reset [] => { s with loop := .idle }
  | .reset (item :: items) =>
    { s with loop := .reset items, trace := .invoked item s.runtime.queue :: s.trace }

def step [DecidableEq σ] (s : RuntimeUse σ) : Action σ → RuntimeUse σ
  | .schedule deadline scope => { s with
      runtime := s.runtime.schedule deadline s.count scope
      count := s.count + 1
      trace := .scheduled ⟨deadline, s.count, scope⟩ :: s.trace }
  | .cancel none => s
  | .cancel (some scope) => { s with
      runtime := s.runtime.cancel (some scope)
      trace := .cancelled scope :: s.trace }
  | .trigger tp =>
    match s.loop with
    | .idle => { s with runtime := s.runtime.elapse tp, loop := .trigger }
    | _ => s
  | .reset tp =>
    match s.loop with
    | .idle => { s with runtime := (s.runtime.reset tp).2, loop := .reset (s.runtime.reset tp).1 }
    | _ => s
  | .next => s.next

/-- A callback that had been scheduled under a scope when that was cancelled. -/
def Cancelled (item : ScheduledCallback Nat σ) : List (RuntimeEvent σ) → Prop
  | [] => False
  | .cancelled scope :: earlier =>
    (.scheduled item ∈ earlier ∧ item.scope = some scope) ∨ Cancelled item earlier
  | _ :: earlier => Cancelled item earlier

/-- Nothing is invoked after it has been cancelled. -/
def Honoured : List (RuntimeEvent σ) → Prop
  | [] => True
  | .invoked item _ :: earlier => ¬Cancelled item earlier ∧ Honoured earlier
  | _ :: earlier => Honoured earlier

def invoked : List (RuntimeEvent σ) → List (ScheduledCallback Nat σ)
  | [] => []
  | .invoked item _ :: earlier => item :: invoked earlier
  | _ :: earlier => invoked earlier

def RuntimeLoop.waiting : RuntimeLoop σ → List (ScheduledCallback Nat σ)
  | .reset items => items
  | _ => []

def held (s : RuntimeUse σ) : List (ScheduledCallback Nat σ) :=
  s.runtime.queue ++ (RuntimeLoop.waiting s.loop ++ invoked s.trace)

structure Recorded (s : RuntimeUse σ) : Prop where
  numbered : ∀ item, .scheduled item ∈ s.trace → item.callback < s.count
  recorded : ∀ item ∈ s.held, .scheduled item ∈ s.trace
  once : (s.held.map (·.callback)).Nodup
  clean : ∀ item ∈ s.runtime.queue, ¬Cancelled item s.trace
  accounted : ∀ item, .scheduled item ∈ s.trace → item ∈ s.held ∨ Cancelled item s.trace

variable {s : RuntimeUse σ}

theorem not_cancelled_scheduled (items : List (ScheduledCallback Nat σ))
  (item : ScheduledCallback Nat σ) : ¬Cancelled item (items.map .scheduled) := by
  induction items with
  | nil => exact id
  | cons first rest ih => exact ih

theorem invoked_scheduled (items : List (ScheduledCallback Nat σ)) :
  invoked (items.map .scheduled) = [] := by
  induction items with
  | nil => rfl
  | cons first rest ih => exact ih

theorem scheduled_of_cancelled {item : ScheduledCallback Nat σ} {trace : List (RuntimeEvent σ)}
  (h : Cancelled item trace) : .scheduled item ∈ trace := by
  induction trace with
  | nil => cases h
  | cons event earlier ih =>
    cases event with
    | scheduled other | invoked other pending => exact mem_cons_of_mem _ (ih h)
    | cancelled scope =>
      rcases h with ⟨hm, -⟩ | h
      · exact mem_cons_of_mem _ hm
      · exact mem_cons_of_mem _ (ih h)

theorem recorded_start {rt : ManualRuntime Nat σ} {count : Nat}
  (hn : (rt.queue.map (·.callback)).Nodup)
  (hlt : ∀ item ∈ rt.queue, item.callback < count) : (start rt count).Recorded := by
  have hh : (start rt count).held = rt.queue := by
    simp [held, start, RuntimeLoop.waiting, invoked_scheduled]
  have hm : ∀ item, .scheduled item ∈ (start rt count).trace ↔ item ∈ rt.queue := by simp [start]
  refine ⟨?_, ?_, ?_, ?_, ?_⟩
  · exact fun item h => hlt item ((hm item).1 h)
  · exact fun item h => (hm item).2 (hh ▸ h)
  · rwa [hh]
  · exact fun item _ => not_cancelled_scheduled _ item
  · exact fun item h => .inl (hh.symm ▸ (hm item).1 h)

theorem Recorded.schedule [DecidableEq σ] (h : s.Recorded) (due : Int) (scope : Option σ) :
  (s.step (.schedule due scope)).Recorded := by
  have hp : (s.step (.schedule due scope)).held.Perm (⟨due, s.count, scope⟩ :: s.held) :=
    (ManualRuntime.emplace_perm _ _).append_right _
  refine ⟨?_, ?_, ?_, ?_, ?_⟩
  · intro item hit
    rcases mem_cons.1 hit with heq | hm
    · cases heq
      exact Nat.lt_succ_self _
    · exact (h.numbered item hm).trans (Nat.lt_succ_self _)
  · intro item hit
    rcases mem_cons.1 (hp.mem_iff.1 hit) with rfl | hm
    · exact mem_cons_self
    · exact mem_cons_of_mem _ (h.recorded item hm)
  · refine (hp.map _).nodup_iff.2 (nodup_cons.2 ⟨fun hm => ?_, h.once⟩)
    obtain ⟨item, hit, heq⟩ := mem_map.1 hm
    exact (h.numbered item (h.recorded item hit)).ne heq
  · intro item hit hcnc
    rcases mem_cons.1 ((ManualRuntime.emplace_perm _ _).mem_iff.1 hit) with rfl | hm
    · exact (h.numbered _ (scheduled_of_cancelled hcnc)).ne rfl
    · exact h.clean item hm hcnc
  · intro item hit
    rcases mem_cons.1 hit with heq | hm
    · cases heq
      exact .inl (hp.mem_iff.2 mem_cons_self)
    · exact (h.accounted item hm).imp_left fun hh =>
        hp.mem_iff.2 (mem_cons_of_mem _ hh)

theorem Recorded.cancel [DecidableEq σ] (h : s.Recorded) (scope : σ) :
  (s.step (.cancel (some scope))).Recorded := by
  have hsub : (s.step (.cancel (some scope))).held <+ s.held := filter_sublist.append_right _
  refine ⟨?_, ?_, (hsub.map _).nodup h.once, ?_, ?_⟩
  · exact fun item hit => h.numbered item ((mem_cons.1 hit).resolve_left nofun)
  · exact fun item hit => mem_cons_of_mem _ (h.recorded item (hsub.subset hit))
  · intro item hit hc
    obtain ⟨hm, hs⟩ := mem_filter.1 hit
    rcases hc with ⟨-, heq⟩ | hea
    · exact of_decide_eq_true hs heq
    · exact h.clean item hm hea
  · intro item hit
    have hsch := (mem_cons.1 hit).resolve_left nofun
    rcases h.accounted item hsch with hh | hea
    · by_cases hs : item.scope = some scope
      · exact .inr (.inl ⟨hsch, hs⟩)
      · refine .inl ((mem_append.1 hh).elim (fun hq => ?_) (mem_append_right _))
        exact mem_append_left _ (mem_filter.2 ⟨hq, by simpa using hs⟩)
    · exact .inr (.inr hea)

theorem Recorded.move {s' : RuntimeUse σ} (h : s.Recorded) (hp : s'.held.Perm s.held)
  (hcnt : s'.count = s.count) (hq : s'.runtime.queue ⊆ s.runtime.queue)
  (hs : ∀ item, .scheduled item ∈ s'.trace ↔ .scheduled item ∈ s.trace)
  (hcnc : ∀ item, Cancelled item s'.trace ↔ Cancelled item s.trace) : s'.Recorded := by
  refine ⟨?_, ?_, (hp.map _).nodup_iff.2 h.once, ?_, ?_⟩
  · exact fun item hit => hcnt ▸ h.numbered item ((hs item).1 hit)
  · exact fun item hit => (hs item).2 (h.recorded item (hp.mem_iff.1 hit))
  · exact fun item hit hc => h.clean item (hq hit) ((hcnc item).1 hc)
  · intro item hit
    exact (h.accounted item ((hs item).1 hit)).imp hp.mem_iff.2 (hcnc item).2

theorem Recorded.next (h : s.Recorded) : s.next.Recorded := by
  unfold RuntimeUse.next
  split
  · exact h
  · next hl =>
    split
    · exact h.move (by simp [held, hl, RuntimeLoop.waiting]) rfl (Subset.refl _)
        (fun _ => Iff.rfl) fun _ => Iff.rfl
    next top rt hdue =>
    have hq := ManualRuntime.queue_of_due hdue
    refine h.move ?_ rfl ?_ (by simp) fun _ => Iff.rfl
    · simp only [held, hl, RuntimeLoop.waiting, invoked, hq, nil_append, cons_append]
      exact perm_middle
    · exact hq ▸ subset_cons_self _ _
  · next hl =>
    exact h.move (by simp [held, hl, RuntimeLoop.waiting]) rfl (Subset.refl _)
      (fun _ => Iff.rfl) fun _ => Iff.rfl
  · next item items hl =>
    refine h.move ?_ rfl (Subset.refl _) (by simp) fun _ => Iff.rfl
    simp only [held, hl, RuntimeLoop.waiting, invoked, cons_append]
    exact perm_middle.append_left _

theorem Recorded.step [DecidableEq σ] (h : s.Recorded) (act : Action σ) :
  (s.step act).Recorded := by
  cases act with
  | schedule due scope => exact h.schedule due scope
  | cancel scope =>
    cases scope with
    | none => exact h
    | some scope => exact h.cancel scope
  | trigger tp =>
    cases hl : s.loop with
    | idle =>
      rw [RuntimeUse.step, hl]
      exact h.move (by simp [held, hl, RuntimeLoop.waiting, ManualRuntime.elapse]) rfl
        (Subset.refl _) (fun _ => Iff.rfl) fun _ => Iff.rfl
    | trigger | reset items => rwa [RuntimeUse.step, hl]
  | reset tp =>
    cases hl : s.loop with
    | idle =>
      rw [RuntimeUse.step, hl]
      exact h.move (by simp [held, hl, RuntimeLoop.waiting, ManualRuntime.reset,
        ManualRuntime.create]) rfl (nil_subset _) (fun _ => Iff.rfl) fun _ => Iff.rfl
    | trigger | reset items => rwa [RuntimeUse.step, hl]
  | next => exact h.next

variable [DecidableEq σ]

/-- No callback that a `reset` has still to invoke is cancelled. -/
def Clear (s : RuntimeUse σ) (action : Action σ) : Prop :=
  ∀ scope, action = .cancel (some scope) →
    ∀ item ∈ RuntimeLoop.waiting s.loop, item.scope ≠ some scope

/-- Nothing has been invoked, or is still to be invoked by a `reset`, after it was
cancelled. -/
structure Good (s : RuntimeUse σ) : Prop where
  honoured : Honoured s.trace
  waiting : ∀ item ∈ RuntimeLoop.waiting s.loop, ¬Cancelled item s.trace

omit [DecidableEq σ] in
theorem good_next (h : s.Recorded) : s.next.Good ↔ s.Good := by
  unfold RuntimeUse.next
  split
  · exact Iff.rfl
  · next hl =>
    split
    · exact ⟨fun hg => ⟨hg.honoured, by simp [hl, RuntimeLoop.waiting]⟩,
        fun hg => ⟨hg.honoured, nofun⟩⟩
    next top rt hdue =>
    have ht : ¬Cancelled top s.trace :=
      h.clean top (ManualRuntime.queue_of_due hdue ▸ mem_cons_self)
    exact ⟨fun hg => ⟨hg.honoured.2, by simp [hl, RuntimeLoop.waiting]⟩,
      fun hg => ⟨⟨ht, hg.honoured⟩, by simp [hl, RuntimeLoop.waiting]⟩⟩
  · next hl =>
    exact ⟨fun hg => ⟨hg.honoured, by simp [hl, RuntimeLoop.waiting]⟩,
      fun hg => ⟨hg.honoured, nofun⟩⟩
  · next item items hl =>
    constructor
    · intro hg
      refine ⟨hg.honoured.2, ?_⟩
      rw [hl]
      exact forall_mem_cons.2 ⟨hg.honoured.1, hg.waiting⟩
    intro hg
    have hw := hg.waiting
    rw [hl] at hw
    obtain ⟨hit, hits⟩ := forall_mem_cons.1 hw
    exact ⟨⟨hit, hg.honoured⟩, hits⟩

theorem good_step (h : s.Recorded) (action : Action σ) :
  (s.step action).Good ↔ s.Good ∧ s.Clear action := by
  -- an action that cancels nothing is clear
  have ho : ((s.step action).Good ↔ s.Good) → (∀ scope, action ≠ .cancel (some scope)) →
      ((s.step action).Good ↔ s.Good ∧ s.Clear action) := fun hiff hne =>
    hiff.trans (and_iff_left fun scope heq => absurd heq (hne scope)).symm
  cases action with
  | schedule due scope =>
    exact ho ⟨fun hg => ⟨hg.honoured, hg.waiting⟩, fun hg => ⟨hg.honoured, hg.waiting⟩⟩ nofun
  | cancel scope =>
    cases scope with
    | none => exact ho Iff.rfl nofun
    | some scope =>
      constructor
      · intro hg
        refine ⟨⟨hg.honoured, fun item hit hc => hg.waiting item hit (.inr hc)⟩, ?_⟩
        rintro _ ⟨⟩ item hit hs
        have hh : item ∈ s.held := mem_append_right _ (mem_append_left _ hit)
        exact hg.waiting item hit (.inl ⟨h.recorded item hh, hs⟩)
      · intro ⟨hg, hclr⟩
        refine ⟨hg.honoured, fun item hit hc => ?_⟩
        rcases hc with ⟨-, hs⟩ | hc
        · exact hclr scope rfl item hit hs
        · exact hg.waiting item hit hc
  | trigger tp =>
    refine ho ?_ nofun
    cases hl : s.loop with
    | idle =>
      rw [step, hl]
      exact ⟨fun hg => ⟨hg.honoured, by simp [hl, RuntimeLoop.waiting]⟩,
        fun hg => ⟨hg.honoured, nofun⟩⟩
    | trigger | reset items => rw [step, hl]
  | reset tp =>
    refine ho ?_ nofun
    cases hl : s.loop with
    | idle =>
      rw [step, hl]
      exact ⟨fun hg => ⟨hg.honoured, by simp [hl, RuntimeLoop.waiting]⟩,
        fun hg => ⟨hg.honoured, h.clean⟩⟩
    | trigger | reset items => rw [step, hl]
  | next => exact ho (good_next h) nofun

theorem good_run (h : s.Recorded) (actions : List (Action σ)) :
  (run step s actions).Good ↔ s.Good ∧ RunMeets step Clear s actions := by
  induction actions generalizing s with
  | nil => exact (and_iff_left trivial).symm
  | cons act rest ih =>
    refine (ih (h.step act)).trans ?_
    rw [good_step h act, and_assoc]
    rfl

omit [DecidableEq σ] in
theorem waiting_next (s : RuntimeUse σ) :
  RuntimeLoop.waiting s.next.loop = (RuntimeLoop.waiting s.loop).tail := by
  unfold RuntimeUse.next
  split
  · next hl => rw [hl]; rfl
  · next hl => split <;> simp [hl, RuntimeLoop.waiting]
  · next hl => rw [hl]; rfl
  · next hl => rw [hl]; rfl

theorem waiting_run_next (s : RuntimeUse σ) (n : Nat) :
  RuntimeLoop.waiting (run step s (replicate n .next)).loop =
    (RuntimeLoop.waiting s.loop).drop n := by
  induction n generalizing s with
  | zero => rfl
  | succ n ih =>
    refine (ih s.next).trans ?_
    rw [waiting_next, drop_tail]

theorem clear_next (s : RuntimeUse σ) (n : Nat) : RunMeets step Clear s (replicate n .next) := by
  induction n generalizing s with
  | zero => trivial
  | succ n ih => exact ⟨nofun, ih _⟩

/-- However a loop that is under way goes on, nothing is invoked after it was
cancelled, if and only if nothing was cancelled that a `reset` had still to
invoke. -/
theorem cancelled_never_invoked_iff (init : Int) (actions : List (Action σ)) :
  (∀ n, Honoured (run step (start (.create init) 0) (actions ++ replicate n .next)).trace) ↔
    RunMeets step Clear (start (.create init) 0) actions := by
  have hst : (start (.create init : ManualRuntime Nat σ) 0).Recorded :=
    recorded_start nodup_nil nofun
  have hrec : (run step (start (.create init : ManualRuntime Nat σ) 0) actions).Recorded :=
    Run.always (fun _ act hs => hs.step act) hst
  have hgo := good_run hst actions
  rw [and_iff_right ⟨trivial, nofun⟩] at hgo
  rw [← hgo]
  constructor
  · intro h
    have hd := waiting_run_next (run step (start (.create init) 0) actions)
      (RuntimeLoop.waiting (run step (start (.create init) 0) actions).loop).length
    have hl := h (RuntimeLoop.waiting (run step (start (.create init) 0) actions).loop).length
    rw [Run.append] at hl
    rw [drop_length] at hd
    exact ((good_run hrec _).1 ⟨hl, by simp [hd]⟩).1
  · intro hg n
    rw [Run.append]
    exact ((good_run hrec _).2 ⟨hg, clear_next _ n⟩).honoured

/-- A callback that a `reset` invokes cancels the scope of the next one, which is
invoked all the same. -/
theorem invoked_after_cancel :
  ¬Honoured (run step (start (.create 0) 0) [.schedule 1 (some 7), .schedule 2 (some 7),
    .reset 0, .next, .cancel (some 7), .next]).trace :=
  fun h => h.1 (.inl ⟨.tail _ (.head _), rfl⟩)

def Action.Inside : Action σ → Prop
  | .trigger _ | .reset _ => False
  | _ => True

omit [DecidableEq σ] in
theorem mem_invoked {item : ScheduledCallback Nat σ} {trace : List (RuntimeEvent σ)} :
  item ∈ invoked trace ↔ ∃ pending, .invoked item pending ∈ trace := by
  induction trace with
  | nil => simp [invoked]
  | cons event earlier ih => cases event <;> simp [invoked, ih, exists_or]

omit [DecidableEq σ] in
theorem due_spec {rt rest : ManualRuntime Nat σ} {top : ScheduledCallback Nat σ}
  (h : rt.due = some (top, rest)) : top.deadline ≤ rt.now ∧ rest.now = rt.now := by
  obtain ⟨now, queue, sorted⟩ := rt
  cases queue with
  | nil => simp [ManualRuntime.due] at h
  | cons first items =>
    simp only [ManualRuntime.due, Option.ite_none_right_eq_some, Option.some.injEq,
      Prod.mk.injEq] at h
    obtain ⟨hle, rfl, rfl⟩ := h
    exact ⟨hle, rfl⟩

omit [DecidableEq σ] in
theorem later_of_due {rt : ManualRuntime Nat σ} (h : rt.due = none) :
  ∀ item ∈ rt.queue, rt.now < item.deadline := by
  obtain ⟨now, queue, sorted⟩ := rt
  cases queue with
  | nil => nofun
  | cons first items =>
    have hlt : now < first.deadline := by simpa [ManualRuntime.due] using h
    refine forall_mem_cons.2 ⟨hlt, fun item hit => ?_⟩
    exact hlt.trans_le (rel_of_pairwise_cons sorted hit)

/-- A `trigger` to `tp` is under way or has returned, and all it has invoked was due
and had the smallest deadline. -/
structure Triggered (tp : Int) (s : RuntimeUse σ) : Prop where
  now : s.runtime.now = tp
  waiting : RuntimeLoop.waiting s.loop = []
  smallest : ∀ item pending, .invoked item pending ∈ s.trace →
    item.deadline ≤ tp ∧ item ∈ pending ∧ ∀ other ∈ pending, item.deadline ≤ other.deadline

omit [DecidableEq σ] in
theorem Triggered.next {tp : Int} (h : s.Triggered tp) : s.next.Triggered tp := by
  have hw : RuntimeLoop.waiting s.next.loop = [] := by rw [waiting_next, h.waiting]; rfl
  revert hw
  unfold RuntimeUse.next
  split
  · exact fun _ => h
  · split
    · exact fun hw => ⟨h.now, hw, h.smallest⟩
    · next top rt hdue =>
      intro hw
      obtain ⟨hle, hnow⟩ := due_spec hdue
      refine ⟨hnow.trans h.now, hw, fun item pending hev => ?_⟩
      rcases mem_cons.1 hev with hn | ho
      · obtain ⟨rfl, rfl⟩ := RuntimeEvent.invoked.inj hn
        have hs := s.runtime.sorted
        rw [ManualRuntime.queue_of_due hdue] at hs ⊢
        refine ⟨h.now ▸ hle, mem_cons_self, forall_mem_cons.2 ⟨le_rfl, fun other hoth => ?_⟩⟩
        exact rel_of_pairwise_cons hs hoth
      · exact h.smallest item pending ho
  · exact fun hw => ⟨h.now, hw, h.smallest⟩
  · next hl => exact absurd h.waiting (by simp [hl, RuntimeLoop.waiting])

theorem Triggered.step {tp : Int} (h : s.Triggered tp) {act : Action σ}
  (hins : act.Inside) : (s.step act).Triggered tp := by
  cases act with
  | schedule due scope =>
    refine ⟨h.now, h.waiting, fun item pending hev => ?_⟩
    exact h.smallest item pending ((mem_cons.1 hev).resolve_left nofun)
  | cancel scope =>
    cases scope with
    | none => exact h
    | some scope =>
      refine ⟨h.now, h.waiting, fun item pending hev => ?_⟩
      exact h.smallest item pending ((mem_cons.1 hev).resolve_left nofun)
  | trigger tp | reset tp => exact hins.elim
  | next => exact h.next

/-- A `trigger` that returns has invoked nothing that was not due or not the first
of what was pending, nothing twice, and all that was due and not cancelled. -/
theorem trigger_spec {runtime : ManualRuntime Nat σ} {count : Nat}
  (hdistinct : (runtime.queue.map (·.callback)).Nodup)
  (hnumbered : ∀ item ∈ runtime.queue, item.callback < count)
  (tp : Int) {body : List (Action σ)} (hbody : ∀ action ∈ body, action.Inside)
  (hloop : (run step (start runtime count) (.trigger tp :: body)).loop = .trigger)
  (hreturns : (run step (start runtime count) (.trigger tp :: body)).next.loop = .idle) :
  let after := (run step (start runtime count) (.trigger tp :: body)).next
  (∀ item pending, .invoked item pending ∈ after.trace → item.deadline ≤ tp ∧
    item ∈ pending ∧ ∀ other ∈ pending, item.deadline ≤ other.deadline) ∧
  ((invoked after.trace).map (·.callback)).Nodup ∧
  (∀ item ∈ after.runtime.queue, tp < item.deadline) ∧
  ∀ item, .scheduled item ∈ after.trace → item.deadline ≤ tp → ¬Cancelled item after.trace →
    ∃ pending, .invoked item pending ∈ after.trace := by
  intro after
  have hr : after.Recorded :=
    (Run.always (fun _ action hs => hs.step action) (recorded_start hdistinct hnumbered)).next
  have hst : ((start runtime count).step (.trigger tp)).Triggered tp :=
    ⟨rfl, rfl, fun item pending hev => by simp [start, step] at hev⟩
  have ht : (run step ((start runtime count).step (.trigger tp)) body).Triggered tp :=
    Run.ofKind (fun _ _ hs hins => hs.step hins) hst hbody
  have hq : ∀ item ∈ after.runtime.queue, tp < item.deadline := by
    revert hreturns
    simp only [after, RuntimeUse.next, hloop]
    split
    · next hdue =>
      exact fun _ item hit => ht.now.symm.trans_lt (later_of_due hdue item hit)
    · exact nofun
  have hheld : after.held = after.runtime.queue ++ invoked after.trace :=
    congrArg (fun waiting => after.runtime.queue ++ (waiting ++ invoked after.trace))
      ht.next.waiting
  refine ⟨ht.next.smallest, ?_, hq, fun item hit hle hcnc => ?_⟩
  · have ho := hr.once
    rw [hheld, map_append] at ho
    exact ho.of_append_right
  have hit := (hr.accounted item hit).resolve_right hcnc
  rw [hheld] at hit
  rcases mem_append.1 hit with hp | hinv
  · exact absurd (hq item hp) (not_lt.2 hle)
  · exact mem_invoked.1 hinv

theorem trigger_spec_of_rescheduling :
  let runtime : ManualRuntime Nat Nat := ⟨0, [⟨1, 0, none⟩, ⟨2, 1, some 7⟩], by decide⟩
  let body : List (Action Nat) := [.next, .schedule 1 none, .cancel (some 7), .next]
  let after := (run step (start runtime 2) (.trigger 5 :: body)).next
  after.loop = .idle ∧ ∀ item, .scheduled item ∈ after.trace → item.deadline ≤ 5 →
    ¬Cancelled item after.trace → ∃ pending, .invoked item pending ∈ after.trace :=
  ⟨rfl, (trigger_spec (by decide) (by decide) 5 (by simp [Action.Inside]) rfl rfl).2.2.2⟩

end RuntimeUse

end Vanetza
