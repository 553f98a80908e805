import Mathlib.Data.List.Induction

/-!
# Runs of a step function

A system that takes one action after the other is a step function; a run is the fold of the step
over a list of actions.
-/

namespace Vanetza.Lib

open List

def run {σ α : Type*} (step : σ → α → σ) (s : σ) (actions : List α) : σ := actions.foldl step s

def RunMeets {σ α : Type*} (step : σ → α → σ) (cond : σ → α → Prop) : σ → List α → Prop
  | _, [] => True
  | s, action :: rest => cond s action ∧ RunMeets step cond (step s action) rest

/-- What the last action to set a value sets it to. -/
def latest {α γ : Type*} (sets : α → Option γ) (start : γ) (actions : List α) : γ :=
  (actions.reverse.findSome? sets).getD start

namespace Run

variable {σ α : Type*} {step : σ → α → σ} {cond : σ → α → Prop} {inv : σ → Prop}

theorem meets_of_invariant (hstep : ∀ s act, inv s → inv (step s act))
    (hcond : ∀ s act, inv s → cond s act) {s : σ} (hinit : inv s) (actions : List α) :
    RunMeets step cond s actions := by
  induction actions generalizing s with
  | nil => trivial
  | cons act rest ih => exact ⟨hcond s act hinit, ih (hstep s act hinit)⟩

theorem meets_of_forall (h : ∀ s act, cond s act) (s : σ) (actions : List α) :
    RunMeets step cond s actions :=
  @meets_of_invariant _ _ step cond (fun _ => True) (fun _ _ _ => trivial) (fun s act _ => h s act)
    s trivial actions

theorem invariant (hstep : ∀ s act, inv s → cond s act → inv (step s act))
  {s : σ} {actions : List α} (hinit : inv s)
  (hr : RunMeets step cond s actions) : inv (run step s actions) := by
  induction actions generalizing s with
  | nil => exact hinit
  | cons act rest ih => exact ih (hstep s act hinit hr.1) hr.2

theorem always (hstep : ∀ s act, inv s → inv (step s act)) {s : σ}
  {actions : List α} (hinit : inv s) : inv (run step s actions) := by
  induction actions generalizing s with
  | nil => exact hinit
  | cons act rest ih => exact ih (hstep s act hinit)

theorem latest_run {γ : Type*} (get : σ → γ) {sets : α → Option γ}
  (hstep : ∀ s act, get (step s act) = (sets act).getD (get s)) (s : σ) (actions : List α) :
  get (run step s actions) = latest sets (get s) actions := by
  induction actions using reverseRecOn with
  | nil => rfl
  | append_singleton before act ih =>
    rw [run, foldl_append, latest, reverse_append, reverse_singleton, singleton_append,
      findSome?_cons]
    refine (hstep _ act).trans ?_
    cases sets act with
    | none => exact ih
    | some value => rfl

theorem ofKind {kind : α → Prop} (hstep : ∀ s act, inv s → kind act → inv (step s act)) {s : σ}
  {actions : List α} (hinit : inv s) (ha : ∀ act ∈ actions, kind act) :
  inv (run step s actions) := by
  induction actions generalizing s with
  | nil => exact hinit
  | cons act rest ih =>
    obtain ⟨hact, hr⟩ := forall_mem_cons.1 ha
    exact ih (hstep s act hinit hact) hr

theorem goesThrough_iff {allowed : σ → α → Prop} {always : σ → Prop}
  (hkp : ∀ s act, allowed s act → always s → always (step s act))
  (hstep : ∀ s act, allowed s act → always s → inv s → (inv (step s act) ↔ cond s act))
  {s : σ} {actions : List α} (ha : always s) (hinit : inv s)
  (hrun : RunMeets step allowed s actions) :
  (∀ before, before <+: actions → inv (run step s before)) ↔ RunMeets step cond s actions := by
  induction actions generalizing s with
  | nil =>
    refine ⟨fun _ => trivial, fun _ before hb => ?_⟩
    rw [prefix_nil.1 hb]
    exact hinit
  | cons act rest ih =>
    have hiff := hstep s act hrun.1 ha hinit
    have hk := hkp s act hrun.1 ha
    constructor
    · intro h
      have hn : inv (step s act) := h [act] (prefix_append [act] rest)
      refine ⟨hiff.1 hn, ?_⟩
      refine (ih hk hn hrun.2).1 fun before hb => ?_
      exact h (act :: before) ((prefix_cons_inj act).2 hb)
    · rintro ⟨hc, hmt⟩ before hb
      cases before with
      | nil => exact hinit
      | cons first before =>
        obtain ⟨rfl, hr⟩ := cons_prefix_cons.1 hb
        exact (ih hk (hiff.2 hc) hrun.2).2 hmt before hr

theorem append (step : σ → α → σ) (s : σ) (before after : List α) :
  run step s (before ++ after) = run step (run step s before) after :=
  List.foldl_append

/-! ## Departures

Something comes into being once, is there for a while, and does not come back
when it has gone. -/

def LeavesAfter (step : σ → α → σ) (present : σ → Prop) (s : σ) (actions before : List α) : Prop :=
  ∃ action, before ++ [action] <+: actions ∧ present (run step s before) ∧
    ¬present (run step s (before ++ [action]))

structure Transient (step : σ → α → σ) (inv known present : σ → Prop) : Prop where
  keeps : ∀ s action, inv s → inv (step s action)
  remembers : ∀ s action, inv s → known s → known (step s action)
  gone : ∀ s action, inv s → known s → ¬present s → ¬present (step s action)
  appears : ∀ s action, inv s → ¬known s → known (step s action) → present (step s action)
  known : ∀ s, inv s → present s → known s

namespace Transient

variable {known present : σ → Prop} (h : Transient step inv known present)
  {s : σ} {actions before : List α} (hinit : inv s)

include h hinit

theorem gone_of_earlier (hea : before <+: actions) (hkn : known (run step s before))
  (hg : ¬present (run step s before)) :
  ¬present (run step s actions) := by
  obtain ⟨after, rfl⟩ := hea
  have hb : inv (run step s before) := always h.keeps hinit
  have hstep : ∀ t act, inv t ∧ known t ∧ ¬present t →
      inv (step t act) ∧ known (step t act) ∧ ¬present (step t act) :=
    fun t act ht => ⟨h.keeps t act ht.1, h.remembers t act ht.1 ht.2.1,
      h.gone t act ht.1 ht.2.1 ht.2.2⟩
  have ha : inv (run step _ after) ∧ known (run step _ after) ∧
      ¬present (run step _ after) := always hstep ⟨hb, hkn, hg⟩
  rw [append]
  exact ha.2.2

theorem gone_of_leavesAfter (hl : LeavesAfter step present s actions before)
  {later : List α} (hlat : before.length < later.length)
  (hea : later <+: actions) : ¬present (run step s later) := by
  obtain ⟨act, ha, ht, hlef⟩ := hl
  have hle : (before ++ [act]).length ≤ later.length := by
    rw [length_append]
    exact hlat
  have hb := prefix_of_prefix_length_le ha hea hle
  have hinv : inv (run step s before) := always h.keeps hinit
  have hs : known (run step s (before ++ [act])) := by
    rw [append]
    exact h.remembers _ act hinv (h.known _ hinv ht)
  exact h.gone_of_earlier hinit hb hs hlef

theorem not_leavesAfter (hend : present (run step s actions)) :
  ¬LeavesAfter step present s actions before := by
  intro hl
  obtain ⟨act, ha, -⟩ := id hl
  refine h.gone_of_leavesAfter hinit hl ?_ (prefix_refl actions) hend
  have hle := ha.length_le
  rw [length_append] at hle
  exact hle

theorem leavesAfter_exists (hst : ¬known s)
  (hend : known (run step s actions)) (hg : ¬present (run step s actions)) :
  ∃ before, LeavesAfter step present s actions before := by
  induction actions using reverseRecOn with
  | nil => exact absurd hend hst
  | append_singleton actions act ih =>
    by_cases ht : present (run step s actions)
    · exact ⟨actions, act, prefix_refl _, ht, hg⟩
    by_cases hb : known (run step s actions)
    · obtain ⟨before, last, hp, hl⟩ := ih hb ht
      exact ⟨before, last, hp.trans (prefix_append _ _), hl⟩
    · rw [append] at hend hg
      have hinv : inv (run step s actions) := always h.keeps hinit
      exact absurd (h.appears _ act hinv hb hend) hg

theorem leavesAfter_existsUnique (hst : ¬known s)
  (hend : known (run step s actions)) (hg : ¬present (run step s actions)) :
  ∃! before, LeavesAfter step present s actions before := by
  obtain ⟨before, hb⟩ := h.leavesAfter_exists hinit hst hend hg
  refine ⟨before, hb, fun other ho => ?_⟩
  obtain ⟨last, hl, ht, -⟩ := id hb
  obtain ⟨act, ha, ht', -⟩ := id ho
  have hp := (prefix_append before [last]).trans hl
  have hp' := (prefix_append other [act]).trans ha
  rcases Nat.lt_trichotomy before.length other.length with hlt | heq | hlt
  · exact absurd ht' (h.gone_of_leavesAfter hinit hb hlt hp')
  · have hs := prefix_of_prefix_length_le hp' hp (Nat.le_of_eq heq.symm)
    exact hs.eq_of_length heq.symm
  · exact absurd ht (h.gone_of_leavesAfter hinit ho hlt hp)

end Transient

end Run

end Vanetza.Lib
