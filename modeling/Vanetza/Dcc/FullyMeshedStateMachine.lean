import Vanetza.Dcc.GradualStateMachine
import Vanetza.Lib.CircularBuffer
import Vanetza.Lib.Run

/-!
# The fully meshed state machine

`FullyMeshedStateMachine` is given a sample of the channel load ten times a
second. To ramp up it looks at the lowest sample of the last second, to cool
down at the highest one of the last five seconds.
-/

namespace Vanetza.Dcc

open Lib List

namespace FullyMeshedStateMachine

inductive State where
  | relaxed
  | active
  | restrictive
  deriving DecidableEq

structure Active where
  substate : Nat

namespace Active

def scSubstates : Nat := 5

def channelLoads : List ℚ := [27 / 100, 35 / 100, 43 / 100, 51 / 100, 59 / 100]

/-- `std::upper_bound`: how many limits come before the first greater one. -/
def upperBound (load : ℚ) : Nat := channelLoads.findIdx fun limit => load < limit

def update (_ : Active) (minCl maxCl : ℚ) : Active :=
  let stateUp := upperBound minCl
  let stateDown := upperBound maxCl
  ⟨min (scSubstates - 1) (max stateUp stateDown)⟩

end Active

/-- `N_samples_up`: the samples of one second. -/
def nSamplesUp : Nat := 10

/-- `N_samples_down`: the samples of five seconds. -/
def nSamplesDown : Nat := 50

def minLoad : ℚ := 19 / 100

def maxLoad : ℚ := 59 / 100

end FullyMeshedStateMachine

open FullyMeshedStateMachine in
structure FullyMeshedStateMachine where
  active : Active
  state : State
  channelLoads : CircularBuffer ChannelLoad

namespace FullyMeshedStateMachine

def create : FullyMeshedStateMachine := ⟨⟨0⟩, .relaxed, .create (max nSamplesUp nSamplesDown)⟩

def overSamples {β : Type} (limit : Nat) (f : β → ℚ → β) : Nat → β → List ChannelLoad → β
  | _, acc, [] => acc
  | sampleCnt, acc, sample :: rest =>
    if sampleCnt ≥ limit then acc
    else overSamples limit f (sampleCnt + 1) (f acc sample.value) rest

/-- Infinity, which is there before any sample, is `none`. -/
def lower (minCl : Option ℚ) (sample : ℚ) : Option ℚ :=
  match minCl with
  | none => some sample
  | some least => if sample < least then some sample else some least

def higher (maxCl sample : ℚ) : ℚ := if sample > maxCl then sample else maxCl

def minChannelLoad (m : FullyMeshedStateMachine) : ℚ :=
  (overSamples nSamplesUp lower 0 none m.channelLoads.items).getD 0

def maxChannelLoad (m : FullyMeshedStateMachine) : ℚ :=
  overSamples nSamplesDown higher 0 0 m.channelLoads.items

def activate (m : FullyMeshedStateMachine) : FullyMeshedStateMachine :=
  { m with
    state := .active
    active := m.active.update m.minChannelLoad m.maxChannelLoad }

def push (m : FullyMeshedStateMachine) (cl : ChannelLoad) : FullyMeshedStateMachine :=
  { m with channelLoads := m.channelLoads.pushFront cl }

def update (m : FullyMeshedStateMachine) (cl : ChannelLoad) : FullyMeshedStateMachine :=
  let m := m.push cl
  match m.state with
  | .relaxed => if m.minChannelLoad ≥ minLoad then m.activate else m
  | .restrictive => if m.maxChannelLoad < maxLoad then m.activate else m
  | .active =>
    if m.maxChannelLoad < minLoad then { m with state := .relaxed }
    else if m.minChannelLoad ≥ maxLoad then { m with state := .restrictive }
    else m.activate

theorem overSamples_eq {β : Type} (limit : Nat) (f : β → ℚ → β) (cnt : Nat)
  (acc : β) (samples : List ChannelLoad) :
  overSamples limit f cnt acc samples =
    ((samples.take (limit - cnt)).map (·.value)).foldl f acc := by
  induction samples generalizing cnt acc with
  | nil => simp [overSamples]
  | cons sample rest ih =>
    rw [overSamples]
    by_cases hc : cnt ≥ limit
    · rw [if_pos hc, Nat.sub_eq_zero_of_le hc]
      rfl
    · have hs : limit - cnt = limit - (cnt + 1) + 1 := by omega
      rw [if_neg hc, ih, hs, take_succ_cons, map_cons, foldl_cons]

theorem le_foldl_lower_iff {x : ℚ} (samples : List ℚ) (least : ℚ) :
  ∃ m, samples.foldl lower (some least) = some m ∧ (x ≤ m ↔ x ≤ least ∧ ∀ s ∈ samples, x ≤ s) := by
  induction samples generalizing least with
  | nil => exact ⟨least, rfl, by simp⟩
  | cons sample rest ih =>
    have hlo : lower (some least) sample = some (min least sample) := by
      rw [lower]
      split
      · next h => rw [min_eq_right h.le]
      · next h => rw [min_eq_left (not_lt.1 h)]
    obtain ⟨m, heq, hiff⟩ := ih (min least sample)
    refine ⟨m, by rw [foldl_cons, hlo, heq], ?_⟩
    rw [hiff, le_min_iff, forall_mem_cons, and_assoc]

theorem foldl_higher_lt_iff {x : ℚ} (samples : List ℚ) (greatest : ℚ) :
  samples.foldl higher greatest < x ↔ greatest < x ∧ ∀ s ∈ samples, s < x := by
  induction samples generalizing greatest with
  | nil => simp
  | cons sample rest ih =>
    have hh : higher greatest sample = max greatest sample := by
      rw [higher]
      split
      · next h => rw [max_eq_right h.le]
      · next h => rw [max_eq_left (not_lt.1 h)]
    rw [foldl_cons, ih, hh, max_lt_iff, forall_mem_cons, and_assoc]

variable (m : FullyMeshedStateMachine)

theorem le_minChannelLoad_iff {x : ℚ} (hx : 0 < x) :
  x ≤ m.minChannelLoad ↔ m.channelLoads.items ≠ [] ∧
    ∀ s ∈ m.channelLoads.items.take nSamplesUp, x ≤ s.value := by
  rw [minChannelLoad, overSamples_eq]
  cases m.channelLoads.items with
  | nil => simpa using hx
  | cons sample rest =>
    obtain ⟨least, heq, hiff⟩ := @le_foldl_lower_iff x ((rest.take 9).map (·.value)) sample.value
    show x ≤ (((rest.take 9).map (·.value)).foldl lower (some sample.value)).getD 0 ↔ _
    have ht : (sample :: rest).take nSamplesUp = sample :: rest.take 9 := rfl
    rw [heq, Option.getD_some, hiff, forall_mem_map, ht, forall_mem_cons]
    exact (and_iff_right (cons_ne_nil _ _)).symm

theorem maxChannelLoad_lt_iff {x : ℚ} (hx : 0 < x) : m.maxChannelLoad < x ↔
    ∀ s ∈ m.channelLoads.items.take nSamplesDown, s.value < x := by
  rw [maxChannelLoad, overSamples_eq, foldl_higher_lt_iff, forall_mem_map, Nat.sub_zero]
  exact and_iff_right hx

def next (state : State) (minCl maxCl : ℚ) : State :=
  match state with
  | .relaxed => if minCl ≥ minLoad then .active else .relaxed
  | .restrictive => if maxCl < maxLoad then .active else .restrictive
  | .active =>
    if maxCl < minLoad then .relaxed
    else if minCl ≥ maxLoad then .restrictive
    else .active

theorem state_update (cl : ChannelLoad) : (m.update cl).state =
  next m.state (m.push cl).minChannelLoad (m.push cl).maxChannelLoad := by
  obtain ⟨active, state, loads⟩ := m
  cases state with
  | relaxed | restrictive => exact apply_ite FullyMeshedStateMachine.state _ _ _
  | active =>
    refine (apply_ite FullyMeshedStateMachine.state _ _ _).trans ?_
    exact congrArg (ite _ _) (apply_ite FullyMeshedStateMachine.state _ _ _)

theorem channelLoads_update (cl : ChannelLoad) :
  (m.update cl).channelLoads = m.channelLoads.pushFront cl := by
  unfold update
  dsimp only
  split
  · split <;> rfl
  · split <;> rfl
  · split
    · rfl
    · split <;> rfl

variable {state : State} {minCl maxCl : ℚ}

theorem next_ne_relaxed (h : next .relaxed minCl maxCl ≠ .relaxed) : minLoad ≤ minCl := by
  by_contra hlt
  exact h (if_neg hlt)

theorem next_eq_restrictive (h : next state minCl maxCl = .restrictive)
  (hst : state ≠ .restrictive) : state = .active ∧ maxLoad ≤ minCl := by
  cases state with
  | relaxed =>
    rw [next] at h
    split at h <;> cases h
  | restrictive => exact absurd rfl hst
  | active =>
    rw [next] at h
    split at h
    · cases h
    · split at h
      · next hle => exact ⟨rfl, hle⟩
      · cases h

theorem next_ne_restrictive (h : next .restrictive minCl maxCl ≠ .restrictive) :
  maxCl < maxLoad := by
  by_contra hlt
  exact h (if_neg hlt)

theorem next_eq_relaxed (h : next state minCl maxCl = .relaxed)
  (hst : state ≠ .relaxed) : maxCl < minLoad := by
  cases state with
  | relaxed => exact absurd rfl hst
  | restrictive =>
    rw [next] at h
    split at h <;> cases h
  | active =>
    rw [next] at h
    split at h
    · next hlt => exact hlt
    · split at h <;> cases h

def lastSamples (n : Nat) (samples : List ChannelLoad) : List ChannelLoad := samples.reverse.take n

def given (samples : List ChannelLoad) : FullyMeshedStateMachine := run update create samples

theorem given_append (samples : List ChannelLoad) (cl : ChannelLoad) :
  given (samples ++ [cl]) = (given samples).update cl :=
  Run.append update create samples [cl]

theorem items_given (samples : List ChannelLoad) : (given samples).channelLoads.capacity = 50 ∧
    (given samples).channelLoads.items = lastSamples 50 samples := by
  induction samples using reverseRecOn with
  | nil => exact ⟨rfl, rfl⟩
  | append_singleton samples cl ih =>
    obtain ⟨hc, hits⟩ := ih
    rw [given_append, channelLoads_update]
    refine ⟨hc, ?_⟩
    rw [lastSamples, ← hc] at hits
    have hp := @CircularBuffer.items_pushFront _ _ cl samples hits
    rwa [hc] at hp

theorem items_push (samples : List ChannelLoad) (cl : ChannelLoad) :
  ((given samples).push cl).channelLoads.items = lastSamples 50 (samples ++ [cl]) := by
  rw [← (items_given (samples ++ [cl])).2, given_append, channelLoads_update]
  rfl

section Thresholds

variable {x : ℚ} (hx : 0 < x) (samples : List ChannelLoad) (cl : ChannelLoad)

include hx

theorem le_minChannelLoad_push : x ≤ ((given samples).push cl).minChannelLoad ↔
  ∀ s ∈ lastSamples 10 (samples ++ [cl]), x ≤ s.value := by
  have hne : lastSamples 50 (samples ++ [cl]) ≠ [] := by simp [lastSamples]
  rw [le_minChannelLoad_iff _ hx, items_push, lastSamples, take_take]
  exact and_iff_right hne

theorem maxChannelLoad_push_lt : ((given samples).push cl).maxChannelLoad < x ↔
    ∀ s ∈ lastSamples 50 (samples ++ [cl]), s.value < x := by
  rw [maxChannelLoad_lt_iff _ hx, items_push, lastSamples, take_take]
  rfl

end Thresholds

theorem minLoad_pos : 0 < minLoad := by norm_num [minLoad]

theorem maxLoad_pos : 0 < maxLoad := by norm_num [maxLoad]

structure Deferred (samples : List ChannelLoad) (cl : ChannelLoad) : Prop where
  leavesRelaxed : (given samples).state = .relaxed → ((given samples).update cl).state ≠ .relaxed →
    10 ≤ (samples ++ [cl]).length ∧ ∀ s ∈ lastSamples 10 (samples ++ [cl]), 19 / 100 ≤ s.value
  entersRestrictive : (given samples).state ≠ .restrictive →
    ((given samples).update cl).state = .restrictive →
    10 ≤ (samples ++ [cl]).length ∧ ∀ s ∈ lastSamples 10 (samples ++ [cl]), 59 / 100 ≤ s.value
  leavesRestrictive : (given samples).state = .restrictive →
    ((given samples).update cl).state ≠ .restrictive →
    ∀ s ∈ lastSamples 50 (samples ++ [cl]), s.value < 59 / 100
  returnsToRelaxed : (given samples).state ≠ .relaxed →
    ((given samples).update cl).state = .relaxed →
    ∀ s ∈ lastSamples 50 (samples ++ [cl]), s.value < 19 / 100

theorem mem_lastSamples_of_length {first : ChannelLoad}
  {samples : List ChannelLoad} (h : samples.length < 10) :
  first ∈ lastSamples 10 (first :: samples) := by
  rw [lastSamples, take_of_length_le]
  · simp
  · simp
    omega

theorem minLoad_le_of_leaves {samples : List ChannelLoad} {cl : ChannelLoad}
  (hr : (given samples).state = .relaxed) (h : ((given samples).update cl).state ≠ .relaxed) :
  ∀ s ∈ lastSamples 10 (samples ++ [cl]), minLoad ≤ s.value := by
  rw [state_update, hr] at h
  exact (le_minChannelLoad_push minLoad_pos samples cl).1 (next_ne_relaxed h)

theorem ten_given_of_leaves {first : ChannelLoad} (hf : first.value < minLoad)
  (samples : List ChannelLoad)
  (h : (given (first :: samples)).state ≠ .relaxed) : 10 ≤ samples.length := by
  induction samples using reverseRecOn with
  | nil =>
    have hl := @minLoad_le_of_leaves [] first rfl h first (mem_singleton.2 rfl)
    exact absurd hf (not_lt.2 hl)
  | append_singleton samples cl ih =>
    rw [← cons_append, given_append] at h
    by_cases hr : (given (first :: samples)).state = .relaxed
    · by_contra hfew
      have hm := @mem_lastSamples_of_length first (samples ++ [cl]) (not_le.1 hfew)
      have hl := minLoad_le_of_leaves hr h first hm
      exact absurd hf (not_lt.2 hl)
    · have := ih hr
      rw [length_append]
      omega

theorem ten_given {samples : List ChannelLoad}
  (hf : ∀ first rest, samples = first :: rest → first.value < minLoad)
  (h : (given samples).state ≠ .relaxed) : 10 ≤ samples.length := by
  cases samples with
  | nil => exact absurd rfl h
  | cons first rest =>
    have := ten_given_of_leaves (hf first rest rfl) rest h
    rw [length_cons]
    omega

theorem deferred_of_low_first {samples : List ChannelLoad} {cl : ChannelLoad}
  (hf : ∀ first rest, samples ++ [cl] = first :: rest →
    first.value < minLoad) : Deferred samples cl := by
  have ht := ten_given hf
  rw [given_append] at ht
  refine ⟨fun hr h => ?_, fun hst h => ?_, fun hres h => ?_, fun hst h => ?_⟩
  · exact ⟨ht h, minLoad_le_of_leaves hr h⟩
  · refine ⟨ht (by rw [h]; exact State.noConfusion), ?_⟩
    rw [state_update] at h
    have hmin := (next_eq_restrictive h hst).2
    exact (le_minChannelLoad_push maxLoad_pos samples cl).1 hmin
  · rw [state_update, hres] at h
    have hm := next_ne_restrictive h
    exact (maxChannelLoad_push_lt maxLoad_pos samples cl).1 hm
  · rw [state_update] at h
    have hm := next_eq_relaxed h hst
    exact (maxChannelLoad_push_lt minLoad_pos samples cl).1 hm

theorem leaves_of_high_first {first : ChannelLoad} (h : minLoad ≤ first.value) :
  ((given []).update first).state ≠ .relaxed := by
  have hm : minLoad ≤ ((given []).push first).minChannelLoad := by
    rw [le_minChannelLoad_push minLoad_pos]
    intro s hs
    obtain rfl : s = first := mem_singleton.1 hs
    exact h
  rw [state_update]
  show ite _ _ _ ≠ _
  rw [if_pos hm]
  exact State.noConfusion

/-- All transitions are deferred as they should be, whatever samples are given,
exactly if the first sample is below the lower threshold. -/
theorem transitions_deferred_iff (samples : List ChannelLoad) :
  (∀ before cl, before ++ [cl] <+: samples → Deferred before cl) ↔
    ∀ first rest, samples = first :: rest → first.value < 19 / 100 := by
  constructor
  · intro hd first rest hs
    by_contra hhigh
    have hp : [] ++ [first] <+: samples := by
      rw [hs]
      exact prefix_append [first] rest
    have ht := (hd [] first hp).leavesRelaxed rfl (leaves_of_high_first (not_lt.1 hhigh))
    exact absurd ht.1 (by simp)
  · intro hf before cl hp
    obtain ⟨after, hs⟩ := hp
    refine deferred_of_low_first fun first rest hc => ?_
    exact hf first (rest ++ after) (by rw [← hs, hc]; rfl)

/-- Two samples are enough to get from the relaxed to the restrictive state. -/
theorem restrictive_after_two_samples : (given [.ofRat (3 / 5)]).state = .active ∧
    (given [.ofRat (3 / 5), .ofRat (3 / 5)]).state = .restrictive := by
  decide +kernel

end FullyMeshedStateMachine

end Vanetza.Dcc
