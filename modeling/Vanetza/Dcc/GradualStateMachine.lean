import Vanetza.Common.UnitInterval

/-!
# The gradual state machine

`GradualStateMachine` chooses the interval between two transmissions by the
load of the channel. Its states are ordered by the load from which on they
apply, and an update moves to a neighbouring state at most.
-/

namespace Vanetza.Dcc

open List

abbrev ChannelLoad := UnitInterval

namespace GradualStateMachine

structure State where
  lowerLimit : ChannelLoad
  offTime : Int
  deriving DecidableEq

/-- A `std::set` of states: in ascending order, and no two of them have the same
lower limit. -/
structure StateContainer where
  states : List State
  sorted : states.Pairwise fun lhs rhs => lhs.lowerLimit < rhs.lowerLimit

end GradualStateMachine

open GradualStateMachine in
/-- The iterator `m_current` refers to one of the states. -/
structure GradualStateMachine extends StateContainer where
  current : Fin states.length

namespace GradualStateMachine

/-- The constructor, with `repair`: there is always a state. -/
def create (container : StateContainer) : GradualStateMachine :=
  if h : 0 < container.states.length then
    { container with current := ⟨0, h⟩ }
  else
    { states := [⟨.ofRat 0, 0⟩]
      sorted := List.pairwise_singleton _ _
      current := ⟨0, Nat.one_pos⟩ }

def currentState (m : GradualStateMachine) : State := m.states.get m.current

def update (m : GradualStateMachine) (cbr : ChannelLoad) : GradualStateMachine :=
  { m with
    current :=
      if cbr < m.currentState.lowerLimit then
        if m.current.val ≠ 0 then ⟨m.current.val - 1, by omega⟩ else m.current
      else
        if h : m.current.val + 1 < m.states.length then
          let up : Fin m.states.length := ⟨m.current.val + 1, h⟩
          if cbr ≥ (m.states.get up).lowerLimit then up else m.current
        else m.current }

def transmissionInterval (m : GradualStateMachine) : Int := m.currentState.offTime

def reached (container : StateContainer) (cbr : ChannelLoad) : Nat :=
  container.states.countP (·.lowerLimit ≤ cbr)

theorem le_iff_lt_countP {states : List State}
  (hsor : states.Pairwise fun lhs rhs => lhs.lowerLimit < rhs.lowerLimit)
  (cbr : ChannelLoad) {i : Nat} (hi : i < states.length) :
  (states.get ⟨i, hi⟩).lowerLimit ≤ cbr ↔ i < states.countP (·.lowerLimit ≤ cbr) := by
  induction states generalizing i with
  | nil => exact absurd hi (Nat.not_lt_zero i)
  | cons first rest ih =>
    obtain ⟨hf, hr⟩ := pairwise_cons.1 hsor
    by_cases hle : first.lowerLimit ≤ cbr
    · rw [countP_cons_of_pos (by simpa using hle)]
      cases i with
      | zero => exact iff_of_true hle (Nat.succ_pos _)
      | succ i =>
        rw [Nat.succ_lt_succ_iff]
        exact ih hr (Nat.lt_of_succ_lt_succ hi)
    · -- nothing behind the first state is below the bound either
      have ha : ∀ s ∈ first :: rest, ¬ s.lowerLimit ≤ cbr := by
        intro s hs
        rcases mem_cons.1 hs with rfl | hs
        · exact hle
        · exact fun h => hle ((hf s hs).le.trans h)
      have hz : (first :: rest).countP (·.lowerLimit ≤ cbr) = 0 := by
        rw [countP_eq_zero]
        intro s hs
        simpa using ha s hs
      rw [hz]
      exact iff_of_false (ha _ (get_mem _ _)) (Nat.not_lt_zero i)

section Update

variable (m : GradualStateMachine) (cbr : ChannelLoad)

theorem reached_le : reached m.toStateContainer cbr ≤ m.states.length := List.countP_le_length

theorem lowerLimit_le_iff (i : Fin m.states.length) : (m.states.get i).lowerLimit ≤ cbr ↔
    i.val < reached m.toStateContainer cbr :=
  le_iff_lt_countP m.sorted cbr i.isLt

theorem current_update : (m.update cbr).current.val =
    if reached m.toStateContainer cbr ≤ m.current.val then m.current.val - 1
    else if m.current.val + 1 < reached m.toStateContainer cbr then
      m.current.val + 1
    else m.current.val := by
  have hc := m.lowerLimit_le_iff cbr m.current
  unfold update
  dsimp only
  split
  · next hlt =>
    have hr : reached m.toStateContainer cbr ≤ m.current.val :=
      not_lt.1 fun h => hlt.not_ge (hc.2 h)
    rw [if_pos hr]
    split
    · rfl
    · omega
  · next hge =>
    have hr : m.current.val < reached m.toStateContainer cbr := hc.1 (not_lt.1 hge)
    rw [if_neg hr.not_ge]
    split
    · next hup =>
      have hn := m.lowerLimit_le_iff cbr ⟨m.current.val + 1, hup⟩
      dsimp only at hn ⊢
      split
      · next hl => rw [if_pos (hn.1 hl)]
      · next hl => rw [if_neg fun h => hl (hn.2 h)]
    · next hend =>
      have hle := m.reached_le cbr
      rw [if_neg (by omega)]

end Update

def Belongs (container : StateContainer) (cbr : ChannelLoad) (s : State) : Prop :=
  s ∈ container.states ∧ (∀ other ∈ container.states, other.lowerLimit ≤ cbr →
      other.lowerLimit ≤ s.lowerLimit) ∧
    (s.lowerLimit ≤ cbr ∨ container.states.head? = some s ∧
      ∀ other ∈ container.states, ¬ other.lowerLimit ≤ cbr)

section Settling

variable (m : GradualStateMachine) (cbr : ChannelLoad)

theorem belongs_get {i : Fin m.states.length} (hi : i.val = reached m.toStateContainer cbr - 1) :
  Belongs m.toStateContainer cbr (m.states.get i) := by
  refine ⟨get_mem _ _, ?_, ?_⟩
  · intro other ho hle
    obtain ⟨j, rfl⟩ := get_of_mem ho
    have hj := (m.lowerLimit_le_iff cbr j).1 hle
    rcases Nat.lt_or_eq_of_le (show j.val ≤ i.val by omega) with hlt | heq
    · exact (pairwise_iff_get.1 m.sorted j i hlt).le
    · rw [Fin.ext heq]
  · by_cases hn : reached m.toStateContainer cbr = 0
    · right
      have hz : i.val = 0 := by omega
      refine ⟨?_, fun other ho hle => ?_⟩
      · rw [head?_eq_getElem?, ← hz]
        exact getElem?_eq_getElem i.isLt
      · obtain ⟨j, rfl⟩ := get_of_mem ho
        have hj := (m.lowerLimit_le_iff cbr j).1 hle
        omega
    · left
      exact (m.lowerLimit_le_iff cbr i).2 (by omega)

theorem container_iterate (k : Nat) :
  ((update · cbr)^[k] m).toStateContainer = m.toStateContainer := by
  induction k generalizing m with
  | zero => rfl
  | succ k ih => exact ih (m.update cbr)

omit m in
theorem currentState_eq {m m' : GradualStateMachine} (hs : m'.toStateContainer = m.toStateContainer)
  {i : Fin m.states.length} (hi : m'.current.val = i.val) :
  m'.currentState = m.states.get i := by
  cases m
  cases m'
  cases hs
  exact congrArg _ (Fin.ext hi)

theorem current_iterate (k : Nat) (hk : m.current.val ≤ reached m.toStateContainer cbr - 1 + k)
  (hk' : reached m.toStateContainer cbr - 1 ≤ m.current.val + k) :
  ((update · cbr)^[k] m).current.val = reached m.toStateContainer cbr - 1 := by
  induction k generalizing m with
  | zero =>
    rw [Function.iterate_zero_apply]
    omega
  | succ k ih =>
    have hn := m.current_update cbr
    refine ih (m.update cbr) ?_ ?_
    · change (m.update cbr).current.val ≤ reached m.toStateContainer cbr - 1 + k
      rw [hn]
      split_ifs <;> omega
    · change reached m.toStateContainer cbr - 1 ≤ (m.update cbr).current.val + k
      rw [hn]
      split_ifs <;> omega

/-- A machine that is updated with the same load again and again gets to the
state that belongs to the load, in fewer updates than there are states, and
stays there. No update, with whatever load, goes farther than to a neighbouring
state. -/
theorem update_settles : (∃ k < m.states.length, ∃ s, Belongs m.toStateContainer cbr s ∧
    ∀ j ≥ k, ((update · cbr)^[j] m).currentState = s) ∧
  ∀ load, (m.update load).states = m.states ∧ (m.update load).current.val ≤ m.current.val + 1 ∧
    m.current.val ≤ (m.update load).current.val + 1 := by
  have hl := m.reached_le cbr
  have hc := m.current.isLt
  let i : Fin m.states.length := ⟨reached m.toStateContainer cbr - 1, by omega⟩
  constructor
  · refine ⟨m.states.length - 1, by omega, m.states.get i, m.belongs_get cbr rfl, fun j hj => ?_⟩
    refine currentState_eq (m.container_iterate cbr j) ?_
    exact m.current_iterate cbr j (by omega) (by omega)
  intro load
  rw [m.current_update load]
  refine ⟨rfl, ?_, ?_⟩
  · split_ifs <;> omega
  · split_ifs <;> omega

end Settling

def etsiStates1ms : StateContainer where
  states := [⟨.ofRat 0, 100000⟩, ⟨.ofRat (30 / 100), 200000⟩,
    ⟨.ofRat (40 / 100), 400000⟩, ⟨.ofRat (50 / 100), 500000⟩,
    ⟨.ofRat (60 / 100), 1000000⟩]
  sorted := by decide +kernel

example :
    ((update · (.ofRat (1 / 2)))^[3] (create etsiStates1ms)).transmissionInterval = 500000 := by
  decide +kernel

end GradualStateMachine

end Vanetza.Dcc
