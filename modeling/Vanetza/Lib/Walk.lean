import Mathlib.Data.List.Chain

/-!
# Bounded walks along a successor

A walk stops at a node with an answer or goes on to one further node, up to a
bound, where it gives a fixed answer.
-/

namespace Vanetza.Lib

inductive Move (α β : Type*) where
  | stop (answer : β)
  | go (next : α)

/-- Follow `step` through at most `fuel` nodes; `out` is the answer of a walk
that is still going then. -/
def walk {α β : Type*} (step : α → Move α β) (out : β) : Nat → α → β
  | 0, _ => out
  | fuel + 1, x =>
    match step x with
    | .stop answer => answer
    | .go next => walk step out fuel next

namespace Walk

variable {α β : Type*} {step : α → Move α β} {out : β}

variable {answer : β} {nodes : List α} {x : α} {fuel : Nat}

theorem walk_stop (h : step x = .stop answer) : walk step out (fuel + 1) x = answer := by
  rw [walk, h]

theorem walk_go {y : α} (h : step x = .go y) :
  walk step out (fuel + 1) x = walk step out fuel y := by
  rw [walk, h]

/-- The nodes `x, …` of a walk that stops with `answer` at the last one. -/
inductive Trail (step : α → Move α β) (answer : β) : α → List α → Prop where
  | last {x : α} (h : step x = .stop answer) : Trail step answer x [x]
  | cons {x y : α} {rest : List α} (h : step x = .go y)
      (tail : Trail step answer y rest) : Trail step answer x (x :: rest)

theorem Trail.head (h : Trail step answer x nodes) : ∃ rest, nodes = x :: rest := by
  cases h with
  | last _ => exact ⟨[], rfl⟩
  | cons _ _ => exact ⟨_, rfl⟩

theorem Trail.links (h : Trail step answer x nodes) :
  nodes.IsChain (fun a b => step a = .go b) := by
  induction h with
  | last _ => exact List.isChain_singleton _
  | cons hgo tail ih =>
    obtain ⟨rest, rfl⟩ := tail.head
    exact List.isChain_cons_cons.2 ⟨hgo, ih⟩

theorem Trail.last_stops (h : Trail step answer x nodes) :
  ∃ final, nodes.getLast? = some final ∧ step final = .stop answer := by
  induction h with
  | @last y hs => exact ⟨y, rfl, hs⟩
  | cons _ tail ih =>
    obtain ⟨final, hl, hs⟩ := ih
    obtain ⟨rest, rfl⟩ := tail.head
    exact ⟨final, by rw [List.getLast?_cons_cons]; exact hl, hs⟩

theorem Trail.unique {answer' : β} {nodes' : List α}
  (h : Trail step answer x nodes) (h' : Trail step answer' x nodes') :
  nodes = nodes' := by
  induction h generalizing nodes' with
  | last hs =>
    cases h' with
    | last _ => rfl
    | cons hgo _ => rw [hs] at hgo; cases hgo
  | cons hgo _ ih =>
    cases h' with
    | last hs => rw [hgo] at hs; cases hs
    | cons hgo' tail' =>
      rw [hgo] at hgo'
      cases hgo'
      rw [ih tail']

theorem Trail.imp {γ : Type*} {step' : α → Move α γ} {answer' : γ}
  (hgo : ∀ a b, step a = .go b → step' a = .go b)
  (hs : ∀ a, step a = .stop answer → step' a = .stop answer') (h : Trail step answer x nodes) :
  Trail step' answer' x nodes := by
  induction h with
  | last h => exact .last (hs _ h)
  | cons h _ ih => exact .cons (hgo _ _ h) ih

theorem exists_trail (h : walk step out fuel x = answer) (hne : answer ≠ out) :
  ∃ nodes, Trail step answer x nodes ∧ nodes.length ≤ fuel := by
  induction fuel generalizing x with
  | zero => exact absurd h.symm hne
  | succ fuel ih =>
    cases hs : step x with
    | stop b =>
      rw [walk_stop hs] at h
      exact ⟨[x], .last (by rw [hs, h]), by simp⟩
    | go y =>
      rw [walk_go hs] at h
      obtain ⟨nodes, ht, hl⟩ := ih h
      exact ⟨x :: nodes, .cons hs ht, by simpa using hl⟩

theorem walk_imp {step' : α → Move α β} (hgo : ∀ a b, step a = .go b → step' a = .go b)
  (hst : ∀ a, step a = .stop answer → step' a = .stop answer)
  (h : walk step out fuel x = answer) (hne : answer ≠ out) :
  walk step' out fuel x = answer := by
  induction fuel generalizing x with
  | zero => exact absurd h.symm hne
  | succ fuel ih =>
    cases hs : step x with
    | stop b =>
      rw [walk_stop hs] at h
      exact walk_stop (hst x (by rw [hs, h]))
    | go y =>
      rw [walk_go hs] at h
      rw [walk_go (hgo x y hs)]
      exact ih h

/-- A second walk over the links of a trail: at each link it either refuses
or goes on having checked `good`. When it did not refuse, every link of the
trail is good. The bound of the second walk may be anything that covers the
trail; what it does at the trail's last node does not matter. -/
theorem all_links_of_walk {γ : Type*} {step' : α → Move α γ} {out' refuse : γ}
  {good : α → α → Prop} (h : Trail step answer x nodes)
  (hl : ∀ a b, step a = .go b → step' a = .stop refuse ∨ (step' a = .go b ∧ good a b))
  (hf : nodes.length ≤ fuel) (hok : walk step' out' fuel x ≠ refuse) :
  nodes.IsChain good := by
  induction h generalizing fuel with
  | last _ => exact List.isChain_singleton _
  | cons hgo tail ih =>
    obtain ⟨f, rfl⟩ : ∃ f, fuel = f + 1 := ⟨fuel - 1, by simp at hf; omega⟩
    obtain ⟨rest, rfl⟩ := tail.head
    rcases hl _ _ hgo with hb | ⟨hgo', hg⟩
    · exact absurd (walk_stop hb) hok
    · rw [walk_go hgo'] at hok
      exact List.isChain_cons_cons.2 ⟨hg, ih (by simpa using hf) hok⟩

end Walk

end Vanetza.Lib
