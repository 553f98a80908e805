import Vanetza.Lib.CircularBuffer
import Vanetza.Lib.Run

/-!
# Burst budget

So many messages may be sent within a certain duration, and then none until a period has passed
since the first.
-/

namespace Vanetza.Dcc

open Lib List

structure BurstBudget where
  messages : CircularBuffer Int
  burstDuration : Int
  burstPeriod : Int

variable {b : BurstBudget}

namespace BurstBudget

def create : BurstBudget where
  messages := .create 20
  burstDuration := 1000000
  burstPeriod := 10000000

def delay (b : BurstBudget) (now : Int) : Int × BurstBudget :=
  match b.messages.front with
  | none => (0, b)
  | some front =>
    if front + b.burstDuration > now ∧ ¬b.messages.isFull then (0, b)
    else if front + b.burstPeriod < now then
      (0, { b with messages := b.messages.clear })
    else (front + b.burstPeriod - now, b)

def notify (b : BurstBudget) (now : Int) : BurstBudget :=
  { b with messages := b.messages.pushBack now }

def burstMessages (b : BurstBudget) (n : Nat) : BurstBudget :=
  { b with messages := b.messages.resize n 0 }

inductive Answer (b : BurstBudget) (now : Int) : Int × BurstBudget → Prop
  | unused (hitems : b.messages.items = []) : Answer b now (0, b)
  | running {front : Int} {rest : List Int} (hitems : b.messages.items = front :: rest)
      (hbefore : now < front + b.burstDuration)
      (hfull : b.messages.isFull = false) : Answer b now (0, b)
  | expired {front : Int} {rest : List Int} (hitems : b.messages.items = front :: rest)
      (hafter : front + b.burstPeriod < now) :
      Answer b now (0, { b with messages := b.messages.clear })
  | closed {front : Int} {rest : List Int} (hitems : b.messages.items = front :: rest)
      (hclosed : b.messages.isFull = true ∨ front + b.burstDuration ≤ now)
      (hwithin : now ≤ front + b.burstPeriod) :
      Answer b now (front + b.burstPeriod - now, b)

theorem delay_answer (b : BurstBudget) (now : Int) : Answer b now (b.delay now) := by
  unfold delay CircularBuffer.front
  cases hitems : b.messages.items with
  | nil => exact .unused hitems
  | cons front rest =>
    rw [head?_cons]
    dsimp only
    split
    · next h => exact .running hitems h.1 (by simpa using h.2)
    next h =>
    split
    · next ha => exact .expired hitems ha
    next hw =>
    refine .closed hitems ?_ (by omega)
    by_cases hfull : b.messages.isFull = true
    · exact .inl hfull
    · exact .inr (by by_contra hlt; exact h ⟨by omega, hfull⟩)

section Delay

variable {b : BurstBudget} {now front : Int} {rest : List Int}

theorem delay_of_unused (hitems : b.messages.items = []) : b.delay now = (0, b) := by
  rw [delay, CircularBuffer.front, hitems]
  rfl

variable (hitems : b.messages.items = front :: rest)

include hitems

theorem delay_of_running (hb : now < front + b.burstDuration)
  (hfull : b.messages.isFull = false) : b.delay now = (0, b) := by
  rw [delay, CircularBuffer.front, hitems, head?_cons]
  exact if_pos ⟨hb, by rw [hfull]; exact Bool.false_ne_true⟩

theorem delay_of_expired (ha : front + b.burstPeriod < now) (hp : b.burstDuration < b.burstPeriod) :
  b.delay now = (0, { b with messages := b.messages.clear }) := by
  rw [delay, CircularBuffer.front, hitems, head?_cons]
  dsimp only
  rw [if_neg fun h => absurd h.1 (by omega), if_pos ha]

end Delay

theorem delay_eq (b : BurstBudget) (now : Int) : (b.delay now).2 = b ∨
    (b.delay now).2 = { b with messages := b.messages.clear } := by
  have ha := b.delay_answer now
  generalize b.delay now = answer at ha
  cases ha with
  | unused hitems | running hitems hbef hfull => exact .inl rfl
  | expired hitems haft => exact .inr rfl
  | closed hitems hcl hwin => exact .inl rfl

theorem items_notify_of_nil (hitems : b.messages.items = [])
  (hp : 0 < b.messages.capacity) (now : Int) :
  (b.notify now).messages.items = [now] := by
  have hfull : b.messages.isFull = false := by
    refine decide_eq_false fun hfull => ?_
    rw [hitems] at hfull
    exact absurd hfull hp.ne
  rw [notify, CircularBuffer.items_pushBack_of_not_full hfull, hitems]
  rfl

theorem items_notify_clear (hp : 0 < b.messages.capacity) (now : Int) :
  ({ b with messages := b.messages.clear }.notify now).messages.items = [now] := by
  refine items_notify_of_nil ?_ ?_ now
  · rfl
  · exact hp

theorem capacity_delay (b : BurstBudget) (now : Int) :
  (b.delay now).2.messages.capacity = b.messages.capacity := by
  rcases b.delay_eq now with heq | heq
  · rw [heq]
  · rw [heq]
    rfl

end BurstBudget

structure BurstUse where
  budget : BurstBudget
  now : Int
  limit : Nat
  sent : List Int

namespace BurstUse

inductive Action where
  | elapse (duration : Nat)
  | delay
  | send
  | notify
  | burstMessages (n : Nat)
  | burstDuration (d : Int)
  | burstPeriod (p : Int)

def start (init : Int) : BurstUse where
  budget := .create
  now := init
  limit := 20
  sent := []

def elapse (u : BurstUse) (duration : Nat) : BurstUse :=
  { u with now := u.now + duration }

def delay (u : BurstUse) : BurstUse :=
  { u with budget := (u.budget.delay u.now).2 }

def Allows (u : BurstUse) : Prop := (u.budget.delay u.now).1 = 0

instance instDecidableAllows (u : BurstUse) : Decidable u.Allows :=
  inferInstanceAs (Decidable (_ = _))

def send (u : BurstUse) : BurstUse :=
  if u.Allows then
    { u with
      budget := (u.budget.delay u.now).2.notify u.now
      sent := u.sent ++ [u.now] }
  else u.delay

theorem send_of_zero {u : BurstUse} {budget : BurstBudget}
  (h : u.budget.delay u.now = (0, budget)) :
  u.send = { u with
    budget := budget.notify u.now, sent := u.sent ++ [u.now] } := by
  have ha : u.Allows := by rw [Allows, h]
  rw [send, if_pos ha, h]

def burstMessages (u : BurstUse) (n : Nat) : BurstUse :=
  { u with budget := u.budget.burstMessages n, limit := n, sent := [] }

def step (u : BurstUse) : Action → BurstUse
  | .elapse duration => u.elapse duration
  | .delay => u.delay
  | .send => u.send
  | .notify => { u with budget := u.budget.notify u.now }
  | .burstMessages n => u.burstMessages n
  | .burstDuration d => { u with budget.burstDuration := d }
  | .burstPeriod p => { u with budget.burstPeriod := p }

def OffEnd (u : BurstUse) : Action → Prop
  | .elapse _ | .delay => True
  | .send => ∀ front ∈ u.budget.messages.front, front + u.budget.burstPeriod ≠ u.now
  | _ => False

end BurstUse

structure Burst where
  first : Int
  rest : List Int

namespace Burst

def messages (burst : Burst) : List Int := burst.first :: burst.rest

structure Within (burst : Burst) (limit : Nat) (d : Int) : Prop where
  length : burst.messages.length ≤ limit
  duration : ∀ time ∈ burst.messages, burst.first ≤ time ∧ time < burst.first + d

end Burst

structure AreBursts (limit : Nat) (d p : Int) (bursts : List Burst) : Prop where
  within : ∀ burst ∈ bursts, burst.Within limit d
  apart : bursts.IsChain fun burst next => burst.first + p ≤ next.first

def DividesIntoBursts (limit : Nat) (d p : Int) (sent : List Int) : Prop :=
  ∃ bursts, AreBursts limit d p bursts ∧ bursts.flatMap Burst.messages = sent

namespace DividesIntoBursts

variable {limit : Nat} {d p first : Int} {sent : List Int}

theorem length_le (h : DividesIntoBursts limit d p sent)
  (hc : ∀ time ∈ sent, ∀ later ∈ sent, later < time + p) :
  sent.length ≤ limit := by
  obtain ⟨bursts, hb, rfl⟩ := h
  cases bursts with
  | nil => exact Nat.zero_le _
  | cons burst rest =>
    cases rest with
    | nil =>
      rw [flatMap_singleton]
      exact (hb.within burst mem_cons_self).length
    | cons next rest =>
      have ha := (isChain_cons_cons.1 hb.apart).1
      have hf : burst.first ∈ (burst :: next :: rest).flatMap Burst.messages := by
        simp [Burst.messages]
      have hn : next.first ∈ (burst :: next :: rest).flatMap Burst.messages := by
        simp [Burst.messages]
      have hlt := hc _ hf _ hn
      omega

theorem tail (h : DividesIntoBursts limit d p (first :: sent))
  (ha : ∀ time ∈ sent, first + d ≤ time) :
  DividesIntoBursts limit d p sent := by
  obtain ⟨bursts, hb, hsent⟩ := h
  cases bursts with
  | nil => cases hsent
  | cons burst bursts =>
    obtain ⟨start, rest⟩ := burst
    have hc : start :: (rest ++ bursts.flatMap Burst.messages) = first :: sent := hsent
    obtain ⟨rfl, hr⟩ := cons.inj hc
    cases rest with
    | nil =>
      exact ⟨bursts, ⟨fun burst hm =>
        hb.within burst (mem_cons_of_mem _ hm),
        hb.apart.tail⟩, hr⟩
    | cons second rest =>
      have hm : second ∈ sent := by
        rw [← hr]
        exact mem_cons_self
      have hge := ha second hm
      have hlt := ((hb.within _ mem_cons_self).duration second (mem_cons_of_mem _ mem_cons_self)).2
      dsimp only at hlt
      omega

end DividesIntoBursts

namespace AreBursts

variable {limit : Nat} {d p : Int} {bursts : List Burst} {burst : Burst}

theorem nil : AreBursts limit d p [] := ⟨by rintro _ ⟨⟩, List.isChain_nil⟩

theorem snoc (h : AreBursts limit d p bursts) {now : Int}
  (hover : ∀ last ∈ bursts.getLast?, last.first + p ≤ now) (hlim : 0 < limit) (hd : 0 < d) :
  AreBursts limit d p (bursts ++ [⟨now, []⟩]) where
  within := by
    intro burst hm
    rcases mem_append.1 hm with hm | hm
    · exact h.within burst hm
    rw [mem_singleton.1 hm]
    refine ⟨hlim, fun time ht => ?_⟩
    rw [mem_singleton.1 ht]
    exact ⟨le_rfl, by dsimp only; omega⟩
  apart := by
    refine isChain_append.2 ⟨h.apart, isChain_singleton _, ?_⟩
    rintro last hl next hn
    obtain rfl : Burst.mk now [] = next := by simpa using hn
    exact hover last hl

theorem extend (h : AreBursts limit d p (bursts ++ [burst])) {now : Int}
  (hlen : burst.messages.length < limit) (hf : burst.first ≤ now) (hd : now < burst.first + d) :
  AreBursts limit d p (bursts ++ [{ burst with rest := burst.rest ++ [now] }]) where
  within := by
    intro other hm
    rcases mem_append.1 hm with hm | hm
    · exact h.within other (mem_append_left _ hm)
    rw [mem_singleton.1 hm]
    have hl := h.within burst (mem_append_right _ mem_cons_self)
    refine ⟨?_, fun time ht => ?_⟩
    · change (burst.messages ++ [now]).length ≤ limit
      rw [length_append]
      exact hlen
    have ht : time ∈ burst.messages ++ [now] := ht
    rcases mem_append.1 ht with ht | ht
    · exact hl.duration time ht
    · rw [mem_singleton.1 ht]
      exact ⟨hf, hd⟩
  apart := by
    obtain ⟨hb, -, hl⟩ := isChain_append.1 h.apart
    refine isChain_append.2 ⟨hb, isChain_singleton _, ?_⟩
    rintro last hm next hn
    obtain rfl : { burst with rest := burst.rest ++ [now] } = next := by simpa using hn
    exact hl last hm burst rfl

end AreBursts

namespace BurstUse

variable {limit : Nat} {d p : Int} {u v : BurstUse}

inductive Remembers (u : BurstUse) : List Burst → Prop
  | blocked (hfull : u.budget.messages.isFull = true) : Remembers u []
  | cleared {bursts : List Burst} (hitems : u.budget.messages.items = [])
      (hover : ∀ last ∈ bursts.getLast?,
        last.first + u.budget.burstPeriod ≤ u.now) : Remembers u bursts
  | last {bursts : List Burst} {burst : Burst} (hitems : u.budget.messages.items = burst.messages) :
      Remembers u (bursts ++ [burst])

structure Accounts (limit : Nat) (d p : Int) (u : BurstUse) (bursts : List Burst) : Prop where
  capacity : u.budget.messages.capacity = limit
  burstDuration : u.budget.burstDuration = d
  burstPeriod : u.budget.burstPeriod = p
  valid : AreBursts limit d p bursts
  sent : bursts.flatMap Burst.messages = u.sent
  past : ∀ time ∈ u.sent, time ≤ u.now
  remembers : Remembers u bursts

variable {rest : List Int} {front : Int}

namespace Accounts

variable {bursts : List Burst}

theorem divides (h : Accounts limit d p u bursts) : DividesIntoBursts limit d p u.sent :=
  ⟨bursts, h.valid, h.sent⟩

theorem elapse (h : Accounts limit d p u bursts) (dur : Nat) :
  Accounts limit d p (u.elapse dur) bursts where
  capacity := h.capacity
  burstDuration := h.burstDuration
  burstPeriod := h.burstPeriod
  valid := h.valid
  sent := h.sent
  past time hmem := by
    have hp := h.past time hmem
    change time ≤ u.now + dur
    omega
  remembers := by
    cases h.remembers with
    | blocked hfull => exact .blocked hfull
    | cleared hitems hover =>
      refine .cleared hitems fun last hl => ?_
      have hover := hover last hl
      change last.first + u.budget.burstPeriod ≤ u.now + dur
      omega
    | last hitems => exact .last hitems

theorem expired (h : Accounts limit d p u bursts) (hitems : u.budget.messages.items = front :: rest)
  (ha : front + u.budget.burstPeriod < u.now) :
  ∀ last ∈ bursts.getLast?, last.first + p ≤ u.now := by
  have hp := h.burstPeriod
  intro last hl
  cases h.remembers with
  | blocked hfull => cases hl
  | cleared hemp hover =>
    rw [hitems] at hemp
    cases hemp
  | last hbur =>
    rw [getLast?_append, getLast?_singleton, Option.some_or] at hl
    cases hl
    rw [hitems] at hbur
    obtain rfl : front = last.first := (cons.inj hbur).1
    omega

theorem clear (h : Accounts limit d p u bursts) (hitems : u.budget.messages.items = front :: rest)
  (ha : front + u.budget.burstPeriod < u.now) :
  Accounts limit d p { u with budget.messages := u.budget.messages.clear } bursts where
  capacity := h.capacity
  burstDuration := h.burstDuration
  burstPeriod := h.burstPeriod
  valid := h.valid
  sent := h.sent
  past := h.past
  remembers := by
    refine .cleared rfl fun last hl => ?_
    have hexp := h.expired hitems ha last hl
    rw [← h.burstPeriod] at hexp
    exact hexp

theorem delay (h : Accounts limit d p u bursts) : Accounts limit d p u.delay bursts := by
  have ha := u.budget.delay_answer u.now
  unfold BurstUse.delay
  generalize u.budget.delay u.now = answer at ha ⊢
  cases ha with
  | unused hitems | running hitems hbef hfull => exact h
  | expired hitems haft => exact h.clear hitems haft
  | closed hitems hcl hwin => exact h

theorem opens (h : Accounts limit d p u bursts) (hl : 0 < limit)
  (hd : 0 < d) (hitems : u.budget.messages.items = [])
  (hover : ∀ last ∈ bursts.getLast?, last.first + p ≤ u.now) :
  Accounts limit d p { u with budget := u.budget.notify u.now, sent := u.sent ++ [u.now] }
    (bursts ++ [⟨u.now, []⟩]) where
  capacity := h.capacity
  burstDuration := h.burstDuration
  burstPeriod := h.burstPeriod
  valid := h.valid.snoc hover hl hd
  sent := by
    rw [flatMap_append, h.sent]
    rfl
  past time hm := by
    rcases mem_append.1 hm with hm | hm
    · exact h.past time hm
    · exact (mem_singleton.1 hm).le
  remembers := by
    rw [← h.capacity] at hl
    exact .last (BurstBudget.items_notify_of_nil hitems hl u.now)

theorem continues (h : Accounts limit d p u bursts)
  (hitems : u.budget.messages.items = front :: rest)
  (hbef : u.now < front + u.budget.burstDuration) (hfull : u.budget.messages.isFull = false) :
  ∃ bursts, Accounts limit d p { u with budget := u.budget.notify u.now, sent := u.sent ++ [u.now] }
    bursts := by
  cases hr : h.remembers with
  | blocked hb =>
    rw [hfull] at hb
    cases hb
  | cleared hemp hover =>
    rw [hitems] at hemp
    cases hemp
  | @last bursts burst hbur =>
    obtain rfl : front = burst.first := by
      rw [hitems] at hbur
      exact (cons.inj hbur).1
    have hl : burst.messages.length < limit := by
      rw [← hbur, ← h.capacity]
      exact lt_of_le_of_ne u.budget.messages.within (of_decide_eq_false hfull)
    have hf : burst.first ∈ u.sent := by
      rw [← h.sent, flatMap_append]
      exact mem_append_right _ mem_cons_self
    rw [h.burstDuration] at hbef
    refine ⟨_, h.capacity, h.burstDuration, h.burstPeriod,
      h.valid.extend hl (h.past _ hf) hbef, ?_, ?_, ?_⟩
    · rw [← h.sent, flatMap_append, flatMap_append, append_assoc]
      simp [Burst.messages]
    · intro time hm
      rcases mem_append.1 hm with hm | hm
      · exact h.past time hm
      · exact (mem_singleton.1 hm).le
    · refine .last ((CircularBuffer.items_pushBack_of_not_full hfull).trans ?_)
      rw [hbur]
      rfl

theorem unused (h : Accounts limit d p u bursts) (hitems : u.budget.messages.items = []) :
  ∀ last ∈ bursts.getLast?, last.first + p ≤ u.now := by
  intro last hl
  cases h.remembers with
  | blocked hfull => cases hl
  | cleared hemp hover =>
    rw [← h.burstPeriod]
    exact hover last hl
  | last hbur =>
    rw [hitems] at hbur
    cases hbur

theorem send (h : Accounts limit d p u bursts) (hl : 0 < limit) (hd : 0 < d) (ho : u.OffEnd .send) :
  ∃ bursts, Accounts limit d p u.send bursts := by
  have ha := u.budget.delay_answer u.now
  generalize hdel : u.budget.delay u.now = answer at ha
  cases ha with
  | unused hitems =>
    rw [send_of_zero hdel]
    exact ⟨_, h.opens hl hd hitems (h.unused hitems)⟩
  | running hitems hbef hfull =>
    rw [send_of_zero hdel]
    exact h.continues hitems hbef hfull
  | expired hitems haft =>
    rw [send_of_zero hdel]
    exact ⟨_, (h.clear hitems haft).opens hl hd rfl (h.expired hitems haft)⟩
  | closed hitems hcl hwin =>
    have hfr : u.budget.messages.front = some _ := congrArg head? hitems
    have hne := ho _ hfr
    have hn : ¬u.Allows := by
      rw [Allows, hdel]
      dsimp only
      omega
    rw [BurstUse.send, if_neg hn]
    exact ⟨bursts, h.delay⟩

theorem step (hl : 0 < limit) (hd : 0 < d) (u : BurstUse) (act : Action)
  (h : ∃ bursts, Accounts limit d p u bursts) (ho : u.OffEnd act) :
  ∃ bursts, Accounts limit d p (u.step act) bursts := by
  obtain ⟨bursts, h⟩ := h
  cases act with
  | elapse dur => exact ⟨bursts, h.elapse dur⟩
  | delay => exact ⟨bursts, h.delay⟩
  | send => exact h.send hl hd ho
  | notify | burstMessages n | burstDuration d | burstPeriod p => cases ho

end Accounts

theorem divides_of_accounts {bursts : List Burst}
  (h : Accounts limit d p u bursts) (hl : 0 < limit) (hd : 0 < d)
  {acts : List Action} (ha : RunMeets step OffEnd u acts) :
  DividesIntoBursts limit d p (run step u acts).sent := by
  obtain ⟨bursts, h⟩ := Run.invariant (Accounts.step hl hd) ⟨bursts, h⟩ ha
  exact h.divides

def configured (init d p : Int) : BurstUse :=
  run step (start init) [.burstDuration d, .burstPeriod p]

/-- What is sent divides into bursts, as long as no message is sent at the very
moment a period is over. -/
theorem sent_in_bursts (init d p : Int) (hd : 0 < d) (actions : List Action)
  (hactions : RunMeets step OffEnd (configured init d p) actions) :
  DividesIntoBursts 20 d p (run step (configured init d p) actions).sent := by
  have ha : Accounts 20 d p (configured init d p) [] :=
    ⟨rfl, rfl, rfl, .nil, rfl, by rintro _ ⟨⟩, .cleared rfl (by rintro _ ⟨⟩)⟩
  exact divides_of_accounts ha (by decide) hd hactions

theorem three_sent_in_bursts : DividesIntoBursts 20 1000000 10000000
    (run step (configured 0 1000000 10000000) [.send, .send, .elapse 10000001, .send]).sent :=
  sent_in_bursts 0 1000000 10000000 (by decide) [.send, .send, .elapse 10000001, .send]
    ⟨by rintro _ ⟨⟩, by rintro _ ⟨⟩; decide, trivial, by rintro _ ⟨⟩; decide,
      trivial⟩

/-- A message when the period is just over, and a whole burst a microsecond
later. -/
theorem burst_after_period_end : ¬DividesIntoBursts 20 1000000 10000000
    (run step (configured 0 1000000 10000000) ([.send, .elapse 10000000, .send, .elapse 1] ++
        List.replicate 20 .send)).sent := by
  intro hd
  have hsent : (run step (configured 0 1000000 10000000)
      ([.send, .elapse 10000000, .send, .elapse 1] ++ replicate 20 .send)).sent =
      0 :: 10000000 :: replicate 20 10000001 := by decide +kernel
  rw [hsent] at hd
  have hl := (hd.tail (by decide +kernel)).length_le (by decide +kernel)
  exact absurd hl (by decide)

def Accepts : BurstUse → List Nat → Prop
  | _, [] => True
  | u, duration :: rest =>
    (u.elapse duration).Allows ∧ Accepts (u.elapse duration).send rest

def AcceptsOffEnd (u : BurstUse) (durations : List Nat) : Prop :=
  RunMeets step OffEnd u (durations.flatMap fun duration =>
    [.elapse duration, .send])

def Effective (u : BurstUse) (n : Nat) : Prop :=
  u.budget.messages.capacity ≤ n ∧ (u.limit < n →
    match u.budget.messages.front with
    | none => u.budget.burstPeriod < u.now
    | some front => u.budget.messages.isFull = true ∨ front + u.budget.burstDuration ≤ u.now)

theorem accounts_burstMessages {n : Nat} (h : u.budget.messages.capacity ≤ n) :
  Accounts n u.budget.burstDuration u.budget.burstPeriod (u.burstMessages n) [] where
  capacity := max_eq_right h
  burstDuration := rfl
  burstPeriod := rfl
  valid := .nil
  sent := rfl
  past := by rintro _ ⟨⟩
  remembers := by
    refine .blocked (CircularBuffer.isFull_iff.2 ?_)
    change (u.budget.messages.resize n 0).items.length = max _ n
    rw [CircularBuffer.length_resize, max_eq_right h]

structure Roomier (u v : BurstUse) : Prop where
  now : v.now = u.now
  burstDuration : v.budget.burstDuration = u.budget.burstDuration
  burstPeriod : v.budget.burstPeriod = u.budget.burstPeriod
  period : u.budget.burstDuration < u.budget.burstPeriod
  pos : 0 < u.budget.messages.capacity
  capacity : u.budget.messages.capacity ≤ v.budget.messages.capacity
  items : v.budget.messages.items = u.budget.messages.items ∨
    ∃ front rest, v.budget.messages.items = front :: rest ∧
      (u.budget.messages.items = [] ∧ front + u.budget.burstPeriod < u.now ∨
        u.budget.messages.items.head? = some front ∧ (u.budget.messages.isFull = true ∨
            front + u.budget.burstDuration ≤ u.now))

namespace Roomier

theorem elapse (h : Roomier u v) (dur : Nat) :
  Roomier (u.elapse dur) (v.elapse dur) where
  now := congrArg (· + (dur : Int)) h.now
  burstDuration := h.burstDuration
  burstPeriod := h.burstPeriod
  period := h.period
  pos := h.pos
  capacity := h.capacity
  items := by
    refine h.items.imp_right ?_
    rintro ⟨front, rest, hitems, hfr⟩
    refine ⟨front, rest, hitems, ?_⟩
    unfold BurstUse.elapse
    dsimp only
    rcases hfr with ⟨hemp, ha⟩ | ⟨hh, hfull | hend⟩
    · exact .inl ⟨hemp, by omega⟩
    · exact .inr ⟨hh, .inl hfull⟩
    · exact .inr ⟨hh, .inr (by omega)⟩

theorem both (h : Roomier u v) {c : BurstBudget}
  (hu : u.budget.delay u.now = (0, b)) (hv : v.budget.delay v.now = (0, c))
  (hitems : (c.notify v.now).messages.items = (b.notify u.now).messages.items) :
  v.Allows ∧ Roomier u.send v.send := by
  have hb := u.budget.delay_eq u.now
  have hc := v.budget.delay_eq v.now
  rw [hu] at hb
  rw [hv] at hc
  refine ⟨by rw [Allows, hv], ?_⟩
  rw [send_of_zero hu, send_of_zero hv]
  rcases hb with rfl | rfl <;> rcases hc with rfl | rfl <;>
    exact ⟨h.now, h.burstDuration, h.burstPeriod, h.period, h.pos, h.capacity, .inl hitems⟩

theorem period_lt (h : Roomier u v) : v.budget.burstDuration < v.budget.burstPeriod := by
  rw [h.burstDuration, h.burstPeriod]
  exact h.period

theorem capacity_pos (h : Roomier u v) : 0 < v.budget.messages.capacity := h.pos.trans_le h.capacity

theorem send_of_unused (h : Roomier u v) (hd : u.budget.delay u.now = (0, u.budget))
  (hemp : u.budget.messages.items = []) :
  v.Allows ∧ Roomier u.send v.send := by
  have hu := BurstBudget.items_notify_of_nil hemp h.pos u.now
  rcases h.items with hitems | ⟨front, rest, hitems, hfr⟩
  · rw [hemp] at hitems
    refine h.both hd (BurstBudget.delay_of_unused hitems) ?_
    rw [hu, BurstBudget.items_notify_of_nil hitems h.capacity_pos, h.now]
  rcases hfr with ⟨-, ha⟩ | ⟨hh, -⟩
  · rw [← h.now, ← h.burstPeriod] at ha
    refine h.both hd (BurstBudget.delay_of_expired hitems ha h.period_lt) ?_
    rw [hu, BurstBudget.items_notify_clear h.capacity_pos, h.now]
  · rw [hemp] at hh
    cases hh

theorem send_of_running (h : Roomier u v) (hd : u.budget.delay u.now = (0, u.budget))
  (hs : u.budget.messages.items = front :: rest)
  (hb : u.now < front + u.budget.burstDuration) (hfull : u.budget.messages.isFull = false) :
  v.Allows ∧ Roomier u.send v.send := by
  rcases h.items with hitems | ⟨other, rest', hitems, hfr⟩
  · have hlt : u.budget.messages.items.length < u.budget.messages.capacity :=
      lt_of_le_of_ne u.budget.messages.within (of_decide_eq_false hfull)
    have hf' : v.budget.messages.isFull = false := by
      refine decide_eq_false fun hfull => ?_
      rw [hitems] at hfull
      have hc := h.capacity
      omega
    rw [← h.now, ← h.burstDuration] at hb
    refine h.both hd (BurstBudget.delay_of_running (hitems.trans hs) hb hf') ?_
    rw [BurstBudget.notify, BurstBudget.notify, CircularBuffer.items_pushBack_of_not_full hf',
      CircularBuffer.items_pushBack_of_not_full hfull, hitems, h.now]
  · rw [hs, head?_cons] at hfr
    rcases hfr with ⟨hn, -⟩ | ⟨hh, hf' | hend⟩
    · cases hn
    · rw [hfull] at hf'
      cases hf'
    · cases hh
      omega

theorem front_eq (h : Roomier u v) (hs : u.budget.messages.items = front :: rest) :
  ∃ rest', v.budget.messages.items = front :: rest' := by
  rcases h.items with hitems | ⟨other, rest', hitems, hfr⟩
  · exact ⟨rest, hitems.trans hs⟩
  rw [hs, head?_cons] at hfr
  rcases hfr with ⟨hn, -⟩ | ⟨hh, -⟩
  · cases hn
  · cases hh
    exact ⟨rest', hitems⟩

theorem send (h : Roomier u v) (ha : u.Allows) (ho : u.OffEnd .send) :
  v.Allows ∧ Roomier u.send v.send := by
  have hans := u.budget.delay_answer u.now
  generalize hd : u.budget.delay u.now = answer at hans
  cases hans with
  | unused hemp => exact h.send_of_unused hd hemp
  | running hsame hbef hfull => exact h.send_of_running hd hsame hbef hfull
  | expired hsame haft =>
    obtain ⟨rest', hitems⟩ := h.front_eq hsame
    rw [← h.now, ← h.burstPeriod] at haft
    refine h.both hd (BurstBudget.delay_of_expired hitems haft h.period_lt) ?_
    rw [BurstBudget.items_notify_clear h.pos, BurstBudget.items_notify_clear h.capacity_pos, h.now]
  | @closed front rest hsame hcl hwin =>
    have hne := ho front (congrArg head? hsame)
    rw [Allows, hd] at ha
    dsimp only at ha
    omega

theorem accepts {durations : List Nat} (h : Roomier u v)
  (ha : u.Accepts durations) (ho : u.AcceptsOffEnd durations) :
  v.Accepts durations := by
  induction durations generalizing u v with
  | nil => trivial
  | cons dur rest ih =>
    obtain ⟨hall, ha⟩ := ha
    obtain ⟨-, hs, ho⟩ := ho
    obtain ⟨hall, hn⟩ := (h.elapse dur).send hall hs
    exact ⟨hall, ih hn ha ho⟩

end Roomier

theorem roomier_burstMessages {n : Nat} (h : u.Effective n)
  (hl : u.limit < n) (hpos : 0 < u.budget.messages.capacity)
  (hp : u.budget.burstDuration < u.budget.burstPeriod) :
  Roomier u (u.burstMessages n) := by
  refine ⟨rfl, rfl, rfl, hp, hpos, Nat.le_max_left _ _, .inr ?_⟩
  have hcl := h.2 hl
  have hc := h.1
  unfold CircularBuffer.front at hcl
  have hr : (u.burstMessages n).budget.messages.items = u.budget.messages.items.take n ++
        replicate (n - u.budget.messages.items.length) 0 := rfl
  cases hitems : u.budget.messages.items with
  | nil =>
    rw [hitems] at hcl hr
    obtain ⟨m, rfl⟩ : ∃ m, n = m + 1 := ⟨n - 1, by omega⟩
    exact ⟨0, replicate m 0, hr, .inl ⟨rfl, by simpa using hcl⟩⟩
  | cons front rest =>
    rw [hitems] at hcl hr
    obtain ⟨m, rfl⟩ : ∃ m, n = m + 1 := ⟨n - 1, by omega⟩
    exact ⟨front, _, hr, .inr ⟨rfl, hcl⟩⟩

theorem capacity_step_le (u : BurstUse) (act : Action) :
  u.budget.messages.capacity ≤ (u.step act).budget.messages.capacity := by
  cases act with
  | elapse dur => exact le_rfl
  | delay => exact (u.budget.capacity_delay u.now).ge
  | send =>
    change _ ≤ u.send.budget.messages.capacity
    unfold send
    split
    · exact (u.budget.capacity_delay u.now).ge
    · exact (u.budget.capacity_delay u.now).ge
  | notify => exact le_rfl
  | burstMessages n => exact Nat.le_max_left _ _
  | burstDuration d | burstPeriod p => exact le_rfl

theorem capacity_pos (init : Int) (acts : List Action) :
  0 < (run step (start init) acts).budget.messages.capacity := by
  have hstep : ∀ (u : BurstUse) act, 0 < u.budget.messages.capacity →
      0 < (u.step act).budget.messages.capacity :=
    fun u act h => h.trans_le (u.capacity_step_le act)
  have hst : 0 < (start init).budget.messages.capacity := Nat.succ_pos 19
  exact Run.always hstep hst

/-- After a new limit has been set so that it takes effect, the messages divide
into bursts within the limit; and what would have been allowed under a lower
limit still is. -/
theorem new_limit_observed (init : Int) (prior : List Action) (n : Nat) (hn : 1 ≤ n) :
  let u := run step (start init) prior
  0 < u.budget.burstDuration →
  u.budget.burstDuration < u.budget.burstPeriod → u.Effective n →
  (∀ later, RunMeets step OffEnd (u.burstMessages n) later →
    DividesIntoBursts n u.budget.burstDuration u.budget.burstPeriod
      (run step (u.burstMessages n) later).sent) ∧
  (u.limit < n → ∀ durations, u.Accepts durations →
    u.AcceptsOffEnd durations → (u.burstMessages n).Accepts durations) := by
  intro u hd hper heff
  refine ⟨fun later hl => ?_, fun hlim durations hacc hoff => ?_⟩
  · exact divides_of_accounts (accounts_burstMessages heff.1) hn hd hl
  · have hp := capacity_pos init prior
    exact (roomier_burstMessages heff hlim hp hper).accepts hacc hoff

theorem new_limit_of_thirty :
  let u := run step (start 20000000) []
  DividesIntoBursts 30 u.budget.burstDuration u.budget.burstPeriod
    (run step (u.burstMessages 30) [.send, .elapse 7, .send]).sent :=
  (new_limit_observed 20000000 [] 30 (by decide) (by decide) (by decide)
    ⟨by decide, fun _ => (by decide : (10000000 : Int) < 20000000)⟩).1 [.send, .elapse 7, .send]
    ⟨by rintro _ ⟨⟩; decide, trivial, by rintro _ ⟨⟩; decide, trivial⟩

/-- With a limit of one, two messages are sent at the same time. And in a burst
of one message so far, no other one may be sent once the limit is raised. -/
theorem new_limit_not_observed : ¬DividesIntoBursts 1 1000000 10000000
    (run step (start 20000000) [.burstMessages 1, .send, .send]).sent ∧
  let u := run step (start 20000000) [.send]
  u.Accepts [0] ∧ ¬(u.burstMessages 30).Accepts [0] := by
  refine ⟨fun hd => ?_, ⟨by decide, trivial⟩, fun ha => ?_⟩
  · have hsent : (run step (start 20000000)
        [.burstMessages 1, .send, .send]).sent = [20000000, 20000000] := by
      decide
    rw [hsent] at hd
    exact absurd (hd.length_le (by decide)) (by decide)
  · exact absurd ha.1 (by decide)

end BurstUse

end Vanetza.Dcc
