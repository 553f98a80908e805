import Mathlib
import Vanetza.Lib.Run

/-!
# DCC flow control

A packet the rate control would let through at once is handed over; any other waits in the queue of
its access category, with a timer for the moment the rate control has named.
-/

namespace Vanetza.Dcc

open Lib List List.Subset

inductive Profile where
  | dp0
  | dp1
  | dp2
  | dp3
  deriving DecidableEq

inductive AccessCategory where
  | bk
  | be
  | vi
  | vo
  deriving DecidableEq

def AccessCategory.priority : AccessCategory → Nat
  | .bk => 1
  | .be => 3
  | .vi => 5
  | .vo => 7

/-- The order in which `FlowControl` goes through its queues. -/
def AccessCategory.descending : List AccessCategory := [.vo, .vi, .be, .bk]

theorem AccessCategory.mem_descending (ac : AccessCategory) : ac ∈ descending := by
  cases ac <;> decide

def mapProfileOntoAc : Profile → AccessCategory
  | .dp0 => .vo
  | .dp1 => .vi
  | .dp2 => .be
  | .dp3 => .bk

/-- `ChunkPacket`, as the octets it is made of. -/
abbrev Packet := List UInt8

structure DataRequest where
  source : Nat
  destination : Nat
  etherType : UInt16
  dccProfile : Profile
  lifetime : Int
  deriving DecidableEq

structure Transmission where
  profile : Profile
  bodyLength : Nat
  hasDataRate : Bool
  deriving DecidableEq

/-- Any rate control with state `σ`. A delay is a signed duration, and asking
for it may change the state. -/
structure RateControl (σ : Type) where
  delay : σ → Int → Transmission → Int × σ
  notify : σ → Int → Transmission → σ

/-- A `TransmitRateControl` with state `σ` whose delays only decrease with
passing time. -/
structure TransmitRateControl (σ : Type) where
  delay : σ → Int → Transmission → Nat
  notify : σ → Int → Transmission → σ
  decreasing : ∀ (st : σ) {t t' : Int} (tx : Transmission), t ≤ t' →
    delay st t' tx ≤ delay st t tx

/-- Waiting shortens every delay by at least the time waited, so that a timer
set for a delay finds none left. -/
def TransmitRateControl.CountsDown {σ : Type} (rc : TransmitRateControl σ) : Prop :=
  ∀ (st : σ) {t t' : Int} (tx : Transmission), t ≤ t' →
    (rc.delay st t' tx : Int) ≤ max 0 (rc.delay st t tx - (t' - t))

def TransmitRateControl.toRateControl {σ : Type} (rc : TransmitRateControl σ) : RateControl σ where
  delay st t tx := (rc.delay st t tx, st)
  notify := rc.notify

instance {σ : Type} : Coe (TransmitRateControl σ) (RateControl σ) :=
  ⟨TransmitRateControl.toRateControl⟩

structure PendingTransmission where
  serial : Nat
  expiry : Int
  request : DataRequest
  packet : Packet
  deriving DecidableEq

def PendingTransmission.transmission (pending : PendingTransmission) : Transmission :=
  ⟨pending.request.dccProfile, pending.packet.length, true⟩

def PendingTransmission.category (pending : PendingTransmission) : AccessCategory :=
  mapProfileOntoAc pending.request.dccProfile

/-- A timer set by `schedule_trigger`. Beyond its deadline it carries what the
code does not store: the transmission it was set for, and how many packets had
been handed over at that time. -/
structure Trigger where
  deadline : Int
  scheduledFor : Transmission
  handedOver : Nat
  deriving DecidableEq

structure Handover extends PendingTransmission where
  time : Int
  category : AccessCategory
  fromQueue : Bool
  delay : Int
  deriving DecidableEq

structure Dropped where
  category : AccessCategory
  serial : Nat
  packet : Packet
  deriving DecidableEq

def PendingTransmission.dropped (ac : AccessCategory) (pending : PendingTransmission) : Dropped :=
  ⟨ac, pending.serial, pending.packet⟩

structure FlowControl (σ : Type) where
  now : Int
  trc : σ
  queues : AccessCategory → List PendingTransmission
  queueLength : Nat
  triggers : List Trigger
  /-- Every packet requested so far, as `enqueue` would take it. -/
  requested : List PendingTransmission
  transmitted : List Handover
  dropped : List Dropped
  discarded : List (AccessCategory × PendingTransmission)

namespace FlowControl

variable {σ : Type}

def initial (now : Int) (trc : σ) : FlowControl σ := ⟨now, trc, fun _ => [], 0, [], [], [], [], []⟩

def setQueue (s : FlowControl σ) (ac : AccessCategory)
  (queue : List PendingTransmission) : FlowControl σ :=
  { s with queues := fun ac' => if ac' = ac then queue else s.queues ac' }

def isExpired (s : FlowControl σ) (pending : PendingTransmission) : Bool := pending.expiry < s.now

def expired (s : FlowControl σ) : List (AccessCategory × PendingTransmission) :=
  AccessCategory.descending.flatMap fun ac =>
    ((s.queues ac).filter s.isExpired).map (Prod.mk ac)

def dropExpired (s : FlowControl σ) : FlowControl σ :=
  { s with
    queues := fun ac => (s.queues ac).filter fun pending => !s.isExpired pending
    dropped := s.dropped ++ s.expired.map fun gone => gone.2.dropped gone.1
    discarded := s.discarded ++ s.expired }

def isEmpty (s : FlowControl σ) : Bool :=
  AccessCategory.descending.all fun ac => (s.queues ac).isEmpty

section Operations

variable (rc : RateControl σ)

def scheduleTrigger (s : FlowControl σ) (tx : Transmission) : FlowControl σ :=
  let asked := rc.delay s.trc s.now tx
  { s with
    trc := asked.2
    triggers := s.triggers ++ [⟨s.now + asked.1, tx, s.transmitted.length⟩] }

def transmit (s : FlowControl σ) (tx : Transmission)
  (pending : PendingTransmission) (fromQueue : Bool) : FlowControl σ :=
  { s with
    trc := rc.notify s.trc s.now tx
    transmitted := s.transmitted ++
      [⟨pending, s.now, mapProfileOntoAc pending.request.dccProfile, fromQueue,
        (rc.delay s.trc s.now tx).1⟩] }

def contention (s : FlowControl σ) (ac : AccessCategory) : Bool :=
  AccessCategory.descending.any fun ac' =>
    ac'.priority ≥ ac.priority && !(s.queues ac').isEmpty

def transmitImmediately (s : FlowControl σ) (tx : Transmission) : Bool × σ :=
  if s.contention (mapProfileOntoAc tx.profile) then (false, s.trc)
  else
    let asked := rc.delay s.trc s.now tx
    (asked.1 == 0, asked.2)

def makeRoom (limit : Nat) : List PendingTransmission →
  List PendingTransmission × List PendingTransmission
  | [] => ([], [])
  | head :: rest =>
    if 0 < limit && limit ≤ (head :: rest).length then
      let room := makeRoom limit rest
      (room.1, head :: room.2)
    else (head :: rest, [])

def enqueue (s : FlowControl σ) (serial : Nat) (request : DataRequest)
  (packet : Packet) : FlowControl σ :=
  let firstPacket := s.isEmpty
  let ac := mapProfileOntoAc request.dccProfile
  let expiry := s.now + request.lifetime
  let pending : PendingTransmission := ⟨serial, expiry, request, packet⟩
  let room := makeRoom s.queueLength (s.queues ac)
  let s := { s.setQueue ac (room.1 ++ [pending]) with
    -- the hook is told about the packet that comes in, once for each that goes
    dropped := s.dropped ++ room.2.map fun _ => pending.dropped ac
    discarded := s.discarded ++ room.2.map (Prod.mk ac) }
  if firstPacket then s.scheduleTrigger rc pending.transmission else s

def pendingFor (s : FlowControl σ) (req : DataRequest) (packet : Packet) : PendingTransmission :=
  ⟨s.requested.length, s.now + req.lifetime, req, packet⟩

def request (s : FlowControl σ) (req : DataRequest) (packet : Packet) : FlowControl σ :=
  let s := s.dropExpired
  let tx : Transmission := ⟨req.dccProfile, packet.length, false⟩
  let immediately := s.transmitImmediately rc tx
  let pending := s.pendingFor req packet
  let s := { s with
    trc := immediately.2
    requested := s.requested ++ [pending] }
  if immediately.1 then s.transmit rc tx pending false
  else s.enqueue rc pending.serial req packet

def maxDuration : Int := 2 ^ 63 - 1

structure Choice (σ : Type) where
  next : Option AccessCategory
  minDelay : Int
  trc : σ

def pickQueue (s : FlowControl σ) (best : Choice σ) (ac : AccessCategory) : Choice σ :=
  match s.queues ac with
  | [] => best
  | head :: _ =>
    let asked := rc.delay best.trc s.now head.transmission
    if asked.1 < best.minDelay then ⟨some ac, asked.1, asked.2⟩
    else { best with trc := asked.2 }

def nextQueue (s : FlowControl σ) : Choice σ :=
  AccessCategory.descending.foldl (s.pickQueue rc) ⟨none, maxDuration, s.trc⟩

def nextTransmission (s : FlowControl σ) : Option PendingTransmission × FlowControl σ :=
  let choice := s.nextQueue rc
  (choice.next.bind fun ac => (s.queues ac).head?, { s with trc := choice.trc })

def dequeue (s : FlowControl σ) : Option PendingTransmission × FlowControl σ :=
  let choice := s.nextQueue rc
  let s := { s with trc := choice.trc }
  match choice.next with
  | none => (none, s)
  | some ac => ((s.queues ac).head?, s.setQueue ac (s.queues ac).tail)

def scheduleNext (s : FlowControl σ) : FlowControl σ :=
  let next := s.nextTransmission rc
  match next.1 with
  | none => next.2
  | some pending => next.2.scheduleTrigger rc pending.transmission

def trigger (s : FlowControl σ) : FlowControl σ :=
  let dequeued := s.dropExpired.dequeue rc
  let s := match dequeued.1 with
    | none => dequeued.2
    | some pending => dequeued.2.transmit rc pending.transmission pending true
  s.scheduleNext rc

def reschedule (s : FlowControl σ) : FlowControl σ :=
  let next := s.nextTransmission rc
  match next.1 with
  | none => next.2
  | some pending =>
    { next.2 with triggers := [] }.scheduleTrigger rc pending.transmission

/-- What can happen to a flow control. `fire i` lets the runtime fire the
timer in place `i`. -/
inductive Action where
  | advance (duration : Nat)
  | request (req : DataRequest) (packet : Packet)
  | fire (i : Nat)
  | reschedule
  | setQueueLength (length : Nat)
  deriving DecidableEq

def step (s : FlowControl σ) : Action → FlowControl σ
  | .advance duration => { s with now := s.now + duration }
  | .request req packet => s.request rc req packet
  | .fire i => match s.triggers[i]? with
    | some timer =>
      -- never before the deadline
      if timer.deadline ≤ s.now then
        { s with triggers := s.triggers.eraseIdx i }.trigger rc
      else s
    | none => s
  | .reschedule => s.reschedule rc
  | .setQueueLength length => { s with queueLength := length }

end Operations

section Countdown

variable (rc : TransmitRateControl σ)

def delayOf (s : FlowControl σ) (tx : Transmission) : Nat := rc.delay s.trc s.now tx

structure IsFront (s : FlowControl σ) (best : Choice σ) : Prop where
  trc : best.trc = s.trc
  front : ∀ ac, best.next = some ac → ∃ head, (s.queues ac).head? = some head ∧
      (s.delayOf rc head.transmission : Int) = best.minDelay

variable {rc}

theorem pickQueue_le (s : FlowControl σ) (best : Choice σ) (ac : AccessCategory) :
  (s.pickQueue rc best ac).minDelay ≤ best.minDelay := by
  unfold pickQueue
  split
  · exact le_rfl
  dsimp only
  split
  · next h => exact h.le
  · exact le_rfl

variable {s : FlowControl σ} {best : Choice σ} {ac : AccessCategory}
  {head : PendingTransmission} {tx : Transmission} {timer : Trigger}

theorem pickQueue_le_delay (h : (s.queues ac).head? = some head) (ht : best.trc = s.trc) :
  (s.pickQueue rc best ac).minDelay ≤ s.delayOf rc head.transmission := by
  obtain ⟨rest, hq⟩ := head?_eq_some_iff.mp h
  unfold pickQueue
  simp only [hq, ht]
  split
  · exact le_rfl
  · next hle => exact not_lt.mp hle

theorem IsFront.pickQueue (h : s.IsFront rc best) (ac : AccessCategory) :
  s.IsFront rc (s.pickQueue rc best ac) := by
  unfold FlowControl.pickQueue
  split
  · exact h
  next head rest hq =>
  dsimp only
  split
  · refine ⟨h.trc, fun ac' hac' => ?_⟩
    obtain rfl := Option.some.inj hac'
    refine ⟨head, by rw [hq, head?_cons], ?_⟩
    rw [h.trc]
    rfl
  · exact ⟨h.trc, h.front⟩

theorem foldl_pickQueue_le (s : FlowControl σ) (acs : List AccessCategory) (best : Choice σ) :
  (acs.foldl (s.pickQueue rc) best).minDelay ≤ best.minDelay := by
  induction acs generalizing best with
  | nil => exact le_rfl
  | cons ac acs ih => exact (ih _).trans (s.pickQueue_le best ac)

theorem IsFront.foldl_le_delay (hh : (s.queues ac).head? = some head)
  {acs : List AccessCategory} (hac : ac ∈ acs) (h : s.IsFront rc best) :
  (acs.foldl (s.pickQueue rc) best).minDelay ≤ s.delayOf rc head.transmission := by
  induction acs generalizing best with
  | nil => cases hac
  | cons ac' acs ih =>
    rcases mem_cons.mp hac with rfl | hac
    · exact (s.foldl_pickQueue_le acs _).trans (pickQueue_le_delay hh h.trc)
    · exact ih hac (h.pickQueue ac')

theorem IsFront.foldl (acs : List AccessCategory) (h : s.IsFront rc best) :
  s.IsFront rc (acs.foldl (s.pickQueue rc) best) := by
  induction acs generalizing best with
  | nil => exact h
  | cons ac acs ih => exact ih (h.pickQueue ac)

theorem isFront_none (s : FlowControl σ) : s.IsFront rc ⟨none, maxDuration, s.trc⟩ :=
  ⟨rfl, fun _ hac => absurd hac (Option.some_ne_none _).symm⟩

theorem nextQueue_trc (s : FlowControl σ) : (s.nextQueue rc).trc = s.trc :=
  (s.isFront_none.foldl AccessCategory.descending).trc

theorem nextQueue_least (h : (s.nextQueue rc).next = some ac) :
  ∃ head, (s.queues ac).head? = some head ∧ ∀ ac' he', (s.queues ac').head? = some he' →
      s.delayOf rc head.transmission ≤ s.delayOf rc he'.transmission := by
  have hfr : s.IsFront rc ⟨none, maxDuration, s.trc⟩ := s.isFront_none
  obtain ⟨head, hh, hd⟩ := (hfr.foldl AccessCategory.descending).front ac h
  refine ⟨head, hh, fun ac' he' hhead' => ?_⟩
  have hle := hfr.foldl_le_delay hhead' ac'.mem_descending
  omega

structure InTime (rc : TransmitRateControl σ) (s : FlowControl σ) : Prop where
  handovers : ∀ handover ∈ s.transmitted, handover.delay = 0
  past : ∀ timer ∈ s.triggers, timer.handedOver ≤ s.transmitted.length
  due : ∀ timer ∈ s.triggers, timer.handedOver = s.transmitted.length →
    (s.delayOf rc timer.scheduledFor : Int) ≤ max 0 (timer.deadline - s.now)

theorem InTime.delayOf_eq_zero (h : InTime rc s) (ht : timer ∈ s.triggers)
  (hfr : timer.handedOver = s.transmitted.length) (hdue : timer.deadline ≤ s.now) :
  s.delayOf rc timer.scheduledFor = 0 := by
  have := h.due timer ht hfr
  omega

theorem InTime.frame {s' : FlowControl σ} (h : InTime rc s)
  (hn : s'.now = s.now) (htrc : s'.trc = s.trc) (htr : s'.transmitted = s.transmitted)
  (htri : s'.triggers ⊆ s.triggers) : InTime rc s' where
  handovers := by simpa only [htr] using h.handovers
  past timer ht := by simpa only [htr] using h.past timer (htri ht)
  due timer ht := by simpa only [htr, delayOf, hn, htrc] using h.due timer (htri ht)

theorem InTime.initial (now : Int) (trc : σ) : InTime rc (FlowControl.initial now trc) :=
  ⟨by rintro _ ⟨⟩, by rintro _ ⟨⟩, by rintro _ ⟨⟩⟩

theorem InTime.dropExpired (h : InTime rc s) : InTime rc s.dropExpired :=
  h.frame rfl rfl rfl (List.Subset.refl _)

theorem InTime.dequeue (h : InTime rc s) : InTime rc (s.dequeue rc).2 := by
  unfold FlowControl.dequeue
  dsimp only
  split
  · exact h.frame rfl s.nextQueue_trc rfl (refl _)
  · exact h.frame rfl s.nextQueue_trc rfl (refl _)

theorem InTime.scheduleTrigger (h : InTime rc s) (tx : Transmission) :
  InTime rc (s.scheduleTrigger rc tx) where
  handovers := h.handovers
  past timer ht := by
    rcases mem_append.mp ht with ht | ht
    · exact h.past timer ht
    · obtain rfl := mem_singleton.mp ht
      exact le_rfl
  due timer ht hfr := by
    rcases mem_append.mp ht with ht | ht
    · exact h.due timer ht hfr
    · obtain rfl := mem_singleton.mp ht
      simp only [FlowControl.scheduleTrigger, delayOf, TransmitRateControl.toRateControl]
      omega

theorem InTime.transmit (h : InTime rc s) (htx : s.delayOf rc tx = 0)
  (pending : PendingTransmission) (fromQueue : Bool) :
  InTime rc (s.transmit rc tx pending fromQueue) where
  handovers handover hh := by
    rcases mem_append.mp hh with hh | hh
    · exact h.handovers handover hh
    · obtain rfl := mem_singleton.mp hh
      exact congrArg Nat.cast htx
  past timer ht := by
    have := h.past timer ht
    simp only [FlowControl.transmit, length_append]
    omega
  due timer ht hfr := by
    have := h.past timer ht
    simp only [FlowControl.transmit, length_append, length_singleton] at hfr
    omega

theorem InTime.advance (hcount : rc.CountsDown) (h : InTime rc s) (duration : Nat) :
    InTime rc { s with now := s.now + duration } where
  handovers := h.handovers
  past := h.past
  due timer ht hfr := by
    have hdue := h.due timer ht hfr
    have hc := hcount s.trc timer.scheduledFor (show s.now ≤ s.now + duration by omega)
    simp only [delayOf] at hdue ⊢
    omega

theorem InTime.nextTransmission (h : InTime rc s) : InTime rc (s.nextTransmission rc).2 :=
  h.frame rfl s.nextQueue_trc rfl (List.Subset.refl _)

theorem InTime.scheduleNext (h : InTime rc s) : InTime rc (s.scheduleNext rc) := by
  unfold FlowControl.scheduleNext
  dsimp only
  split
  · exact h.nextTransmission
  · exact h.nextTransmission.scheduleTrigger _

theorem InTime.reschedule (h : InTime rc s) : InTime rc (s.reschedule rc) := by
  unfold FlowControl.reschedule
  dsimp only
  split
  · exact h.nextTransmission
  · refine InTime.scheduleTrigger ?_ _
    exact h.nextTransmission.frame rfl rfl rfl (nil_subset _)

theorem InTime.enqueue (h : InTime rc s) (serial : Nat) (req : DataRequest) (pkt : Packet) :
  InTime rc (s.enqueue rc serial req pkt) := by
  unfold FlowControl.enqueue
  dsimp only
  split
  · refine InTime.scheduleTrigger ?_ _
    exact h.frame rfl rfl rfl (refl _)
  · exact h.frame rfl rfl rfl (refl _)

theorem transmitImmediately_trc (s : FlowControl σ) (tx : Transmission) :
  (s.transmitImmediately rc tx).2 = s.trc := by
  unfold transmitImmediately
  split <;> rfl

theorem delayOf_eq_zero_of_transmitImmediately (h : (s.transmitImmediately rc tx).1 = true) :
  s.delayOf rc tx = 0 := by
  unfold transmitImmediately at h
  split at h
  · exact absurd h Bool.false_ne_true
  · exact Int.natCast_eq_zero.mp (beq_iff_eq.mp h)

theorem InTime.request (h : InTime rc s) (req : DataRequest) (pkt : Packet) :
  InTime rc (s.request rc req pkt) := by
  have ha : (s.dropExpired.transmitImmediately rc
      ⟨req.dccProfile, pkt.length, false⟩).2 = s.dropExpired.trc :=
    transmitImmediately_trc _ _
  unfold FlowControl.request
  dsimp only
  split
  · next htx =>
    refine InTime.transmit ?_ ?_ _ _
    · exact h.dropExpired.frame rfl ha rfl (refl _)
    · have hz := delayOf_eq_zero_of_transmitImmediately htx
      rw [delayOf, ha]
      exact hz
  · refine InTime.enqueue ?_ _ req pkt
    exact h.dropExpired.frame rfl ha rfl (refl _)

def UpToDate (s : FlowControl σ) (timer : Trigger) : Prop :=
  timer.handedOver = s.transmitted.length ∧ ∃ ac head, (s.dropExpired.queues ac).head? = some head ∧
      head.transmission = timer.scheduledFor

def FiresUpToDate (s : FlowControl σ) : Action → Prop
  | .fire i => ∀ timer ∈ s.triggers[i]?, timer.deadline ≤ s.now →
      s.UpToDate timer ∨ ∀ ac, s.dropExpired.queues ac = []
  | _ => True

/-- What `trigger` takes off a queue, the rate control has no delay for. -/
def FrontsReady (rc : TransmitRateControl σ) (s : FlowControl σ) : Prop :=
  ∀ pending, (s.dropExpired.dequeue rc).1 = some pending → s.delayOf rc pending.transmission = 0

theorem frontsReady_of_upToDate (hz : s.delayOf rc timer.scheduledFor = 0)
  (hup : s.UpToDate timer) :
  FrontsReady rc s := by
  obtain ⟨-, ac, head, hh, htx⟩ := hup
  intro pending hp
  unfold dequeue at hp
  dsimp only at hp
  split at hp
  · cases hp
  next ac' hn =>
  obtain ⟨he', hh', hl⟩ := nextQueue_least hn
  obtain rfl : he' = pending := Option.some.inj (hh'.symm.trans hp)
  have hle := hl ac head hh
  rw [htx] at hle
  exact Nat.le_zero.mp (hle.trans_eq hz)

theorem frontsReady_of_empty (h : ∀ ac, s.dropExpired.queues ac = []) :
  FrontsReady rc s := by
  intro pending hp
  unfold dequeue at hp
  dsimp only at hp
  split at hp
  · cases hp
  · next ac _ =>
    rw [h ac] at hp
    cases hp

theorem delayOf_dequeue (s : FlowControl σ) (tx : Transmission) :
  (s.dropExpired.dequeue rc).2.delayOf rc tx = s.delayOf rc tx := by
  unfold dequeue
  dsimp only
  split
  · rw [delayOf, nextQueue_trc]
    rfl
  · rw [delayOf, setQueue, nextQueue_trc]
    rfl

theorem InTime.trigger (h : InTime rc s) (hr : FrontsReady rc s) :
  InTime rc (s.trigger rc) := by
  unfold FlowControl.trigger
  refine InTime.scheduleNext ?_
  split
  · exact h.dropExpired.dequeue
  next pending hp =>
  refine h.dropExpired.dequeue.transmit ?_ _ _
  rw [delayOf_dequeue]
  exact hr pending hp

theorem InTime.step {act : Action} (hcount : rc.CountsDown) (h : InTime rc s)
    (hf : s.FiresUpToDate act) : InTime rc (s.step rc act) := by
  cases act with
  | advance dur => exact h.advance hcount dur
  | request req pkt => exact h.request req pkt
  | reschedule => exact h.reschedule
  | setQueueLength length => exact h.frame rfl rfl rfl (refl _)
  | fire i =>
    rw [FlowControl.step]
    split
    · next timer ht =>
      split
      · next hdue =>
        -- the fired timer is gone before its callback runs
        refine InTime.trigger ?_ ?_
        · exact h.frame rfl rfl rfl eraseIdx_subset
        · rcases hf timer ht hdue with hup | hemp
          · exact frontsReady_of_upToDate (h.delayOf_eq_zero (mem_of_getElem? ht) hup.1 hdue) hup
          · exact frontsReady_of_empty hemp
      · exact h
    · exact h

/-- With delays that count down, and as long as no timer fires out of date,
whatever reaches the access layer reaches it at a time at which the rate control
has no delay for it. -/
theorem handovers_without_delay (rc : TransmitRateControl σ) (now : Int)
    (trc : σ) {actions : List Action} (hcount : rc.CountsDown)
    (hfires : RunMeets (step rc) FiresUpToDate (initial now trc) actions) :
    ∀ handover ∈ (run (step rc) (initial now trc) actions).transmitted, handover.delay = 0 := by
  have hstep : ∀ s act, InTime rc s → s.FiresUpToDate act → InTime rc (step rc s act) :=
    fun _ _ h hf => h.step hcount hf
  exact (Run.invariant hstep (InTime.initial now trc) hfires).handovers

end Countdown

def gapControl : TransmitRateControl Int where
  delay next t _ := (next - t).toNat
  notify _ t _ := t + 10
  decreasing next t t' tx h := by omega

theorem gapControl_countsDown : gapControl.CountsDown := by
  intro next t t' tx h
  show ((next - t').toNat : Int) ≤ max 0 ((next - t).toNat - (t' - t))
  omega

/-- A delay of ten time units up to time 15 and none from then on. -/
def lateControl : TransmitRateControl Unit where
  delay _ t _ := if t < 15 then 10 else 0
  notify _ _ _ := ()
  decreasing _ t t' tx h := by
    show (if t' < 15 then 10 else 0) ≤ if t < 15 then 10 else 0
    split_ifs <;> omega

def voiceRequest (lifetime : Int) : DataRequest := ⟨0, 1, 0x8947, .dp0, lifetime⟩

def twoPackets : List Action :=
  [.request (voiceRequest 50) [1], .request (voiceRequest 50) [2], .advance 10, .fire 0]

theorem queued_packet_waits_for_gap : (run (step gapControl) (initial 0 (0 : Int))
    twoPackets).transmitted.length = 2 ∧
  (run (step gapControl) (initial 0 (0 : Int)) twoPackets).transmitted.all
    (fun handover => handover.delay == 0) = true := by
  have hmt : RunMeets (step gapControl) FiresUpToDate (initial 0 (0 : Int)) twoPackets := by
    refine ⟨trivial, trivial, trivial, ?_, trivial⟩
    intro timer ht _
    obtain rfl : timer = ⟨10, ⟨.dp0, 1, true⟩, 1⟩ := (Option.some.inj (Option.mem_def.mp ht)).symm
    exact .inl ⟨rfl, .vo, ⟨1, 50, voiceRequest 50, [2]⟩, rfl, rfl⟩
  refine ⟨by decide +kernel, all_eq_true.mpr fun handover hmem => ?_⟩
  exact beq_iff_eq.mpr (handovers_without_delay gapControl 0 0 gapControl_countsDown hmt _ hmem)

/-- The second packet expires in its queue and leaves its timer behind. The
third, now first in an empty queue, gets a timer of its own for the same time;
when both fire, the fourth packet leaves together with the third, ten time units
too early. Without a countdown an up to date timer is enough: `trigger` does not
ask for the delay again. -/
theorem expired_packet_leaves_timer : (run (step gapControl) (initial 0 (0 : Int))
    [.request (voiceRequest 50) [1], .request (voiceRequest 1) [2],
      .advance 5, .request (voiceRequest 50) [3],
      .request (voiceRequest 50) [4], .advance 5, .fire 0,
      .fire 0]).transmitted.map (fun h => (h.packet, h.time, h.delay)) =
    [([1], 0, 0), ([3], 10, 0), ([4], 10, 10)] ∧
    RunMeets (step lateControl) FiresUpToDate (initial 0 ())
      [.request (voiceRequest 50) [1], .advance 10, .fire 0] ∧
    (run (step lateControl) (initial 0 ()) [.request (voiceRequest 50) [1], .advance 10,
      .fire 0]).transmitted.map (fun h => (h.packet, h.time, h.delay)) = [([1], 10, 10)] := by
  refine ⟨by decide +kernel, ⟨trivial, trivial, ?_, trivial⟩, by decide +kernel⟩
  intro timer ht _
  obtain rfl : timer = ⟨10, ⟨.dp0, 1, true⟩, 0⟩ := (Option.some.inj (Option.mem_def.mp ht)).symm
  exact .inl ⟨rfl, .vo, ⟨0, 50, voiceRequest 50, [1]⟩, rfl, rfl⟩

end FlowControl

end Vanetza.Dcc
