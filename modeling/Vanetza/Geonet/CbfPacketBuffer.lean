import Vanetza.Common.Runtime
import Vanetza.Geonet.PacketBuffer
import Vanetza.Geonet.SoftStateMap

/-!
# Contention-based forwarding buffer

`CbfPacketBuffer` keeps packets until a timer of their own expires. The packets stand in a list,
oldest first, and the timers in a bimap that is ordered by expiry on one side and indexed by packet
identifier on the other.
-/

namespace Vanetza.Geonet

open List

abbrev CbfPacketIdentifier := Address × SequenceNumber

/-- `CbfCounterContending` knows packets in the buffer only,
`CbfCounterFading` forgets after some time. -/
inductive CbfCounter where
  | contending (counters : List (CbfPacketIdentifier × Nat))
  | fading (counters : SoftStateMap CbfPacketIdentifier Nat)

namespace CbfCounter

def bump (id : CbfPacketIdentifier) :
  List (CbfPacketIdentifier × Nat) → List (CbfPacketIdentifier × Nat)
  | [] => [(id, 1)]
  | (id', count) :: rest =>
    if id' = id then (id, count + 1) :: rest else (id', count) :: bump id rest

def add (counter : CbfCounter) (now : Int) (id : CbfPacketIdentifier) : CbfCounter :=
  match counter with
  | .contending counters =>
    .contending ((id, 1) :: counters.filter fun entry => entry.1 ≠ id)
  | .fading counters =>
    .fading (((counters.refresh now 0 id).modify id (· + 1)).dropExpired now)

def remove (counter : CbfCounter) (id : CbfPacketIdentifier) : CbfCounter :=
  match counter with
  | .contending counters =>
    .contending (counters.filter fun entry => entry.1 ≠ id)
  | .fading counters => .fading counters

def increment (counter : CbfCounter) (now : Int) (id : CbfPacketIdentifier) : CbfCounter :=
  match counter with
  | .contending counters => .contending (bump id counters)
  | .fading counters => .fading ((counters.getValue now 0 id).modify id (· + 1))

def count (counter : CbfCounter) (now : Int) (id : CbfPacketIdentifier) : Nat :=
  match counter with
  | .contending counters => (counters.lookup id).getD 0
  | .fading counters => (counters.getValuePtr now id).getD 0

end CbfCounter

/-- `CbfPacket`: a geo-broadcast that waits for its broadcast, and the station
it was received from. -/
structure CbfPacket where
  packet : PendingPacket GeoBroadcastHeader GbcAction
  sender : MacAddress

namespace CbfPacket

def identifier (cbf : CbfPacket) : CbfPacketIdentifier :=
  (cbf.packet.pdu.extended.sourcePosition.gnAddr, cbf.packet.pdu.extended.sequenceNumber)

def length (codec : Codec) (cbf : CbfPacket) : UInt64 := .ofNat (cbf.packet.length codec)

end CbfPacket

/-- A `Timer`, the packet it is for, and the node of the bimap it is in. -/
structure CbfTimer where
  expiry : Int
  start : Int
  id : CbfPacketIdentifier
  node : Nat

structure CbfPacketBuffer where
  packets : List CbfPacket
  timers : List CbfTimer
  nextNode : Nat
  counter : CbfCounter
  capacityBytes : UInt64
  storedBytes : UInt64
  /-- Whether the first timer compares different from one that was erased, which
  is not specified. The argument is the number of timers made before. -/
  erasedDiffers : Nat → Bool

inductive Scope where
  | router
  | cbfBuffer
  | repeater
  deriving DecidableEq

namespace CbfPacketBuffer

variable (codec : Codec)

def create (counter : CbfCounter) (capacityBytes : UInt64) (erasedDiffers : Nat → Bool) :
    CbfPacketBuffer :=
  ⟨[], [], 0, counter, capacityBytes, 0, erasedDiffers⟩

def insertTimer (timer : CbfTimer) : List CbfTimer → List CbfTimer
  | [] => [timer]
  | other :: rest =>
    if timer.expiry < other.expiry then timer :: other :: rest
    else other :: insertTimer timer rest

/-- `schedule_timer`: ask for the callback of the timer that expires first. -/
def scheduleTimer (buffer : CbfPacketBuffer) (runtime : Runtime Scope) : Runtime Scope :=
  match buffer.timers with
  | [] => runtime
  | timer :: _ => (runtime.cancel .cbfBuffer).schedule timer.expiry .cbfBuffer

def find (buffer : CbfPacketBuffer) (id : CbfPacketIdentifier) : Option CbfPacket :=
  if buffer.timers.any fun timer => timer.id = id then
    buffer.packets.find? fun packet => packet.identifier = id
  else none

def remove (buffer : CbfPacketBuffer) (id : CbfPacketIdentifier)
  (runtime : Runtime Scope) : Bool × CbfPacketBuffer × Runtime Scope :=
  match buffer.find id with
  | none => (false, buffer, runtime)
  | some packet =>
    let removed := { buffer with
      storedBytes := buffer.storedBytes - packet.length codec
      counter := buffer.counter.remove id
      packets := buffer.packets.eraseP fun packet => packet.identifier = id
      timers := buffer.timers.filter fun timer => timer.id ≠ id }
    let wasFirst := buffer.timers.head?.any fun timer => timer.id = id
    (true, removed,
      if wasFirst then removed.scheduleTimer runtime else runtime)

/-- The loop of `add`: drop from the head until the octets fit. -/
def dropHeads : List CbfPacket → CbfPacketBuffer → CbfPacketBuffer
  | [], buffer => { buffer with packets := [] }
  | packet :: rest, buffer =>
    if buffer.capacityBytes < buffer.storedBytes then
      dropHeads rest { buffer with
        storedBytes := buffer.storedBytes - packet.length codec
        timers := buffer.timers.filter fun timer =>
          timer.id ≠ packet.identifier
        counter := buffer.counter.remove packet.identifier }
    else { buffer with packets := packet :: rest }

/-- `begin() != first_timer`, where `first_timer` is from before the head drop. If
the head drop has erased it, the node of the new timer may be in its place. -/
def firstChanged (buffer room added : CbfPacketBuffer) : Bool :=
  if buffer.timers.head?.any fun first => room.timers.all fun timer => timer.node ≠ first.node then
    buffer.erasedDiffers room.nextNode
  else added.timers.head?.map (·.node) ≠ buffer.timers.head?.map (·.node)

def add (buffer : CbfPacketBuffer) (packet : CbfPacket) (timeout : Int)
  (runtime : Runtime Scope) : CbfPacketBuffer × Runtime Scope :=
  if timeout ≤ 0 then (buffer, runtime)
  else
    let length := packet.length codec
    let id := packet.identifier
    let room := dropHeads codec buffer.packets
      { buffer with storedBytes := buffer.storedBytes + length }
    let added : CbfPacketBuffer :=
      if room.timers.any fun timer => timer.id = id then
        { room with storedBytes := room.storedBytes - length }
      else
        let timer := ⟨runtime.now + timeout, runtime.now, id, room.nextNode⟩
        { room with
          packets := room.packets ++ [packet]
          timers := insertTimer timer room.timers
          nextNode := room.nextNode + 1
          counter := room.counter.add runtime.now id }
    if buffer.firstChanged room added then (added, added.scheduleTimer runtime)
    else (added, runtime)

def update (buffer : CbfPacketBuffer) (id : CbfPacketIdentifier)
  (timeout : Int) (runtime : Runtime Scope) : CbfPacketBuffer :=
  match buffer.timers.find? fun timer => timer.id = id with
  | none => buffer
  | some timer => { buffer with
      packets := buffer.packets.map fun cbf =>
        if cbf.identifier = id then
          let queuingTime := runtime.now - timer.start
          { cbf with packet := (cbf.packet.reduceLifetime queuingTime).2 }
        else cbf
      timers := insertTimer { timer with expiry := runtime.now + timeout, start := runtime.now }
        (buffer.timers.filter fun timer => timer.id ≠ id)
      counter := buffer.counter.increment runtime.now id }

def fetch (buffer : CbfPacketBuffer) (id : CbfPacketIdentifier) (runtime : Runtime Scope) :
  Option CbfPacket × CbfPacketBuffer × Runtime Scope :=
  match buffer.timers.find? (fun timer => timer.id = id),
      buffer.packets.find? (fun cbf => cbf.identifier = id) with
  | some timer, some cbf =>
    let queuingTime := runtime.now - timer.start
    let (remaining, packet) := cbf.packet.reduceLifetime queuingTime
    let fetched := { cbf with packet }
    let removed := { buffer with
      storedBytes := buffer.storedBytes - fetched.length codec
      counter := buffer.counter.remove id
      packets := buffer.packets.eraseP fun cbf => cbf.identifier = id
      timers := buffer.timers.filter fun timer => timer.id ≠ id }
    let wasFirst := buffer.timers.head?.any fun timer => timer.id = id
    (if 0 < remaining then some fetched else none, removed,
      if wasFirst then removed.scheduleTimer runtime else runtime)
  | _, _ => (none, buffer, runtime)

/-- One round of the loop of `flush`: the packet of a timer leaves. It is handed
out if there is something left of its lifetime. -/
def expire (now : Int) (timer : CbfTimer) (buffer : CbfPacketBuffer) :
  Option (PendingPacket GeoBroadcastHeader GbcAction) × CbfPacketBuffer :=
  match buffer.packets.find? fun cbf => cbf.identifier = timer.id with
  | none => (none, buffer)
  | some cbf =>
    let (remaining, packet) := cbf.packet.reduceLifetime (now - timer.start)
    (if 0 < remaining then some packet else none,
      { buffer with
        storedBytes := buffer.storedBytes - CbfPacket.length codec { cbf with packet }
        counter := buffer.counter.remove timer.id
        packets := buffer.packets.eraseP fun cbf => cbf.identifier = timer.id
        timers := buffer.timers.filter fun other => other.id ≠ timer.id })

def expireAll (now : Int) : List CbfTimer → CbfPacketBuffer →
  List (PendingPacket GeoBroadcastHeader GbcAction) × CbfPacketBuffer
  | [], buffer => ([], buffer)
  | timer :: rest, buffer =>
    let (packet, buffer) := expire codec now timer buffer
    let (packets, buffer) := expireAll now rest buffer
    (packet.toList ++ packets, buffer)

def flush (buffer : CbfPacketBuffer) (runtime : Runtime Scope) :
  List (PendingPacket GeoBroadcastHeader GbcAction) × CbfPacketBuffer × Runtime Scope :=
  let expired := buffer.timers.takeWhile fun timer =>
    timer.expiry ≤ runtime.now
  let (packets, flushed) := expireAll codec runtime.now expired buffer
  (packets, flushed, flushed.scheduleTimer runtime)

variable {codec} {buffer : CbfPacketBuffer} {runtime : Runtime Scope}
  {packet : CbfPacket} {timeout : Int} {id : CbfPacketIdentifier}

theorem scheduleTimer_now : (buffer.scheduleTimer runtime).now = runtime.now := by
  unfold scheduleTimer
  split <;> rfl

variable {pending : PendingPacket GeoBroadcastHeader GbcAction}
  {timers : List CbfTimer} {now : Int} {timer : CbfTimer}

theorem mem_insertTimer {other : CbfTimer} :
  other ∈ insertTimer timer timers ↔ other = timer ∨ other ∈ timers := by
  induction timers with
  | nil => rw [insertTimer, mem_singleton, or_iff_left not_mem_nil]
  | cons first rest ih =>
    rw [insertTimer]
    split
    · exact mem_cons
    · rw [mem_cons, ih, mem_cons]
      exact or_left_comm

theorem dropHeads_spec (codec : Codec) (packets : List CbfPacket) (buffer : CbfPacketBuffer) :
  ∃ dropped, packets = dropped ++ (dropHeads codec packets buffer).packets ∧
    (dropHeads codec packets buffer).nextNode = buffer.nextNode ∧
    ∀ timer, timer ∈ (dropHeads codec packets buffer).timers ↔
      timer ∈ buffer.timers ∧ ∀ cbf ∈ dropped, cbf.identifier ≠ timer.id := by
  induction packets generalizing buffer with
  | nil => exact ⟨[], rfl, rfl, fun timer => by simp [dropHeads]⟩
  | cons packet rest ih =>
    rw [dropHeads]
    split
    · obtain ⟨dropped, hp, hn, ht⟩ := ih _
      refine ⟨packet :: dropped, congrArg (packet :: ·) hp, hn, ?_⟩
      intro timer
      rw [ht, mem_filter, forall_mem_cons, and_assoc, decide_eq_true_eq]
      exact and_congr_right fun _ => and_congr_left fun _ => ne_comm
    · exact ⟨[], rfl, rfl, fun timer => by simp⟩

structure Shortened (buffer room : CbfPacketBuffer) : Prop where
  suffix : ∃ dropped, buffer.packets = dropped ++ room.packets ∧ ∀ timer, timer ∈ room.timers ↔
      timer ∈ buffer.timers ∧ ∀ cbf ∈ dropped, cbf.identifier ≠ timer.id
  nextNode : room.nextNode = buffer.nextNode

theorem add_cases (codec : Codec) (buffer : CbfPacketBuffer)
  (packet : CbfPacket) (timeout : Int) (runtime : Runtime Scope) :
  let added := (buffer.add codec packet timeout runtime).1
  ∃ room, buffer.Shortened room ∧ (added.packets = room.packets ∧ added.timers = room.timers ∧
        added.nextNode = room.nextNode ∨ (∀ timer ∈ room.timers, timer.id ≠ packet.identifier) ∧
        added.packets = room.packets ++ [packet] ∧
        added.timers = insertTimer ⟨runtime.now + timeout, runtime.now,
          packet.identifier, room.nextNode⟩ room.timers ∧ added.nextNode = room.nextNode + 1) := by
  by_cases htmo : timeout ≤ 0
  · refine ⟨buffer, ⟨⟨[], rfl, by simp⟩, rfl⟩, .inl ?_⟩
    rw [add, if_pos htmo]
    exact ⟨rfl, rfl, rfl⟩
  obtain ⟨dropped, hp, hn, ht⟩ := dropHeads_spec codec buffer.packets
    { buffer with storedBytes := buffer.storedBytes + packet.length codec }
  refine ⟨_, ⟨⟨dropped, hp, ht⟩, hn⟩, ?_⟩
  unfold add
  rw [if_neg htmo]
  dsimp only
  rw [apply_ite Prod.fst, ite_self]
  split
  · exact .inl ⟨rfl, rfl, rfl⟩
  next ha =>
  refine .inr ⟨?_, rfl, rfl, rfl⟩
  intro timer hm hid
  exact ha (any_eq_true.2 ⟨timer, hm, decide_eq_true hid⟩)

theorem add_now : (buffer.add codec packet timeout runtime).2.now = runtime.now := by
  unfold add
  simp only [apply_ite Prod.snd, apply_ite Runtime.now, scheduleTimer_now, ite_self]

def Without (id : CbfPacketIdentifier) (buffer rest : CbfPacketBuffer) : Prop :=
  rest.packets = buffer.packets ∧ rest.timers = buffer.timers ∨
    rest.packets = (buffer.packets.eraseP fun cbf => cbf.identifier = id) ∧
      rest.timers = buffer.timers.filter fun timer => timer.id ≠ id

theorem remove_without (codec : Codec) (buffer : CbfPacketBuffer)
  (id : CbfPacketIdentifier) (runtime : Runtime Scope) :
  buffer.Without id (buffer.remove codec id runtime).2.1 := by
  unfold remove
  split
  · exact .inl ⟨rfl, rfl⟩
  · exact .inr ⟨rfl, rfl⟩

theorem remove_now : (buffer.remove codec id runtime).2.2.now = runtime.now := by
  unfold remove
  split
  · rfl
  dsimp only
  split
  · exact scheduleTimer_now
  · rfl

theorem expire_without (codec : Codec) (now : Int) (timer : CbfTimer) (buffer : CbfPacketBuffer) :
  buffer.Without timer.id (expire codec now timer buffer).2 := by
  unfold expire
  split
  · exact .inl ⟨rfl, rfl⟩
  · exact .inr ⟨rfl, rfl⟩

theorem Without.subset {rest : CbfPacketBuffer} (h : buffer.Without id rest) :
  rest.packets ⊆ buffer.packets := by
  rcases h with ⟨h, -⟩ | ⟨h, -⟩ <;> rw [h]
  · exact List.Subset.refl _
  · exact eraseP_subset

theorem mem_expire (h : pending ∈ (expire codec now timer buffer).1) :
  ∃ cbf ∈ buffer.packets, cbf.identifier = timer.id ∧
    0 < (cbf.packet.reduceLifetime (now - timer.start)).1 ∧
    pending = (cbf.packet.reduceLifetime (now - timer.start)).2 := by
  unfold expire at h
  split at h
  · cases h
  next cbf hf =>
  dsimp only at h
  split at h
  · next hr =>
    cases h
    exact ⟨cbf, mem_of_find?_eq_some hf, of_decide_eq_true (find?_some hf :), hr, rfl⟩
  · cases h

theorem mem_expireAll (h : pending ∈ (expireAll codec now timers buffer).1) :
  ∃ timer ∈ timers, ∃ cbf ∈ buffer.packets, cbf.identifier = timer.id ∧
    0 < (cbf.packet.reduceLifetime (now - timer.start)).1 ∧
    pending = (cbf.packet.reduceLifetime (now - timer.start)).2 := by
  induction timers generalizing buffer with
  | nil => cases h
  | cons timer rest ih =>
    rcases mem_append.1 h with h | h
    · exact ⟨timer, mem_cons_self, mem_expire (Option.mem_toList.1 h)⟩
    · obtain ⟨other, ho, cbf, hm, hc⟩ := ih h
      exact ⟨other, mem_cons_of_mem timer ho, cbf,
        (expire_without codec now timer buffer).subset hm, hc⟩

section Others

variable {scope : Scope} (h : scope ≠ .cbfBuffer)

include h in
theorem pending_scheduleTimer :
  (buffer.scheduleTimer runtime).pending scope = runtime.pending scope := by
  unfold scheduleTimer
  split
  · rfl
  · rw [Runtime.pending_schedule_of_ne h.symm, Runtime.pending_cancel_of_ne h.symm]

include h in
theorem pending_add : (buffer.add codec packet timeout runtime).2.pending scope =
  runtime.pending scope := by
  unfold add
  simp only [apply_ite Prod.snd, apply_ite (Runtime.pending scope),
    pending_scheduleTimer h, ite_self]

include h in
theorem pending_remove : (buffer.remove codec id runtime).2.2.pending scope =
  runtime.pending scope := by
  unfold remove
  split
  · rfl
  dsimp only
  split
  · exact pending_scheduleTimer h
  · rfl

end Others

end CbfPacketBuffer

/-- `GbcMemory`: the identifiers last remembered, oldest first. The capacity is
never zero. -/
structure GbcMemory where
  capacity : Nat
  identifiers : List CbfPacketIdentifier

namespace GbcMemory

def remember (memory : GbcMemory) (id : CbfPacketIdentifier) : Bool × GbcMemory :=
  if id ∈ memory.identifiers then
    (true, ⟨memory.capacity, memory.identifiers.erase id ++ [id]⟩)
  else
    -- make space for one identifier
    let excess := memory.identifiers.length + 1 - memory.capacity
    (false, ⟨memory.capacity, memory.identifiers.drop excess ++ [id]⟩)

end GbcMemory

end Vanetza.Geonet
