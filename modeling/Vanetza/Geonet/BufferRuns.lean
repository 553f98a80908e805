import Vanetza.Geonet.CbfPacketBuffer
import Vanetza.Geonet.LifetimeReduction
import Vanetza.Lib.Run

/-!
# From buffer to buffer

A packet may be stored, flushed, stored again, or wait for contention, where its
timer may be started over. Each time it is taken out its lifetime is reduced by
the time since it was put in.
-/

namespace Vanetza.Geonet

open Lib List CbfPacketBuffer PendingPacket

structure Passage where
  lifetime : Lifetime
  first : Int
  waits : List Int
  deriving DecidableEq

namespace Passage

def waited (passage : Passage) (wait : Int) : Passage :=
  { passage with waits := passage.waits ++ [wait] }

def time (passage : Passage) : Int := passage.first + passage.waits.sum

def current (passage : Passage) : Lifetime := passage.lifetime.after passage.waits

structure Tells (passage : Passage) (lifetime : Lifetime) (time : Int) : Prop where
  current : passage.current = lifetime
  time : passage.time = time

def Alive (passage : Passage) : Prop := passage.lifetime.Survives passage.waits

variable {passage : Passage} {lifetime : Lifetime} {now start wait : Int}

theorem Tells.waited (h : passage.Tells lifetime start) (wait : Int) :
  (passage.waited wait).Tells (lifetime.reduce wait).2 (start + wait) where
  current := by
    rw [← h.current]
    exact passage.lifetime.after_concat passage.waits wait
  time := by
    rw [← h.time]
    show passage.first + (passage.waits ++ [wait]).sum = _
    rw [sum_append, sum_singleton, ← Int.add_assoc]
    rfl

theorem Alive.waited (h : passage.Alive) (ht : passage.Tells lifetime start)
  (h0 : 0 ≤ wait) (hle : wait ≤ lifetime.micros) :
  (passage.waited wait).Alive := by
  rw [← ht.current] at hle
  exact Lifetime.survives_concat.2 ⟨h, h0, hle⟩

theorem tells_new : (⟨lifetime, now, []⟩ : Passage).Tells lifetime now where
  current := rfl
  time := by rw [time, List.sum_nil, Int.add_zero]

theorem alive_new : (⟨lifetime, now, []⟩ : Passage).Alive := by
  rw [Alive, Lifetime.Survives]
  trivial

end Passage

def BufferedPacket.lifetime : BufferedPacket → Lifetime
  | .shb packet => packet.pdu.basic.lifetime
  | .tsb packet => packet.pdu.basic.lifetime
  | .gbc packet => packet.pdu.basic.lifetime

theorem BufferedPacket.reduceLifetime_fst (codec : Codec) (dur : Int) (pkt : BufferedPacket) :
  ((data codec).reduceLifetime dur pkt).1 = (pkt.lifetime.reduce dur).1 := by
  cases pkt <;> simp only [data, Prod.map, reduceLifetime_eq, lifetime, id]

theorem BufferedPacket.reduceLifetime_snd (codec : Codec) (dur : Int) (pkt : BufferedPacket) :
  ((data codec).reduceLifetime dur pkt).2.lifetime =
    (pkt.lifetime.reduce dur).2 := by
  cases pkt <;> simp only [data, Prod.map, reduceLifetime_eq, lifetime, withLifetime]

def BufferData.tracked {D : Type} (ops : BufferData D) : BufferData (D × Passage) where
  length entry := ops.length entry.1
  reduceLifetime duration entry :=
    let (remaining, data) := ops.reduceLifetime duration entry.1
    (remaining, data, entry.2.waited duration)

abbrev TrackedPacket := BufferedPacket × Passage

structure Buffers where
  forward : PacketBuffer TrackedPacket
  cbf : CbfPacketBuffer
  passages : CbfPacketIdentifier → Passage
  runtime : Runtime Scope
  hand : List TrackedPacket
  sent : List (Int × TrackedPacket)

inductive Handling where
  | push (packet : BufferedPacket)
  | contend (packet : CbfPacket) (timeout : Int)
  | duplicate
  | transmit
  | discard

inductive BufferAction where
  | elapse (duration : Nat)
  | arrive (packet : BufferedPacket)
  | flush
  | expire
  | update (id : CbfPacketIdentifier) (timeout : Int)
  | remove (id : CbfPacketIdentifier)
  | handle (handling : Handling)

namespace Buffers

def create (capacity cbfCapacity : UInt64) (counter : CbfCounter) (erasedDiffers : Nat → Bool)
    (runtime : Runtime Scope) : Buffers where
  forward := .create capacity
  cbf := .create counter cbfCapacity erasedDiffers
  passages _ := ⟨.zero, 0, []⟩
  runtime
  hand := []
  sent := []

def waited (s : Buffers) (id : CbfPacketIdentifier) : Passage :=
  (s.passages id).waited (s.runtime.now - (s.passages id).time)

def restart (s : Buffers) (id : CbfPacketIdentifier) : CbfPacketIdentifier → Passage :=
  Function.update s.passages id (s.waited id)

def handle (codec : Codec) (s : Buffers) (first : TrackedPacket)
  (rest : List TrackedPacket) : Handling → Buffers
  | .push packet =>
    if packet.lifetime = first.1.lifetime then
      { s with
        hand := rest
        forward := (s.forward.push (BufferedPacket.data codec).tracked
          (packet, first.2) s.runtime.now).2 }
    else s
  | .contend packet timeout =>
    if packet.packet.pdu.basic.lifetime = first.1.lifetime then
      let (cbf, runtime) := s.cbf.add codec packet timeout s.runtime
      { s with
        hand := rest
        cbf
        runtime
        passages := if cbf.nextNode = s.cbf.nextNode then s.passages
          else Function.update s.passages packet.identifier first.2 }
    else s
  | .duplicate => { s with hand := first :: first :: rest }
  | .transmit =>
    { s with hand := rest, sent := s.sent ++ [(s.runtime.now, first)] }
  | .discard => { s with hand := rest }

def step (codec : Codec) (s : Buffers) : BufferAction → Buffers
  | .elapse duration =>
    if s.hand.isEmpty then
      { s with runtime :=
          { s.runtime with now := s.runtime.now + duration } }
    else s
  | .arrive packet => { s with hand := s.hand ++ [(packet, ⟨packet.lifetime, s.runtime.now, []⟩)] }
  | .flush =>
    let (flushed, forward) := s.forward.flush (BufferedPacket.data codec).tracked s.runtime.now
    { s with hand := s.hand ++ flushed, forward }
  | .expire =>
    let (packets, cbf, runtime) := s.cbf.flush codec s.runtime
    { s with
      hand := s.hand ++ packets.map fun packet =>
        (.gbc packet, s.waited (packet.pdu.extended.sourcePosition.gnAddr,
          packet.pdu.extended.sequenceNumber))
      cbf
      runtime }
  | .update id timeout => { s with
      cbf := s.cbf.update id timeout s.runtime
      passages := s.restart id }
  | .remove id =>
    let (_, cbf, runtime) := s.cbf.remove codec id s.runtime
    { s with cbf, runtime }
  | .handle handling =>
    match s.hand with
    | [] => s
    | first :: rest => s.handle codec first rest handling

def Fresh (now : Int) (entry : TrackedPacket) : Prop :=
  entry.2.Tells entry.1.lifetime now ∧ entry.2.Alive

structure Stored (now : Int) (node : BufferNode TrackedPacket) : Prop where
  fresh : Fresh node.bufferedSince node.data
  expiry : node.expiresAt = node.bufferedSince + node.data.1.lifetime.micros
  since : node.bufferedSince ≤ now

structure Contending (now : Int) (passage : Passage) (timer : CbfTimer)
  (cbf : CbfPacket) : Prop where
  tells : passage.Tells cbf.packet.pdu.basic.lifetime timer.start
  alive : passage.Alive ∨ cbf.packet.pdu.basic.lifetime.micros = 0
  start : timer.start ≤ now

structure Contention (now : Int) (passages : CbfPacketIdentifier → Passage)
  (packets : List CbfPacket) (timers : List CbfTimer) : Prop where
  nodup : (packets.map CbfPacket.identifier).Nodup
  timed : ∀ cbf ∈ packets, ∃ timer ∈ timers, timer.id = cbf.identifier
  contending : ∀ timer ∈ timers, ∀ cbf ∈ packets, cbf.identifier = timer.id →
    Contending now (passages timer.id) timer cbf

structure Recorded (s : Buffers) : Prop where
  hand : ∀ entry ∈ s.hand, Fresh s.runtime.now entry
  stored : ∀ node ∈ s.forward.nodes, Stored s.runtime.now node
  contention : Contention s.runtime.now s.passages s.cbf.packets s.cbf.timers
  sent : ∀ entry ∈ s.sent, Fresh entry.1 entry.2

variable {passage : Passage}

section Steps

variable {now later : Int} {passages : CbfPacketIdentifier → Passage}
  {packets : List CbfPacket} {timers : List CbfTimer}

variable {buffer : CbfPacketBuffer} {id : CbfPacketIdentifier}
  {node : BufferNode TrackedPacket} {timer : CbfTimer} {cbf : CbfPacket} {expiry : Int}

theorem Stored.mono (h : Stored now node) (hle : now ≤ later) : Stored later node :=
  ⟨h.fresh, h.expiry, h.since.trans hle⟩

theorem Contention.mono (h : Contention now passages packets timers)
  (hle : now ≤ later) : Contention later passages packets timers where
  nodup := h.nodup
  timed := h.timed
  contending timer ht cbf hc hid :=
    let ⟨htel, hal, hst⟩ := h.contending timer ht cbf hc hid
    ⟨htel, hal, hst.trans hle⟩

theorem stored_push {codec : Codec} {pkt : BufferedPacket} (h : Fresh now (pkt, passage)) :
  Stored now ⟨now, now + ((BufferedPacket.data codec).tracked.reduceLifetime 0
    (pkt, passage)).1, (pkt, passage)⟩ where
  fresh := h
  expiry := by
    show _ = now + pkt.lifetime.micros
    rw [BufferData.tracked]
    dsimp only
    rw [BufferedPacket.reduceLifetime_fst]
    rfl
  since := le_refl now

theorem fresh_flush {codec : Codec} (h : Stored now node) (hexp : now ≤ node.expiresAt) :
  Fresh now ((BufferedPacket.data codec).tracked.reduceLifetime
    (now - node.bufferedSince) node.data).2 := by
  obtain ⟨⟨htel, hal⟩, hex, hs⟩ := h
  have hw := htel.waited (now - node.bufferedSince)
  have ht : node.bufferedSince + (now - node.bufferedSince) = now := by omega
  rw [← BufferedPacket.reduceLifetime_snd codec, ht] at hw
  exact ⟨hw, hal.waited htel (by omega) (by omega)⟩

theorem Contention.shortened {room : CbfPacketBuffer}
  (h : Contention now passages buffer.packets buffer.timers) (hr : buffer.Shortened room) :
  Contention now passages room.packets room.timers := by
  obtain ⟨⟨dropped, hp, ht⟩, -⟩ := hr
  obtain ⟨hn, htim, hc⟩ := h
  rw [hp] at hn htim hc
  rw [map_append, nodup_append] at hn
  refine ⟨hn.2.1, ?_, ?_⟩
  · intro cbf hm
    obtain ⟨timer, htmr, hid⟩ := htim cbf (mem_append_right _ hm)
    refine ⟨timer, (ht timer).2 ⟨htmr, ?_⟩, hid⟩
    intro other ho
    rw [hid]
    exact hn.2.2 _ (mem_map_of_mem ho) _ (mem_map_of_mem hm)
  · intro timer htmr cbf hm
    exact hc timer ((ht timer).1 htmr).1 cbf (mem_append_right _ hm)

theorem ne_of_mem_eraseP (h : (packets.map CbfPacket.identifier).Nodup)
  (hm : cbf ∈ packets.eraseP fun cbf => cbf.identifier = id) :
  cbf.identifier ≠ id := by
  induction packets with
  | nil => cases hm
  | cons pkt rest ih =>
    rw [map_cons, nodup_cons] at h
    by_cases hid : pkt.identifier = id
    · rw [eraseP_cons_of_pos (by simpa using hid)] at hm
      intro heq
      rw [← hid] at heq
      exact h.1 (heq ▸ mem_map_of_mem hm)
    rw [eraseP_cons_of_neg (by simpa using hid)] at hm
    cases hm with
    | head => exact hid
    | tail _ hm => exact ih h.2 hm

theorem Contention.without {rest : CbfPacketBuffer}
  (h : Contention now passages buffer.packets buffer.timers) (hr : buffer.Without id rest) :
  Contention now passages rest.packets rest.timers := by
  rcases hr with ⟨hp, ht⟩ | ⟨hp, ht⟩ <;>
    rw [hp, ht]
  · exact h
  · have hs : (buffer.packets.eraseP fun cbf => cbf.identifier = id).Sublist
        buffer.packets := eraseP_sublist
    refine ⟨h.nodup.sublist (hs.map _), ?_, ?_⟩
    · intro cbf hm
      obtain ⟨timer, htmr, hid⟩ := h.timed cbf (hs.subset hm)
      refine ⟨timer, mem_filter.2 ⟨htmr, decide_eq_true ?_⟩, hid⟩
      rw [hid]
      exact ne_of_mem_eraseP h.nodup hm
    · intro timer htmr cbf hm
      exact h.contending timer (mem_of_mem_filter htmr) cbf (hs.subset hm)

theorem Contention.concat {pkt : CbfPacket} {node : Nat}
  (h : Contention now passages packets timers)
  (htel : passage.Tells pkt.packet.pdu.basic.lifetime now) (hal : passage.Alive)
  (hn : ∀ timer ∈ timers, timer.id ≠ pkt.identifier) :
  Contention now (Function.update passages pkt.identifier passage)
    (packets ++ [pkt]) (CbfPacketBuffer.insertTimer
      ⟨expiry, now, pkt.identifier, node⟩ timers) := by
  have ho : ∀ cbf ∈ packets, cbf.identifier ≠ pkt.identifier := by
    intro cbf hm hid
    obtain ⟨timer, ht, hid'⟩ := h.timed cbf hm
    exact hn timer ht (hid'.trans hid)
  refine ⟨?_, ?_, ?_⟩
  · rw [map_append, nodup_append]
    refine ⟨h.nodup, nodup_singleton _, ?_⟩
    intro id hid id' hid'
    obtain ⟨cbf, hm, rfl⟩ := mem_map.1 hid
    rw [mem_singleton.1 hid']
    exact ho cbf hm
  · intro cbf hm
    rcases mem_append.1 hm with hm | hm
    · obtain ⟨timer, ht, hid⟩ := h.timed cbf hm
      exact ⟨timer, mem_insertTimer.2 (.inr ht), hid⟩
    · rw [mem_singleton.1 hm]
      exact ⟨_, mem_insertTimer.2 (.inl rfl), rfl⟩
  · intro timer ht cbf hm hid
    rcases mem_insertTimer.1 ht with rfl | ht
    · rcases mem_append.1 hm with hm | hm
      · exact absurd hid (ho cbf hm)
      · rw [mem_singleton.1 hm, Function.update_self]
        exact ⟨htel, .inl hal, le_refl now⟩
    rw [Function.update_of_ne (hn timer ht)]
    rcases mem_append.1 hm with hm | hm
    · exact h.contending timer ht cbf hm hid
    · rw [mem_singleton.1 hm] at hid
      exact absurd hid.symm (hn timer ht)

theorem Contending.waited (h : Contending now passage timer cbf) :
  (passage.waited (now - passage.time)).Tells
      (cbf.packet.pdu.basic.lifetime.reduce (now - timer.start)).2 now ∧
    ((passage.waited (now - passage.time)).Alive ∨ (cbf.packet.pdu.basic.lifetime.reduce
        (now - timer.start)).2.micros = 0) := by
  obtain ⟨htel, hal, hst⟩ := h
  have hw := htel.waited (now - timer.start)
  have ht : timer.start + (now - timer.start) = now := by omega
  rw [ht] at hw
  rw [htel.time]
  refine ⟨hw, ?_⟩
  by_cases hover : cbf.packet.pdu.basic.lifetime.micros ≤ now - timer.start
  · exact .inr (Lifetime.micros_reduce_of_le (by omega) hover)
  · rcases hal with hal | hz
    · exact .inl (hal.waited htel (by omega) (by omega))
    · omega

def reduced (wait : Int) (cbf : CbfPacket) : CbfPacket :=
  { cbf with packet := (cbf.packet.reduceLifetime wait).2 }

theorem identifier_reduced (wait : Int) (cbf : CbfPacket) :
  (reduced wait cbf).identifier = cbf.identifier := by
  rw [CbfPacket.identifier, reduced, reduceLifetime_eq]
  rfl

theorem lifetime_reduced (wait : Int) (cbf : CbfPacket) :
  (reduced wait cbf).packet.pdu.basic.lifetime = (cbf.packet.pdu.basic.lifetime.reduce wait).2 := by
  rw [reduced, reduceLifetime_eq]
  rfl

theorem Contention.restart (h : Contention now passages packets timers)
  (htmr : timer ∈ timers) (hid : timer.id = id) :
  Contention now (Function.update passages id ((passages id).waited (now - (passages id).time)))
    (packets.map fun cbf =>
      if cbf.identifier = id then reduced (now - timer.start) cbf else cbf)
    (CbfPacketBuffer.insertTimer { timer with expiry, start := now }
      (timers.filter fun timer => timer.id ≠ id)) := by
  have hs : ∀ cbf : CbfPacket, (if cbf.identifier = id then
      reduced (now - timer.start) cbf else cbf).identifier =
      cbf.identifier := by
    intro cbf
    split
    · exact identifier_reduced _ cbf
    · rfl
  refine ⟨?_, ?_, ?_⟩
  · rw [map_map]
    have hmap : CbfPacket.identifier ∘ (fun cbf : CbfPacket =>
        if cbf.identifier = id then reduced (now - timer.start) cbf else cbf) =
        CbfPacket.identifier := funext hs
    rw [hmap]
    exact h.nodup
  · intro cbf hm
    obtain ⟨cbf, hcbf, rfl⟩ := mem_map.1 hm
    rw [hs]
    by_cases hc : cbf.identifier = id
    · exact ⟨_, mem_insertTimer.2 (.inl rfl), hid.trans hc.symm⟩
    obtain ⟨other, hoth, ho⟩ := h.timed cbf hcbf
    refine ⟨other, mem_insertTimer.2 (.inr ?_), ho⟩
    refine mem_filter.2 ⟨hoth, decide_eq_true ?_⟩
    rw [ho]
    exact hc
  · intro other hoth cbf hm
    obtain ⟨cbf, hcbf, rfl⟩ := mem_map.1 hm
    rw [hs]
    intro hc
    rcases mem_insertTimer.1 hoth with rfl | hoth
    · have hc' : cbf.identifier = id := hc.trans hid
      have hb := h.contending timer htmr cbf hcbf hc
      rw [hid] at hb
      obtain ⟨ht, hal⟩ := hb.waited
      rw [if_pos hc']
      show Contending now (Function.update passages id _ timer.id) _ _
      rw [hid, Function.update_self]
      rw [← lifetime_reduced] at ht hal
      exact ⟨ht, hal, le_refl now⟩
    · obtain ⟨hoth, hne⟩ := mem_filter.1 hoth
      have hne' : other.id ≠ id := of_decide_eq_true hne
      have hcb : cbf.identifier ≠ id := hc ▸ hne'
      rw [if_neg hcb, Function.update_of_ne hne']
      exact h.contending other hoth cbf hcbf hc

theorem Contention.expireAll {codec : Codec}
  (h : Contention now passages buffer.packets buffer.timers) (expired : List CbfTimer) :
  Contention now passages (CbfPacketBuffer.expireAll codec now expired buffer).2.packets
    (CbfPacketBuffer.expireAll codec now expired buffer).2.timers := by
  induction expired generalizing buffer with
  | nil => exact h
  | cons timer rest ih => exact ih (h.without (expire_without codec now timer buffer))

variable {codec : Codec} {s : Buffers} {action : BufferAction}

theorem Recorded.fresh_expire (h : s.Recorded)
  {pending : PendingPacket GeoBroadcastHeader GbcAction}
  (hm : pending ∈ (s.cbf.flush codec s.runtime).1) :
  Fresh s.runtime.now (.gbc pending, s.waited (pending.pdu.extended.sourcePosition.gnAddr,
      pending.pdu.extended.sequenceNumber)) := by
  obtain ⟨timer, htmr, cbf, hcbf, hid, hr, rfl⟩ := mem_expireAll hm
  have ht' := (takeWhile_sublist _).subset htmr
  have hc := h.contention.contending timer ht' cbf hcbf hid
  obtain ⟨ht, hal⟩ := hc.waited
  rw [reduceLifetime_eq] at hr ⊢
  have hst := hc.start
  have hlt := Lifetime.lt_of_reduce_pos (by omega) hr
  have hw : s.waited cbf.identifier = (s.passages timer.id).waited
      (s.runtime.now - (s.passages timer.id).time) := by
    rw [hid, waited]
  show Fresh s.runtime.now (_, s.waited cbf.identifier)
  rw [hw]
  refine ⟨ht, ?_⟩
  rcases hc.alive with hb | hz
  · rw [hc.tells.time]
    exact hb.waited hc.tells (by omega) (by omega)
  · omega

theorem Recorded.handle {first : TrackedPacket} {rest : List TrackedPacket}
  {handling : Handling} (h : s.Recorded) (hh : s.hand = first :: rest) :
  (s.handle codec first rest handling).Recorded := by
  obtain ⟨hfr, hr⟩ := forall_mem_cons.1 (hh ▸ h.hand)
  cases handling with
  | push pkt =>
    rw [Buffers.handle]
    split
    · next hl =>
      have hpkt : Fresh s.runtime.now (pkt, first.2) := by
        rw [Fresh, hl]
        exact hfr
      refine ⟨hr, ?_, h.contention, h.sent⟩
      intro node hn
      rcases PacketBuffer.mem_push hn with hn | rfl
      · exact h.stored node hn
      · exact stored_push hpkt
    · exact h
  | contend pkt tmo =>
    rw [Buffers.handle]
    split
    · next hl =>
      obtain ⟨room, hro, ha⟩ := add_cases codec s.cbf pkt tmo s.runtime
      have hb := h.contention.shortened hro
      have hnow := @CbfPacketBuffer.add_now codec s.cbf s.runtime pkt tmo
      refine ⟨?_, ?_, ?_, h.sent⟩
      · intro entry hent
        exact hnow ▸ hr entry hent
      · intro node hn
        exact hnow ▸ h.stored node hn
      dsimp only
      rw [hnow]
      rcases ha with ⟨hp, ht, hn⟩ | ⟨hnew, hp, ht, hn⟩
      · rw [if_pos (hn.trans hro.nextNode), hp, ht]
        exact hb
      · rw [if_neg (by rw [hn, hro.nextNode]; omega), hp, ht]
        exact hb.concat (hl ▸ hfr.1) hfr.2 hnew
    · exact h
  | duplicate =>
    refine ⟨?_, h.stored, h.contention, h.sent⟩
    exact forall_mem_cons.2 ⟨hfr, forall_mem_cons.2 ⟨hfr, hr⟩⟩
  | transmit =>
    refine ⟨hr, h.stored, h.contention, ?_⟩
    intro entry hent
    rcases mem_append.1 hent with hent | hent
    · exact h.sent entry hent
    · rw [mem_singleton.1 hent]
      exact hfr
  | discard => exact ⟨hr, h.stored, h.contention, h.sent⟩

theorem Recorded.step (h : s.Recorded) : (s.step codec action).Recorded := by
  cases action with
  | elapse duration =>
    rw [Buffers.step]
    split
    · next hh =>
      have hle : s.runtime.now ≤ s.runtime.now + duration := by omega
      refine ⟨?_, fun node hn => (h.stored node hn).mono hle, h.contention.mono hle, h.sent⟩
      intro entry hent
      rw [isEmpty_iff.1 hh] at hent
      cases hent
    · exact h
  | arrive pkt =>
    refine ⟨?_, h.stored, h.contention, h.sent⟩
    intro entry hent
    rcases mem_append.1 hent with hent | hent
    · exact h.hand entry hent
    · rw [mem_singleton.1 hent]
      exact ⟨Passage.tells_new, Passage.alive_new⟩
  | flush =>
    refine ⟨?_, forall_mem_nil _, h.contention, h.sent⟩
    intro entry hent
    rcases mem_append.1 hent with hent | hent
    · exact h.hand entry hent
    · obtain ⟨node, hn, hexp, rfl⟩ := PacketBuffer.mem_flush hent
      exact fresh_flush (h.stored node hn) hexp
  | expire =>
    have hnow : (s.cbf.flush codec s.runtime).2.2.now = s.runtime.now := scheduleTimer_now
    refine ⟨?_, ?_, ?_, h.sent⟩
    · intro entry hent
      show Fresh (s.cbf.flush codec s.runtime).2.2.now entry
      rw [hnow]
      rcases mem_append.1 hent with hent | hent
      · exact h.hand entry hent
      · obtain ⟨pending, hm, rfl⟩ := mem_map.1 hent
        exact h.fresh_expire hm
    · intro node hn
      exact hnow ▸ h.stored node hn
    · show Contention (s.cbf.flush codec s.runtime).2.2.now _ _ _
      rw [hnow]
      exact h.contention.expireAll _
  | update id tmo =>
    refine ⟨h.hand, h.stored, ?_, h.sent⟩
    show Contention s.runtime.now (s.restart id) (s.cbf.update id tmo s.runtime).packets
      (s.cbf.update id tmo s.runtime).timers
    unfold update
    split
    · next hno =>
      refine ⟨h.contention.nodup, h.contention.timed, ?_⟩
      intro timer ht cbf hcbf hid
      have hne : timer.id ≠ id := by simpa using find?_eq_none.1 hno timer ht
      rw [restart, Function.update_of_ne hne]
      exact h.contention.contending timer ht cbf hcbf hid
    · next timer hf =>
      exact h.contention.restart (mem_of_find?_eq_some hf) (of_decide_eq_true (find?_some hf :))
  | remove id =>
    have hnow := @CbfPacketBuffer.remove_now codec s.cbf s.runtime id
    refine ⟨?_, ?_, ?_, h.sent⟩
    · intro entry hent
      exact hnow ▸ h.hand entry hent
    · intro node hn
      exact hnow ▸ h.stored node hn
    · show Contention (s.cbf.remove codec id s.runtime).2.2.now _ _ _
      rw [hnow]
      exact h.contention.without (remove_without codec s.cbf id s.runtime)
  | handle handling =>
    rw [Buffers.step]
    split
    · exact h
    · next hh => exact h.handle hh

theorem Recorded.create (cap cbfCapacity : UInt64) (counter : CbfCounter)
    (erasedDiffers : Nat → Bool) (rt : Runtime Scope) :
    (Buffers.create cap cbfCapacity counter erasedDiffers rt).Recorded :=
  ⟨List.forall_mem_nil _, List.forall_mem_nil _,
    ⟨List.nodup_nil, List.forall_mem_nil _, List.forall_mem_nil _⟩, List.forall_mem_nil _⟩

end Steps

/-- After at most two upward roundings, a packet is sent no later than its
lifetime and one of its units after it came, and the lifetime it is sent with is
at most one unit more than what remains of it. -/
theorem sent_within_lifetime (codec : Codec) (capacity cbfCapacity : UInt64)
    (counter : CbfCounter) (erasedDiffers : Nat → Bool) (runtime : Runtime Scope)
    (actions : List BufferAction) {time : Int} {packet : BufferedPacket} {passage : Passage}
  (hsent : (time, packet, passage) ∈ (run (step codec)
    (create capacity cbfCapacity counter erasedDiffers runtime) actions).sent)
  (hroundings : passage.lifetime.upRoundings passage.waits ≤ 2) :
  time = passage.first + passage.waits.sum ∧ time ≤ passage.first + passage.lifetime.micros +
      passage.lifetime.unitOf ∧
    packet.lifetime.micros ≤ passage.lifetime.micros - passage.waits.sum +
      passage.lifetime.unitOf := by
  have hr : (run (step codec) (create capacity cbfCapacity counter erasedDiffers runtime)
      actions).Recorded :=
    Run.always (fun _ _ h => h.step)
      (Recorded.create capacity cbfCapacity counter erasedDiffers runtime)
  obtain ⟨⟨hc, ht⟩, hal⟩ := hr.sent _ hsent
  dsimp only at hc ht hal
  rw [Passage.current] at hc
  rw [Passage.time] at ht
  have ha := Lifetime.after_le hal
  have hn := packet.lifetime.micros_nonneg
  have hu : passage.lifetime.upRoundings passage.waits *
      passage.lifetime.unitOf ≤ 2 * passage.lifetime.unitOf :=
    Int.mul_le_mul_of_nonneg_right (Int.ofNat_le.2 hroundings) passage.lifetime.unitOf_pos.le
  rw [hc] at ha
  omega

def longLived : BufferedPacket := .gbc
  { pdu :=
      { basic := { BasicHeader.default with lifetime := .set 3 7 }
        common := .default
        extended := ⟨⟨0⟩, 0, .default, 0, 0, 0, 0, 0, 0⟩
        secured := none }
    payload := .empty
    action := .greedy .forwarder }

def restored (rounds : Nat) : List BufferAction :=
  [.arrive longLived, .handle (.push longLived)] ++ (List.replicate rounds
      [.elapse 49000000, .flush, .handle (.push longLived)]).flatten ++
    [.elapse 49000000, .flush, .handle .transmit]

def sentAfter (rounds : Nat) : List (Int × TrackedPacket) :=
  (run (step ⟨fun _ => none, fun _ => 0⟩)
    (create 1048576 262144 (.contending []) (fun _ => true) ⟨0, []⟩) (restored rounds)).sent

def outline (sent : List (Int × TrackedPacket)) : List (Int × Lifetime × Passage) :=
  sent.map fun entry => (entry.1, entry.2.1.lifetime, entry.2.2)

theorem exists_of_outline {sent : List (Int × TrackedPacket)} {time : Int}
  {lifetime : Lifetime} (h : outline sent = [(time, lifetime, passage)]) :
  ∃ pkt, (time, pkt, passage) ∈ sent ∧ pkt.lifetime = lifetime := by
  have hm : (time, lifetime, passage) ∈ outline sent := by
    rw [h]
    exact mem_singleton_self _
  obtain ⟨⟨time', pkt, passage'⟩, hent, ⟨⟩⟩ := mem_map.1 hm
  exact ⟨pkt, hent, rfl⟩

theorem outline_1 : outline (sentAfter 1) =
  [(98000000, .set 3 7, ⟨.set 3 7, 0, .replicate 2 49000000⟩)] := by
  decide +kernel

theorem outline_16 : outline (sentAfter 16) =
  [(833000000, .set 3 7, ⟨.set 3 7, 0, .replicate 17 49000000⟩)] := by
  decide +kernel

theorem restored_once_within_lifetime : ∃ packet,
  (98000000, packet, ⟨.set 3 7, 0, .replicate 2 49000000⟩) ∈ sentAfter 1 ∧
  packet.lifetime.micros ≤ 700000000 - 98000000 + 100000000 := by
  obtain ⟨packet, hm, -⟩ := exists_of_outline outline_1
  refine ⟨packet, hm, ?_⟩
  have hw := sent_within_lifetime ⟨fun _ => none, fun _ => 0⟩ 1048576 262144
    (.contending []) (fun _ => true) ⟨0, []⟩ (restored 1) hm (by decide +kernel)
  exact hw.2.2.trans_eq (by decide +kernel)

/-- A lifetime of 700 s is never reduced by waits of 49 s. -/
theorem restored_outlives : ∃ time packet passage, (time, packet, passage) ∈ sentAfter 16 ∧
  passage.lifetime.micros = 700000000 ∧ passage.lifetime.unitOf = 100000000 ∧
  passage.first + 700000000 + 100000000 < time ∧
  700000000 - (time - passage.first) + 100000000 < packet.lifetime.micros := by
  obtain ⟨packet, hm, hl⟩ := exists_of_outline outline_16
  refine ⟨_, packet, _, hm, by decide +kernel, by decide +kernel, by decide, ?_⟩
  rw [hl]
  decide +kernel

end Buffers

end Vanetza.Geonet
