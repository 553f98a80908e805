import Vanetza.Geonet.CbfCoupling

/-!
# The contention buffer in use

Runs of a `CbfPacketBuffer` and of the runtime it asks for callbacks. Every packet that is accepted
gets a node of the timer map of its own, and the nodes are numbered.
-/

namespace Vanetza.Geonet

open Lib List

structure CbfUse where
  buffer : CbfPacketBuffer
  runtime : Runtime Scope

inductive CbfUse.Action where
  | add (packet : CbfPacket) (timeout : Int)
  | update (id : CbfPacketIdentifier) (timeout : Int)
  | fetch (id : CbfPacketIdentifier)
  | remove (id : CbfPacketIdentifier)
  | flush
  | callback (index : Nat)
  | elapse (duration : Nat)

namespace CbfUse

open CbfPacketBuffer (Coupled Restricted)

def start (counter : CbfCounter) (capacity : UInt64) (erasedDiffers : Nat → Bool)
    (runtime : Runtime Scope) : CbfUse :=
  ⟨.create counter capacity erasedDiffers, runtime⟩

def due (s : CbfUse) (index : Nat) : Bool :=
  match s.runtime.queue[index]? with
  | some (deadline, .cbfBuffer) => deadline ≤ s.runtime.now
  | _ => false

def step (codec : Codec) (s : CbfUse) : Action → CbfUse
  | .add packet timeout =>
    let added := s.buffer.add codec packet timeout s.runtime
    ⟨added.1, added.2⟩
  | .update id timeout => ⟨s.buffer.update id timeout s.runtime, s.runtime⟩
  | .fetch id =>
    let fetched := s.buffer.fetch codec id s.runtime
    ⟨fetched.2.1, fetched.2.2⟩
  | .remove id =>
    let removed := s.buffer.remove codec id s.runtime
    ⟨removed.2.1, removed.2.2⟩
  | .flush =>
    let flushed := s.buffer.flush codec s.runtime
    ⟨flushed.2.1, flushed.2.2⟩
  | .callback index =>
    if s.due index then
      let flushed := s.buffer.flush codec (s.runtime.without index)
      ⟨flushed.2.1, flushed.2.2⟩
    else s
  | .elapse duration =>
    { s with runtime := { s.runtime with now := s.runtime.now + duration } }

variable {codec : Codec} {s : CbfUse} {action : Action}

def nodes (s : CbfUse) : List Nat := s.buffer.timers.map CbfTimer.node

inductive Departs (codec : Codec) (s : CbfUse) : Action → CbfTimer → Prop
  | headDrop {packet dropped : CbfPacket} {timeout : Int} {timer : CbfTimer} :
      0 < timeout → dropped ∈ s.buffer.droppedFor codec packet →
      dropped.identifier = timer.id → Departs codec s (.add packet timeout) timer
  | remove {timer : CbfTimer} : Departs codec s (.remove timer.id) timer
  | fetch {timer : CbfTimer} : Departs codec s (.fetch timer.id) timer
  | flush {timer : CbfTimer} : timer.expiry ≤ s.runtime.now → Departs codec s .flush timer
  | callback {index : Nat} {timer : CbfTimer} : s.due index = true →
      timer.expiry ≤ s.runtime.now → Departs codec s (.callback index) timer

inductive Does (codec : Codec) (s : CbfUse) (rest : CbfPacketBuffer) :
  Action → CbfPacketBuffer → Prop
  | nothing {action : Action} : Does codec s rest action rest
  | place {packet : CbfPacket} {timeout : Int} :
      (∀ timer ∈ rest.timers, timer.id ≠ packet.identifier) →
      Does codec s rest (.add packet timeout) (rest.placed codec packet
        (s.runtime.now + timeout) s.runtime.now)
  | restart {id : CbfPacketIdentifier} {timeout : Int} : Does codec s rest (.update id timeout)
        (rest.update id timeout s.runtime)

theorem restricted_self (buffer : CbfPacketBuffer) :
  Restricted codec (fun _ => true) buffer buffer :=
  Restricted.refl (fun _ _ => rfl) fun _ _ => rfl

theorem step_cases (h : s.buffer.Coupled codec) (action : Action) :
  ∃ keep rest, Restricted codec keep s.buffer rest ∧ (∀ timer ∈ s.buffer.timers,
      keep timer.id = false ↔ Departs codec s action timer) ∧
    Does codec s rest action (s.step codec action).buffer := by
  cases action with
  | add pkt tmo =>
    by_cases ht : 0 < tmo
    · obtain ⟨rest, hr, -, -, ha⟩ :=
        CbfPacketBuffer.add_spec h ht pkt s.runtime
      refine ⟨_, rest, hr, fun timer _ => ?_, ?_⟩
      · rw [decide_eq_false_iff_not, not_not, mem_map]
        constructor
        · rintro ⟨dropped, hm, hid⟩
          exact .headDrop ht hm hid
        · intro hd
          cases hd with
          | headDrop _ hm hid => exact ⟨_, hm, hid⟩
      · show Does codec s rest _ (s.buffer.add codec pkt tmo _).1
        rcases ha with ⟨-, ha⟩ | ⟨hn, ha⟩
        · rw [ha]
          exact .nothing
        · rw [ha]
          exact .place hn
    · refine ⟨_, s.buffer, restricted_self _, fun timer _ => ?_, ?_⟩
      · refine iff_of_false Bool.false_ne_true.symm ?_
        intro hd
        cases hd with
        | headDrop hpos _ _ => exact ht hpos
      · rw [step, CbfPacketBuffer.add, if_pos (Int.not_lt.1 ht)]
        exact .nothing
  | update id tmo =>
    refine ⟨_, s.buffer, restricted_self _, fun timer _ => ?_, .restart⟩
    exact iff_of_false Bool.false_ne_true.symm (by rintro ⟨⟩)
  | fetch id =>
    refine ⟨_, _, h.remove id s.runtime, fun timer _ => ?_, ?_⟩
    · rw [decide_eq_false_iff_not, not_not]
      constructor
      · rintro rfl
        exact .fetch
      · rintro ⟨⟩
        rfl
    · rw [step, CbfPacketBuffer.fetch_eq_remove h]
      exact .nothing
  | remove id =>
    refine ⟨_, _, h.remove id s.runtime, fun timer _ => ?_, .nothing⟩
    rw [decide_eq_false_iff_not, not_not]
    constructor
    · rintro rfl
      exact .remove
    · rintro ⟨⟩
      rfl
  | flush =>
    refine ⟨_, _, h.flush s.runtime, fun timer htmr => ?_, .nothing⟩
    rw [decide_eq_false_iff_not, not_not, h.mem_expired htmr]
    constructor
    · exact .flush
    · intro hd
      cases hd with
      | flush hexp => exact hexp
  | callback index =>
    by_cases hdue : s.due index = true
    · refine ⟨_, _, h.flush (s.runtime.without index), fun timer htmr => ?_, ?_⟩
      · rw [decide_eq_false_iff_not, not_not, h.mem_expired htmr]
        constructor
        · exact .callback hdue
        · intro hd
          cases hd with
          | callback _ hexp => exact hexp
      · rw [step, if_pos hdue]
        exact .nothing
    · refine ⟨_, s.buffer, restricted_self _, fun timer _ => ?_, ?_⟩
      · refine iff_of_false Bool.false_ne_true.symm ?_
        intro hd
        cases hd with
        | callback hpop _ => exact hdue hpop
      · rw [step, if_neg hdue]
        exact .nothing
  | elapse dur =>
    refine ⟨_, s.buffer, restricted_self _, fun timer _ => ?_, .nothing⟩
    exact iff_of_false Bool.false_ne_true.symm (by rintro ⟨⟩)

theorem coupled_step (h : s.buffer.Coupled codec) (action : Action) :
  (s.step codec action).buffer.Coupled codec := by
  obtain ⟨keep, rest, hr, -, hd⟩ := step_cases h action
  have hc := h.restricted hr
  revert hd
  generalize (s.step codec action).buffer = after
  intro hd
  cases hd with
  | nothing => exact hc
  | place hnew => exact hc.placed hnew _ _
  | restart => exact hc.update _ _ _

theorem coupled_run (codec : Codec) (counter : CbfCounter) (cap : UInt64)
    (erasedDiffers : Nat → Bool) (rt : Runtime Scope) (acts : List Action) :
    (run (step codec) (start counter cap erasedDiffers rt) acts).buffer.Coupled codec := by
  have hstep : ∀ (s : CbfUse) action, s.buffer.Coupled codec →
      (s.step codec action).buffer.Coupled codec :=
    fun _ action h => coupled_step h action
  exact Run.always hstep (CbfPacketBuffer.coupled_create codec counter cap erasedDiffers)

theorem mem_nodes_step (h : s.buffer.Coupled codec) (action : Action) (node : Nat) :
  node ∈ (s.step codec action).nodes ↔ (∃ timer ∈ s.buffer.timers, timer.node = node ∧
        ¬Departs codec s action timer) ∨ node = s.buffer.nextNode ∧
        (s.step codec action).buffer.nextNode = s.buffer.nextNode + 1 := by
  obtain ⟨keep, rest, hr, hk, hd⟩ := step_cases h action
  have hc := h.restricted hr
  have hsty : node ∈ rest.timers.map CbfTimer.node ↔
      ∃ timer ∈ s.buffer.timers, timer.node = node ∧ ¬Departs codec s action timer := by
    rw [hr.timers, mem_map]
    constructor
    · rintro ⟨timer, hm, hn⟩
      obtain ⟨hm, hke⟩ := mem_filter.1 hm
      refine ⟨timer, hm, hn, fun hdep => ?_⟩
      rw [(hk timer hm).2 hdep] at hke
      cases hke
    · rintro ⟨timer, hm, hn, hdep⟩
      refine ⟨timer, mem_filter.2 ⟨hm, ?_⟩, hn⟩
      rw [← Bool.not_eq_false, hk timer hm]
      exact hdep
  rw [nodes, ← hsty, ← hr.nextNode]
  revert hd
  generalize (s.step codec action).buffer = after
  intro hd
  cases hd with
  | nothing =>
    rw [or_iff_left]
    rintro ⟨-, hne⟩
    omega
  | place hnew =>
    rw [CbfPacketBuffer.placed, ((CbfPacketBuffer.insertTimer_perm _ _).map _).mem_iff, map_cons,
      mem_cons, or_comm]
    exact or_congr_right (and_iff_left rfl).symm
  | restart =>
    obtain ⟨hp, hne⟩ := hc.update_nodes _ _ s.runtime
    rw [hp.mem_iff, or_iff_left]
    rintro ⟨-, hs⟩
    omega

theorem nextNode_step (h : s.buffer.Coupled codec) (action : Action) :
  let after := (s.step codec action).buffer
  after.nextNode = s.buffer.nextNode ∨ ∃ pkt tmo, action = .add pkt tmo ∧
      after.nextNode = s.buffer.nextNode + 1 ∧ pkt ∈ after.packets ∧
      ⟨s.runtime.now + tmo, s.runtime.now, pkt.identifier, s.buffer.nextNode⟩ ∈ after.timers := by
  obtain ⟨keep, rest, hr, -, hd⟩ := step_cases h action
  have hc := h.restricted hr
  rw [← hr.nextNode]
  generalize (s.step codec action).buffer = after at hd
  cases hd with
  | nothing => exact .inl rfl
  | place hnew =>
    refine .inr ⟨_, _, rfl, rfl, ?_, ?_⟩
    · exact mem_append_right _ (mem_singleton_self _)
    · exact CbfPacketBuffer.mem_insertTimer.2 (.inl rfl)
  | restart => exact .inl (hc.update_nodes _ _ s.runtime).2

theorem node_transient (codec : Codec) (node : Nat) :
  Run.Transient (step codec) (fun s => s.buffer.Coupled codec)
    (fun s => node < s.buffer.nextNode) fun s => node ∈ s.nodes where
  keeps _ action h := coupled_step h action
  remembers s action h hkn := by rcases nextNode_step h action with hn | ⟨_, _, -, hn, -⟩ <;> omega
  gone s action h hkn hgone hmem := by
    rcases (mem_nodes_step h action node).1 hmem with
      ⟨timer, ht, hno, -⟩ | ⟨hnew, -⟩
    · exact hgone (mem_map.2 ⟨timer, ht, hno⟩)
    · omega
  appears s action h hnew hkn := by
    rcases nextNode_step h action with hn | ⟨_, _, -, hn, -⟩
    · omega
    · exact (mem_nodes_step h action node).2 (.inr ⟨by omega, hn⟩)
  known s h hmem := by
    obtain ⟨timer, ht, rfl⟩ := mem_map.1 hmem
    exact h.fresh timer ht

theorem droppedFor_first (codec : Codec) (pkt : CbfPacket) (buf : CbfPacketBuffer) :
  buf.droppedFor codec pkt <+: buf.packets := by
  obtain ⟨kept, hp, -⟩ := CbfPacketBuffer.dropHeads_eq codec buf.packets
    { buf with storedBytes := buf.storedBytes + pkt.length codec }
  exact ⟨kept, hp.symm⟩

/-- In every state packets and timers are one to one, and the count is right. A
packet that was accepted is either there and has not left, or it has left once.
It left with its timer expired in a flush, or it was removed, fetched or
dropped from the head; a flush takes what has expired, in the order of expiry. -/
theorem coupled_and_left_once (codec : Codec) (counter : CbfCounter)
    (capacity : UInt64) (erasedDiffers : Nat → Bool) (runtime : Runtime Scope)
    (actions : List Action) :
  let s := run (step codec) (start counter capacity erasedDiffers runtime) actions
  let leaves (node : Nat) := Run.LeavesAfter (step codec)
    (fun s => node ∈ s.nodes) (start counter capacity erasedDiffers runtime) actions
  (s.buffer.packets.map CbfPacket.identifier).Nodup ∧ (s.buffer.timers.map CbfTimer.id).Perm
      (s.buffer.packets.map CbfPacket.identifier) ∧
    s.buffer.storedBytes = .ofNat (s.buffer.octets codec) ∧
    -- each accepted packet has a node of its own
    s.nodes.Nodup ∧ (∀ action, (s.step codec action).buffer.nextNode = s.buffer.nextNode ∨
      ∃ packet timeout, action = .add packet timeout ∧
        (s.step codec action).buffer.nextNode = s.buffer.nextNode + 1 ∧
        packet ∈ (s.step codec action).buffer.packets ∧
        ⟨s.runtime.now + timeout, s.runtime.now, packet.identifier,
          s.buffer.nextNode⟩ ∈ (s.step codec action).buffer.timers) ∧
    (∀ node ∈ s.nodes, ∀ before, ¬leaves node before) ∧
    (∀ node < s.buffer.nextNode, node ∉ s.nodes → ∃! before, leaves node before) ∧
    -- how it leaves
    (∀ action, ∀ timer ∈ s.buffer.timers, timer.node ∉ (s.step codec action).nodes ↔
        Departs codec s action timer) ∧
    (∀ packet, s.buffer.droppedFor codec packet <+: s.buffer.packets) ∧
    -- what a flush hands out, and what it leaves
    ∀ runtime : Runtime Scope,
      let flushed := s.buffer.flush codec runtime
      flushed.1 = (s.buffer.expired runtime.now).filterMap
          (CbfPacketBuffer.handedOut runtime.now s.buffer.packets) ∧
        (s.buffer.expired runtime.now).Pairwise (fun a b =>
          a.expiry ≤ b.expiry) ∧
        flushed.2.1.timers = (s.buffer.timers.filter fun timer =>
          !decide (timer.expiry ≤ runtime.now)) ∧
        flushed.2.1.packets = s.buffer.packets.filter fun cbf =>
          cbf.identifier ∉ (s.buffer.expired runtime.now).map CbfTimer.id := by
  intro s leaves
  have h : s.buffer.Coupled codec := coupled_run codec counter capacity erasedDiffers runtime actions
  have hin := CbfPacketBuffer.coupled_create codec counter capacity erasedDiffers
  refine ⟨h.distinct, h.paired, h.stored, h.nodes, nextNode_step h, ?_, ?_, ?_,
    fun packet => droppedFor_first codec packet s.buffer, h.flush_spec⟩
  · intro node hm before
    exact (node_transient codec node).not_leavesAfter hin hm
  · intro node hkn hg
    exact (node_transient codec node).leavesAfter_existsUnique hin (Nat.not_lt_zero node) hkn hg
  intro action timer ht
  rw [mem_nodes_step h]
  constructor
  · intro hg
    by_contra hs
    exact hg (.inl ⟨timer, ht, rfl, hs⟩)
  rintro hd (⟨other, ho, hn, hs⟩ | ⟨hn, -⟩)
  · rw [inj_on_of_nodup_map h.nodes ho ht hn] at hs
    exact hs hd
  · have hlt := h.fresh timer ht
    omega

theorem droppedFor_eq_nil (codec : Codec) (pkt : CbfPacket)
  {buf : CbfPacketBuffer} (h : buf.packets ≠ []) :
  buf.droppedFor codec pkt = [] ↔ buf.storedBytes + pkt.length codec ≤ buf.capacityBytes := by
  obtain ⟨first, rest, hp⟩ := exists_cons_of_ne_nil h
  rw [CbfPacketBuffer.droppedFor, hp, CbfPacketBuffer.headDropped, ← UInt64.not_lt]
  split
  · next hlt => exact iff_of_false (cons_ne_nil _ _) (not_not.2 hlt)
  · next hf => exact iff_of_true rfl hf

/-- A packet that is there already changes nothing if and only if there would
have been room for it. -/
theorem add_again_unchanged_iff (codec : Codec) (counter : CbfCounter)
    (capacity : UInt64) (erasedDiffers : Nat → Bool) (runtime : Runtime Scope)
    (actions : List Action)
  (packet : CbfPacket) (timeout : Int) :
  let s := run (step codec) (start counter capacity erasedDiffers runtime) actions
  let after := (s.step codec (.add packet timeout)).buffer
  (∃ cbf ∈ s.buffer.packets, cbf.identifier = packet.identifier) →
  (after.packets = s.buffer.packets ∧ after.timers = s.buffer.timers ∧
      after.storedBytes = s.buffer.storedBytes ∧ after.counter = s.buffer.counter ↔
    timeout ≤ 0 ∨ s.buffer.storedBytes + packet.length codec ≤ s.buffer.capacityBytes) := by
  intro s after hst
  have h : s.buffer.Coupled codec := coupled_run codec counter capacity erasedDiffers runtime actions
  by_cases htmo : timeout ≤ 0
  · refine iff_of_true ?_ (.inl htmo)
    have haft : after = s.buffer := by
      rw [show after = (s.buffer.add codec packet timeout s.runtime).1 from rfl,
        CbfPacketBuffer.add, if_pos htmo]
    rw [haft]
    exact ⟨rfl, rfl, rfl, rfl⟩
  · have hne : s.buffer.packets ≠ [] := by
      obtain ⟨cbf, hm, -⟩ := hst
      exact ne_nil_of_mem hm
    rw [or_iff_right htmo, ← droppedFor_eq_nil codec packet hne]
    obtain ⟨timer, htmr, hid⟩ := h.timed.2 hst
    constructor
    · -- otherwise the timer of the first packet is not there any more
      rintro ⟨-, ht, -, -⟩
      by_contra hdrop
      obtain ⟨first, rest, hf⟩ := exists_cons_of_ne_nil hdrop
      have hm : first ∈ s.buffer.droppedFor codec packet := hf ▸ mem_cons_self
      obtain ⟨other, hoth, ho⟩ := h.timed.2
        ⟨first, (droppedFor_first codec packet s.buffer).subset hm, rfl⟩
      have hd : Departs codec s (.add packet timeout) other :=
        .headDrop (Int.not_le.1 htmo) hm ho.symm
      have hstl : other.node ∈ (s.step codec (.add packet timeout)).nodes := by
        rw [nodes, show (s.step codec (.add packet timeout)).buffer.timers =
          s.buffer.timers from ht]
        exact mem_map_of_mem hoth
      rcases (mem_nodes_step h _ _).1 hstl with
        ⟨same, hs, hn, hsty⟩ | ⟨hn, -⟩
      · rw [inj_on_of_nodup_map h.nodes hs hoth hn] at hsty
        exact hsty hd
      · have hlt := h.fresh other hoth
        omega
    · intro hno
      obtain ⟨rest, -, hs, -, ha⟩ := CbfPacketBuffer.add_spec h (Int.not_le.1 htmo) packet s.runtime
      rw [hs hno] at ha
      rcases ha with ⟨-, ha⟩ | ⟨hnew, -⟩
      · have haft : after = s.buffer := ha
        rw [haft]
        exact ⟨rfl, rfl, rfl, rfl⟩
      · exact absurd hid (hnew timer htmr)

def contender (sequence : UInt16) : CbfPacket where
  packet :=
    { pdu :=
        { basic := { BasicHeader.default with lifetime := .set 1 5 }
          common := .default
          extended := ⟨⟨sequence⟩, 0, .default, 0, 0, 0, 0, 0, 0⟩
          secured := none }
      payload := .empty
      action := .broadcast .forwarder }
  sender := cBroadcastMacAddress

def twoContenders : CbfUse :=
  run (step ⟨fun _ => none, fun _ => 0⟩) (start (.contending []) 112 (fun _ => true) ⟨0, []⟩)
    [.add (contender 1) 3000000, .add (contender 2) 3000000]

/-- The second one is added once more, and the first one is gone. -/
theorem added_again_drops_other :
  let after := twoContenders.step ⟨fun _ => none, fun _ => 0⟩ (.add (contender 2) 3000000)
  (∃ cbf ∈ twoContenders.buffer.packets, cbf.identifier = (contender 2).identifier) ∧
    twoContenders.buffer.packets.map CbfPacket.identifier =
      [(contender 1).identifier, (contender 2).identifier] ∧
    after.buffer.packets.map CbfPacket.identifier = [(contender 2).identifier] ∧
    twoContenders.buffer.storedBytes = 112 ∧ after.buffer.storedBytes = 56 := by
  refine ⟨⟨contender 2, ?_, rfl⟩, ?_, ?_, ?_, ?_⟩
  · exact mem_cons_of_mem _ mem_cons_self
  all_goals decide +kernel

/-- In a buffer for three packets nothing would have happened. -/
theorem added_again_with_room :
  let s := run (step ⟨fun _ => none, fun _ => 0⟩)
    (start (.contending []) 168 (fun _ => true) ⟨0, []⟩) [.add (contender 1) 3000000]
  let after := (s.step ⟨fun _ => none, fun _ => 0⟩ (.add (contender 1) 5000000)).buffer
  (∃ cbf ∈ s.buffer.packets, cbf.identifier = (contender 1).identifier) ∧
    (after.packets = s.buffer.packets ∧ after.timers = s.buffer.timers ∧
      after.storedBytes = s.buffer.storedBytes ∧ after.counter = s.buffer.counter) := by
  intro s after
  have hs : ∃ cbf ∈ s.buffer.packets, cbf.identifier = (contender 1).identifier :=
    ⟨contender 1, mem_cons_self, rfl⟩
  refine ⟨hs, ?_⟩
  refine (add_again_unchanged_iff ⟨fun _ => none, fun _ => 0⟩ (.contending [])
    168 (fun _ => true) ⟨0, []⟩ [.add (contender 1) 3000000] (contender 1) 5000000 hs).2 (.inr ?_)
  decide +kernel

def Fits (codec : Codec) (s : CbfUse) : Action → Prop
  | .add packet timeout => 0 < timeout →
      if s.buffer.octets codec + (packet.length codec).toNat < 2 ^ 64 then
        packet.length codec ≤ s.buffer.capacityBytes
      else ∃ cbf ∈ s.buffer.packets, cbf.identifier = packet.identifier
  | _ => True

theorem capacity_step (h : s.buffer.Coupled codec) (action : Action) :
  (s.step codec action).buffer.capacityBytes = s.buffer.capacityBytes := by
  obtain ⟨keep, rest, hr, -, hd⟩ := step_cases h action
  rw [← hr.capacity]
  generalize (s.step codec action).buffer = after at hd
  cases hd with
  | nothing | place hnew => rfl
  | restart =>
    unfold CbfPacketBuffer.update
    split <;> rfl

theorem octets_step_le (h : s.buffer.Coupled codec) (ha : ∀ pkt tmo, action ≠ .add pkt tmo) :
  (s.step codec action).buffer.octets codec ≤ s.buffer.octets codec := by
  obtain ⟨keep, rest, hr, -, hd⟩ := step_cases h action
  have hle := hr.octets_le
  generalize (s.step codec action).buffer = after at hd
  cases hd with
  | nothing => exact hle
  | place hnew => exact absurd rfl (ha _ _)
  | restart =>
    rw [CbfPacketBuffer.octets_update]
    exact hle

theorem octets_add_iff (h : s.buffer.Coupled codec)
  (hle : s.buffer.octets codec ≤ s.buffer.capacityBytes.toNat)
  {pkt : CbfPacket} {tmo : Int} (htmo : 0 < tmo) :
  (s.step codec (.add pkt tmo)).buffer.octets codec ≤ s.buffer.capacityBytes.toNat ↔
    if s.buffer.octets codec + (pkt.length codec).toNat < 2 ^ 64 then
      pkt.length codec ≤ s.buffer.capacityBytes
    else ∃ cbf ∈ s.buffer.packets, cbf.identifier = pkt.identifier := by
  obtain ⟨rest, hre, hs, hr, ha⟩ := CbfPacketBuffer.add_spec h htmo pkt s.runtime
  have hc := h.restricted hre
  have hfew := hre.octets_le
  have hwo := s.buffer.capacityBytes.toNat_lt
  have hp : ∀ expiry now, (rest.placed codec pkt expiry now).octets
      codec = rest.octets codec + (pkt.length codec).toNat := by
    intro expiry now
    show Lib.octets _ (rest.packets ++ [pkt]) = _
    rw [octets_append, octets_cons, octets_nil, Nat.add_zero]
    rfl
  show (s.buffer.add codec pkt tmo s.runtime).1.octets codec ≤ _ ↔ _
  split
  · next hf =>
    rw [UInt64.le_iff_toNat_le] at hr ⊢
    -- the count does not wrap, so it says what the loop has left
    have hcnt : (rest.storedBytes + pkt.length codec).toNat =
        rest.octets codec + (pkt.length codec).toNat := by
      rw [hc.stored, UInt64.toNat_add, UInt64.toNat_ofNat',
        Nat.mod_add_mod, Nat.mod_eq_of_lt (by omega)]
    rw [hcnt] at hr
    rcases ha with ⟨ht, ha⟩ | ⟨-, ha⟩
    · obtain ⟨cbf, hm, -⟩ := hc.timed.1 ht
      have hr := hr.resolve_left (ne_nil_of_mem hm)
      rw [ha]
      exact iff_of_true (by omega) (by omega)
    rw [ha, hp]
    rcases hr with hnil | hr
    · have hz : rest.octets codec = 0 := by
        rw [CbfPacketBuffer.octets, hnil, octets_nil]
      rw [hz, Nat.zero_add]
    · exact iff_of_true hr (by omega)
  · next hw =>
    have hl := (pkt.length codec).toNat_lt
    have hne : s.buffer.packets ≠ [] := by
      intro hnil
      rw [CbfPacketBuffer.octets, hnil, octets_nil] at hw
      omega
    -- the count wraps, and the loop finds enough room
    have hn : s.buffer.droppedFor codec pkt = [] := by
      rw [droppedFor_eq_nil codec pkt hne, UInt64.le_iff_toNat_le,
        h.stored, UInt64.toNat_add, UInt64.toNat_ofNat', Nat.mod_add_mod]
      omega
    rw [hs hn] at ha hp
    rcases ha with ⟨ht, ha⟩ | ⟨hnew, ha⟩
    · rw [ha]
      exact iff_of_true hle (h.timed.1 ht)
    rw [ha, hp]
    refine iff_of_false (by omega) fun ht => ?_
    obtain ⟨timer, htmr, hid⟩ := h.timed.2 ht
    exact hnew timer htmr hid

theorem octets_step_iff (h : s.buffer.Coupled codec)
  (hle : s.buffer.octets codec ≤ s.buffer.capacityBytes.toNat) (action : Action) :
  (s.step codec action).buffer.octets codec ≤
      s.buffer.capacityBytes.toNat ↔ Fits codec s action := by
  have ho : (∀ pkt tmo, action ≠ .add pkt tmo) →
      (s.step codec action).buffer.octets codec ≤ s.buffer.capacityBytes.toNat := fun ha =>
    (octets_step_le h ha).trans hle
  cases action with
  | add pkt tmo =>
    by_cases ht : 0 < tmo
    · rw [octets_add_iff h hle ht, Fits]
      exact ⟨fun hf _ => hf, fun hf => hf ht⟩
    · refine iff_of_true ?_ fun hp => absurd hp ht
      rw [step, CbfPacketBuffer.add, if_pos (Int.not_lt.1 ht)]
      exact hle
  | update id tmo => exact iff_of_true (ho (by rintro _ _ ⟨⟩)) trivial
  | fetch id | remove id | flush | callback index | elapse dur =>
    exact iff_of_true (ho (by rintro _ _ ⟨⟩)) trivial

/-- The octets of the packets are within the capacity all the time if and only
if every packet that is added fits. -/
theorem within_capacity_iff (codec : Codec) (counter : CbfCounter)
    (capacity : UInt64) (erasedDiffers : Nat → Bool) (runtime : Runtime Scope)
    (actions : List Action) :
  (∀ before, before <+: actions →
    (run (step codec) (start counter capacity erasedDiffers runtime) before).buffer.octets
      codec ≤ capacity.toNat) ↔
    RunMeets (step codec) (Fits codec) (start counter capacity erasedDiffers runtime) actions := by
  have hkp : ∀ (s : CbfUse) (action : Action), True →
      s.buffer.Coupled codec ∧ s.buffer.capacityBytes = capacity →
      (s.step codec action).buffer.Coupled codec ∧
        (s.step codec action).buffer.capacityBytes = capacity :=
    fun s action _ h =>
      ⟨coupled_step h.1 action, (capacity_step h.1 action).trans h.2⟩
  have hstep : ∀ (s : CbfUse) (action : Action), True →
      s.buffer.Coupled codec ∧ s.buffer.capacityBytes = capacity →
      s.buffer.octets codec ≤ capacity.toNat →
      ((s.step codec action).buffer.octets codec ≤ capacity.toNat ↔ Fits codec s action) := by
    rintro s action - ⟨hc, rfl⟩ hle
    exact octets_step_iff hc hle action
  exact Run.goesThrough_iff hkp hstep ⟨CbfPacketBuffer.coupled_create codec counter capacity erasedDiffers, rfl⟩
    (Nat.zero_le _) (Run.meets_of_forall (fun _ _ => trivial) _ _)

/-- A packet of 56 octets is stored in a buffer for 40. -/
theorem long_packet_above_capacity :
  (run (step ⟨fun _ => none, fun _ => 0⟩) (start (.contending []) 40 (fun _ => true) ⟨0, []⟩)
    [.add (contender 1) 3000000]).buffer.octets ⟨fun _ => none, fun _ => 0⟩ = 56 := by
  decide +kernel

end CbfUse

end Vanetza.Geonet
