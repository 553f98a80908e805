import Vanetza.Geonet.BufferRuns
import Vanetza.Lib.Keyed
import Vanetza.Lib.Octets

/-!
# Packets and timers of the contention buffer

The packets of a `CbfPacketBuffer` are in a list and their timers in a map. In
every state there is one timer for each packet and one packet for each timer, no
two packets have the same identifier, and the count of octets is the sum of the
lengths (`Coupled`).
-/

namespace Vanetza.Geonet

open Lib List CbfPacket

theorem CbfPacket.length_reduced (codec : Codec) (wait : Int) (cbf : CbfPacket) :
  (Buffers.reduced wait cbf).length codec = cbf.length codec := by
  rw [Buffers.reduced, PendingPacket.reduceLifetime_eq]
  rfl

namespace CbfPacketBuffer

variable {codec : Codec} {buffer rest : CbfPacketBuffer}
  {runtime : Runtime Scope} {packet : CbfPacket} {timeout : Int} {id : CbfPacketIdentifier}

def octets (codec : Codec) (buffer : CbfPacketBuffer) : Nat :=
  Lib.octets (CbfPacket.length codec) buffer.packets

def surplus (codec : Codec) (buffer : CbfPacketBuffer) : UInt64 :=
  buffer.storedBytes - .ofNat (buffer.octets codec)

structure Coupled (codec : Codec) (buffer : CbfPacketBuffer) : Prop where
  distinct : (buffer.packets.map CbfPacket.identifier).Nodup
  paired : (buffer.timers.map CbfTimer.id).Perm (buffer.packets.map CbfPacket.identifier)
  sorted : buffer.timers.Pairwise fun a b => a.expiry ≤ b.expiry
  nodes : (buffer.timers.map CbfTimer.node).Nodup
  fresh : ∀ timer ∈ buffer.timers, timer.node < buffer.nextNode
  counted : buffer.surplus codec = 0

theorem coupled_create (codec : Codec) (counter : CbfCounter)
    (cap : UInt64) (erasedDiffers : Nat → Bool) :
    (create counter cap erasedDiffers).Coupled codec where
  distinct := List.nodup_nil
  paired := List.Perm.refl []
  sorted := List.Pairwise.nil
  nodes := List.nodup_nil
  fresh _ h := by cases h
  counted := UInt64.sub_self 0

namespace Coupled

variable (h : buffer.Coupled codec)

include h

theorem stored : buffer.storedBytes = .ofNat (buffer.octets codec) := by
  have hc := h.counted
  rw [surplus] at hc
  grind

theorem timers_distinct : (buffer.timers.map CbfTimer.id).Nodup := h.paired.nodup_iff.2 h.distinct

theorem timed : (∃ timer ∈ buffer.timers, timer.id = id) ↔
  ∃ cbf ∈ buffer.packets, cbf.identifier = id := by
  rw [← mem_map, ← mem_map]
  exact h.paired.mem_iff

theorem expired_eq (now : Int) : buffer.timers.takeWhile (fun timer => timer.expiry ≤ now) =
    buffer.timers.filter fun timer => timer.expiry ≤ now := by
  refine takeWhile_eq_filter (h.sorted.imp fun hle hlat => ?_)
  exact decide_eq_true (hle.trans (of_decide_eq_true hlat))

end Coupled

structure Restricted (codec : Codec) (keep : CbfPacketIdentifier → Bool)
  (buffer rest : CbfPacketBuffer) : Prop where
  packets : rest.packets = buffer.packets.filter fun cbf => keep cbf.identifier
  timers : rest.timers = buffer.timers.filter fun timer => keep timer.id
  nextNode : rest.nextNode = buffer.nextNode
  capacity : rest.capacityBytes = buffer.capacityBytes
  surplus : rest.surplus codec = buffer.surplus codec

variable {keep more : CbfPacketIdentifier → Bool}

theorem Restricted.refl (h : ∀ cbf ∈ buffer.packets, keep cbf.identifier = true)
  (h' : ∀ timer ∈ buffer.timers, keep timer.id = true) :
  Restricted codec keep buffer buffer where
  packets := (List.filter_eq_self.2 h).symm
  timers := (List.filter_eq_self.2 h').symm
  nextNode := rfl
  capacity := rfl
  surplus := rfl

theorem Restricted.octets_le (h : Restricted codec keep buffer rest) :
  rest.octets codec ≤ buffer.octets codec := by
  have hs := octets_filter_add (length codec) (fun cbf => keep cbf.identifier) buffer.packets
  rw [octets, octets, h.packets]
  omega

theorem Restricted.trans {middle : CbfPacketBuffer} (h : Restricted codec keep buffer middle)
  (h' : Restricted codec more middle rest) :
  Restricted codec (fun id => more id && keep id) buffer rest where
  packets := by rw [h'.packets, h.packets, List.filter_filter]
  timers := by rw [h'.timers, h.timers, List.filter_filter]
  nextNode := h'.nextNode.trans h.nextNode
  capacity := h'.capacity.trans h.capacity
  surplus := h'.surplus.trans h.surplus

theorem Coupled.restricted (h : buffer.Coupled codec)
  (hr : Restricted codec keep buffer rest) : rest.Coupled codec where
  distinct := by
    rw [hr.packets]
    exact nodup_map_filter h.distinct _
  paired := by
    have hids := h.paired.filter keep
    rw [filter_map, filter_map] at hids
    rw [hr.packets, hr.timers]
    exact hids
  sorted := by
    rw [hr.timers]
    exact h.sorted.filter _
  nodes := by
    rw [hr.timers]
    exact nodup_map_filter h.nodes _
  fresh timer htmr := by
    rw [hr.timers] at htmr
    rw [hr.nextNode]
    exact h.fresh timer (mem_of_mem_filter htmr)
  counted := hr.surplus.trans h.counted

def removed (codec : Codec) (id : CbfPacketIdentifier) (cbf : CbfPacket)
  (buffer : CbfPacketBuffer) : CbfPacketBuffer :=
  { buffer with
    storedBytes := buffer.storedBytes - cbf.length codec
    counter := buffer.counter.remove id
    packets := buffer.packets.eraseP fun cbf => cbf.identifier = id
    timers := buffer.timers.filter fun timer => timer.id ≠ id }

theorem octets_filter_ne (codec : Codec) (hids : (buffer.packets.map CbfPacket.identifier).Nodup)
  (hm : packet ∈ buffer.packets) :
  Lib.octets (CbfPacket.length codec) (buffer.packets.filter fun cbf =>
      cbf.identifier ≠ packet.identifier) + (packet.length codec).toNat =
    buffer.octets codec := by
  have hsum := octets_filter_add (length codec)
    (fun cbf => cbf.identifier ≠ packet.identifier) buffer.packets
  have hs := filter_key_eq hids hm
  simp only [decide_not, Bool.not_not] at hsum hs ⊢
  rw [hs, octets_cons, octets_nil, Nat.add_zero] at hsum
  exact hsum

theorem Coupled.restricted_removed (h : buffer.Coupled codec)
  (hm : packet ∈ buffer.packets) (hid : packet.identifier = id) :
  Restricted codec (fun other => other ≠ id) buffer (buffer.removed codec id packet) where
  packets := eraseP_key_eq_filter h.distinct id
  timers := rfl
  nextNode := rfl
  capacity := rfl
  surplus := by
    subst hid
    have hs := octets_filter_ne codec h.distinct hm
    have hk : (buffer.removed codec packet.identifier packet).packets =
        buffer.packets.filter fun cbf =>
          cbf.identifier ≠ packet.identifier :=
      eraseP_key_eq_filter h.distinct packet.identifier
    rw [surplus, surplus, ← hs, octets, hk, UInt64.ofNat_add, UInt64.ofNat_toNat]
    show buffer.storedBytes - packet.length codec - _ = _
    grind

theorem remove_cases (codec : Codec) (h : buffer.Coupled codec)
  (id : CbfPacketIdentifier) (runtime : Runtime Scope) :
  (∀ cbf ∈ buffer.packets, cbf.identifier ≠ id) ∧
      buffer.remove codec id runtime = (false, buffer, runtime) ∨
    ∃ cbf ∈ buffer.packets, cbf.identifier = id ∧
      buffer.remove codec id runtime = (true, buffer.removed codec id cbf,
        if buffer.timers.head?.any fun timer => timer.id = id then
          (buffer.removed codec id cbf).scheduleTimer runtime
        else runtime) := by
  unfold remove find
  by_cases hs : ∃ cbf ∈ buffer.packets, cbf.identifier = id
  · obtain ⟨timer, ht, hid⟩ := h.timed.2 hs
    have ha : (buffer.timers.any fun timer => timer.id = id) = true :=
      any_eq_true.2 ⟨timer, ht, decide_eq_true hid⟩
    obtain ⟨cbf, hm, rfl⟩ := hs
    rw [if_pos ha, find?_key_eq h.distinct hm]
    exact .inr ⟨cbf, hm, rfl, rfl⟩
  · have ha : ¬(buffer.timers.any fun timer => timer.id = id) = true := by
      intro ha
      obtain ⟨timer, ht, hid⟩ := any_eq_true.1 ha
      exact hs (h.timed.1 ⟨timer, ht, of_decide_eq_true hid⟩)
    rw [if_neg ha]
    exact .inl ⟨fun cbf hm hid => hs ⟨cbf, hm, hid⟩, rfl⟩

theorem fetch_eq_remove (h : buffer.Coupled codec) : (buffer.fetch codec id runtime).2 =
    (buffer.remove codec id runtime).2 := by
  rcases remove_cases codec h id runtime with ⟨hn, heq⟩ | ⟨cbf, hm, hid, heq⟩
  · have hf : buffer.packets.find? (fun cbf => cbf.identifier = id) = none :=
      find?_eq_none.2 fun cbf hm => by simpa using hn cbf hm
    rw [heq, fetch, hf]
    split
    · next hs => cases hs
    · rfl
  · obtain ⟨timer, htmr, ht⟩ := h.timed.2 ⟨cbf, hm, hid⟩
    subst hid
    have hfnd : buffer.timers.find? (fun other =>
        other.id = cbf.identifier) = some timer := by
      rw [← ht]
      exact find?_key_eq h.timers_distinct htmr
    have hl := cbf.length_reduced codec (runtime.now - timer.start)
    rw [heq, fetch, hfnd, find?_key_eq h.distinct hm]
    simp only [Buffers.reduced] at hl
    simp only [hl]
    rfl

theorem Coupled.restricted_absent (h : buffer.Coupled codec)
  (hn : ∀ cbf ∈ buffer.packets, cbf.identifier ≠ id) :
  Restricted codec (fun other => other ≠ id) buffer buffer := by
  refine Restricted.refl (fun cbf hm => decide_eq_true (hn cbf hm)) ?_
  intro timer ht
  refine decide_eq_true fun hid => ?_
  obtain ⟨cbf, hm, hid'⟩ := h.timed.1 ⟨timer, ht, hid⟩
  exact hn cbf hm hid'

theorem Coupled.remove (h : buffer.Coupled codec) (id : CbfPacketIdentifier)
  (runtime : Runtime Scope) :
  Restricted codec (fun other => other ≠ id) buffer (buffer.remove codec id runtime).2.1 := by
  rcases remove_cases codec h id runtime with ⟨hn, heq⟩ | ⟨cbf, hm, hid, heq⟩
  · rw [heq]
    exact h.restricted_absent hn
  · rw [heq]
    exact h.restricted_removed hm hid

def handedOut (now : Int) (packets : List CbfPacket) (timer : CbfTimer) :
  Option (PendingPacket GeoBroadcastHeader GbcAction) :=
  (packets.find? fun cbf => cbf.identifier = timer.id).bind fun cbf =>
    let (remaining, packet) := cbf.packet.reduceLifetime (now - timer.start)
    if 0 < remaining then some packet else none

theorem expire_fst (codec : Codec) (now : Int) (timer : CbfTimer) (buffer : CbfPacketBuffer) :
  (expire codec now timer buffer).1 = handedOut now buffer.packets timer := by
  unfold expire handedOut
  split
  · next hf => rw [hf]; rfl
  · next hf => rw [hf]; rfl

theorem Coupled.expire (h : buffer.Coupled codec) (now : Int) (timer : CbfTimer) :
  Restricted codec (fun other => other ≠ timer.id) buffer (expire codec now timer buffer).2 := by
  unfold CbfPacketBuffer.expire
  split
  · next hf =>
    refine h.restricted_absent fun cbf hm => ?_
    simpa using find?_eq_none.1 hf cbf hm
  next cbf hf =>
  have hl := cbf.length_reduced codec (now - timer.start)
  rw [Buffers.reduced] at hl
  dsimp only
  rw [hl]
  exact h.restricted_removed (mem_of_find?_eq_some hf) (of_decide_eq_true (find?_some hf :))

theorem Coupled.expireAll (h : buffer.Coupled codec) (now : Int) (expired : List CbfTimer) :
  Restricted codec (fun id => id ∉ expired.map CbfTimer.id) buffer
    (expireAll codec now expired buffer).2 := by
  induction expired generalizing buffer with
  | nil => exact Restricted.refl (fun _ _ => by simp) fun _ _ => by simp
  | cons timer rest ih =>
    have hf := h.expire now timer
    have ha := hf.trans (ih (h.restricted hf))
    have hk : (fun id => decide (id ∉ (timer :: rest).map CbfTimer.id)) =
        fun id => decide (id ∉ rest.map CbfTimer.id) && decide (id ≠ timer.id) := by
      funext id
      rw [map_cons, ← Bool.decide_and]
      refine decide_eq_decide.2 ?_
      rw [mem_cons, not_or, and_comm]
    rw [hk]
    exact ha

theorem Coupled.expireAll_fst (h : buffer.Coupled codec) (now : Int)
  {expired : List CbfTimer} (hids : (expired.map CbfTimer.id).Nodup) :
  (CbfPacketBuffer.expireAll codec now expired buffer).1 =
    expired.filterMap (handedOut now buffer.packets) := by
  induction expired generalizing buffer with
  | nil => rfl
  | cons timer rest ih =>
    rw [map_cons, nodup_cons] at hids
    have hf := h.expire now timer
    have hr := ih (h.restricted hf) hids.2
    -- the packet of the first timer is not that of any other
    have hs : rest.filterMap (handedOut now
          (CbfPacketBuffer.expire codec now timer buffer).2.packets) =
        rest.filterMap (handedOut now buffer.packets) := by
      refine filterMap_congr fun other ho => ?_
      have hne : other.id ≠ timer.id := fun hid =>
        hids.1 (hid ▸ mem_map_of_mem ho)
      rw [handedOut, handedOut, hf.packets, find?_filter_of_keep]
      intro cbf hc
      rw [hc]
      exact decide_eq_true hne
    rw [CbfPacketBuffer.expireAll]
    dsimp only
    rw [hr, hs, expire_fst, filterMap_cons]
    cases handedOut now buffer.packets timer <;> rfl

def expired (now : Int) (buffer : CbfPacketBuffer) : List CbfTimer :=
  buffer.timers.filter fun timer => timer.expiry ≤ now

theorem Coupled.mem_expired (h : buffer.Coupled codec) {timer : CbfTimer}
  (ht : timer ∈ buffer.timers) (now : Int) :
  timer.id ∈ (buffer.expired now).map CbfTimer.id ↔ timer.expiry ≤ now := by
  constructor
  · intro hid
    obtain ⟨other, ho, hs⟩ := mem_map.1 hid
    obtain ⟨ho, hexp⟩ := mem_filter.1 ho
    rw [← inj_on_of_nodup_map h.timers_distinct ho ht hs]
    exact of_decide_eq_true hexp
  · intro hexp
    exact mem_map_of_mem (mem_filter.2 ⟨ht, decide_eq_true hexp⟩)

theorem Coupled.flush (h : buffer.Coupled codec) (runtime : Runtime Scope) : Restricted codec
    (fun id => id ∉ (buffer.expired runtime.now).map CbfTimer.id) buffer
    (buffer.flush codec runtime).2.1 := by
  have ha := h.expireAll runtime.now (buffer.expired runtime.now)
  rw [expired, ← h.expired_eq] at ha ⊢
  exact ha

theorem Coupled.flush_spec (h : buffer.Coupled codec) (runtime : Runtime Scope) :
  let flushed := buffer.flush codec runtime
  flushed.1 = (buffer.expired runtime.now).filterMap (handedOut runtime.now buffer.packets) ∧
    (buffer.expired runtime.now).Pairwise (fun a b =>
      a.expiry ≤ b.expiry) ∧
    flushed.2.1.timers = (buffer.timers.filter fun timer =>
      !decide (timer.expiry ≤ runtime.now)) ∧
    flushed.2.1.packets = buffer.packets.filter fun cbf =>
      cbf.identifier ∉ (buffer.expired runtime.now).map CbfTimer.id := by
  have hr := h.flush runtime
  refine ⟨?_, h.sorted.filter _, ?_, hr.packets⟩
  · rw [expired, ← h.expired_eq]
    refine h.expireAll_fst runtime.now ?_
    rw [h.expired_eq]
    exact nodup_map_filter h.timers_distinct _
  · rw [hr.timers]
    exact filter_not_mem_filter_keys h.timers_distinct _ fun _ =>
      decide_eq_true_iff

def headDropped (codec : Codec) (capacity : UInt64) : List CbfPacket → UInt64 → List CbfPacket
  | [], _ => []
  | packet :: rest, stored =>
    if capacity < stored then
      packet :: headDropped codec capacity rest (stored - packet.length codec)
    else []

theorem dropHeads_eq (codec : Codec) (packets : List CbfPacket) (buffer : CbfPacketBuffer) :
  let dropped := headDropped codec buffer.capacityBytes packets buffer.storedBytes
  let stored := buffer.storedBytes - .ofNat (Lib.octets (CbfPacket.length codec) dropped)
  ∃ kept, packets = dropped ++ kept ∧ (kept = [] ∨ stored ≤ buffer.capacityBytes) ∧
    dropHeads codec packets buffer =
      { buffer with
        packets := kept
        timers := buffer.timers.filter fun timer =>
          timer.id ∉ dropped.map CbfPacket.identifier
        counter := dropped.foldl (fun counter cbf => counter.remove cbf.identifier) buffer.counter
        storedBytes := stored } := by
  induction packets generalizing buffer with
  | nil =>
    refine ⟨[], rfl, .inl rfl, ?_⟩
    simp [dropHeads, headDropped]
  | cons packet rest ih =>
    rw [dropHeads, headDropped]
    split
    · obtain ⟨kept, hp, hf, heq⟩ := ih { buffer with
        storedBytes := buffer.storedBytes - packet.length codec
        timers := buffer.timers.filter fun timer =>
          timer.id ≠ packet.identifier
        counter := buffer.counter.remove packet.identifier }
      dsimp only at hp hf heq
      generalize headDropped codec buffer.capacityBytes rest
        (buffer.storedBytes - packet.length codec) = dropped at *
      have hs : buffer.storedBytes - packet.length codec -
            .ofNat (Lib.octets (length codec) dropped) =
          buffer.storedBytes - .ofNat (Lib.octets (length codec) (packet :: dropped)) := by
        rw [octets_cons, UInt64.ofNat_add, UInt64.ofNat_toNat]
        grind
      rw [hs] at hf heq
      refine ⟨kept, congrArg (packet :: ·) hp, hf, ?_⟩
      rw [heq, filter_filter]
      refine congrArg (fun timers => CbfPacketBuffer.mk _ timers _ _ _ _ _) ?_
      refine filter_congr fun timer _ => ?_
      rw [map_cons, ← Bool.decide_and]
      refine decide_eq_decide.2 ?_
      rw [mem_cons, not_or, and_comm]
    · next hf =>
      refine ⟨packet :: rest, rfl, .inr ?_, ?_⟩
      · simpa using hf
      · simp

def droppedFor (codec : Codec) (packet : CbfPacket) (buffer : CbfPacketBuffer) : List CbfPacket :=
  headDropped codec buffer.capacityBytes buffer.packets (buffer.storedBytes + packet.length codec)

def placed (codec : Codec) (packet : CbfPacket) (expiry now : Int)
  (buffer : CbfPacketBuffer) : CbfPacketBuffer :=
  { buffer with
    packets := buffer.packets ++ [packet]
    timers := insertTimer ⟨expiry, now, packet.identifier, buffer.nextNode⟩ buffer.timers
    nextNode := buffer.nextNode + 1
    counter := buffer.counter.add now packet.identifier
    storedBytes := buffer.storedBytes + packet.length codec }

theorem add_spec (h : buffer.Coupled codec) (htmo : 0 < timeout)
  (packet : CbfPacket) (runtime : Runtime Scope) :
  let dropped := buffer.droppedFor codec packet
  let added := (buffer.add codec packet timeout runtime).1
  ∃ rest, Restricted codec (fun id => id ∉ dropped.map CbfPacket.identifier) buffer rest ∧
    (dropped = [] → rest = buffer) ∧
    (rest.packets = [] ∨ rest.storedBytes + packet.length codec ≤ buffer.capacityBytes) ∧
    ((∃ timer ∈ rest.timers, timer.id = packet.identifier) ∧ added = rest ∨
      (∀ timer ∈ rest.timers, timer.id ≠ packet.identifier) ∧
        added = rest.placed codec packet (runtime.now + timeout) runtime.now) := by
  intro dropped added
  obtain ⟨kept, hp, hf, heq⟩ := dropHeads_eq codec buffer.packets
    { buffer with storedBytes := buffer.storedBytes + packet.length codec }
  dsimp only at hp hf heq
  change buffer.packets = dropped ++ kept at hp
  have hids := h.distinct
  rw [hp] at hids
  have hsum : buffer.octets codec = Lib.octets (length codec) dropped +
        Lib.octets (length codec) kept := by
    rw [octets, hp, octets_append]
  refine ⟨{ buffer with
    packets := kept
    timers := buffer.timers.filter fun timer =>
      timer.id ∉ dropped.map identifier
    counter := dropped.foldl (fun counter cbf => counter.remove cbf.identifier) buffer.counter
    storedBytes := buffer.storedBytes -
      .ofNat (Lib.octets (length codec) dropped) }, ?_, ?_, ?_, ?_⟩
  · refine ⟨?_, rfl, rfl, rfl, ?_⟩
    · rw [hp]
      exact (filter_not_mem_keys hids fun _ => decide_eq_true_iff).symm
    · rw [surplus, surplus, hsum, UInt64.ofNat_add]
      show buffer.storedBytes - _ - .ofNat (Lib.octets (length codec) kept) = _
      grind
  · intro hn
    rw [hn] at hp ⊢
    simp only [map_nil, foldl_nil, octets_nil]
    simp [← nil_append kept ▸ hp]
  · refine hf.imp id fun hle => ?_
    have hs : buffer.storedBytes - .ofNat (Lib.octets (length codec) dropped) +
          packet.length codec =
        buffer.storedBytes + packet.length codec - .ofNat (Lib.octets (length codec) dropped) := by
      grind
    rw [hs]
    exact hle
  · unfold added add
    rw [if_neg (Int.not_le.2 htmo)]
    dsimp only
    rw [apply_ite Prod.fst, ite_self, heq]
    dsimp only
    split
    · next ha =>
      obtain ⟨timer, ht, hid⟩ := any_eq_true.1 ha
      refine .inl ⟨⟨timer, ht, of_decide_eq_true hid⟩, ?_⟩
      have hb : ∀ stored length others : UInt64,
          stored + length - others - length = stored - others := by grind
      rw [hb]
      rfl
    · next ha =>
      refine .inr ⟨fun timer ht hid => ?_, ?_⟩
      · exact ha (any_eq_true.2 ⟨timer, ht, decide_eq_true hid⟩)
      have hs : ∀ stored length others : UInt64,
          stored + length - others = stored - others + length := by grind
      rw [hs]
      rfl

theorem insertTimer_perm (timer : CbfTimer) (timers : List CbfTimer) :
  (insertTimer timer timers).Perm (timer :: timers) := by
  induction timers with
  | nil => exact List.Perm.refl _
  | cons other rest ih =>
    rw [insertTimer]
    split
    · exact List.Perm.refl _
    · exact (ih.cons other).trans (List.Perm.swap timer other rest)

theorem insertTimer_sorted (timer : CbfTimer) {timers : List CbfTimer}
  (h : timers.Pairwise fun a b => a.expiry ≤ b.expiry) :
  (insertTimer timer timers).Pairwise fun a b => a.expiry ≤ b.expiry := by
  induction timers with
  | nil => exact pairwise_singleton _ _
  | cons other rest ih =>
    rw [insertTimer]
    have hr := pairwise_cons.1 h
    split
    · next hlt =>
      refine pairwise_cons.2 ⟨fun later hl => ?_, h⟩
      rcases mem_cons.1 hl with rfl | hl
      · exact hlt.le
      · exact hlt.le.trans (hr.1 later hl)
    · next hn =>
      refine pairwise_cons.2 ⟨fun later hl => ?_, ih hr.2⟩
      rcases mem_insertTimer.1 hl with rfl | hl
      · exact Int.not_lt.1 hn
      · exact hr.1 later hl

theorem Coupled.placed (h : buffer.Coupled codec)
  (hnew : ∀ timer ∈ buffer.timers, timer.id ≠ packet.identifier) (expiry now : Int) :
  (buffer.placed codec packet expiry now).Coupled codec where
  distinct := by
    show ((buffer.packets ++ [packet]).map identifier).Nodup
    rw [map_append, map_singleton, ← concat_eq_append]
    refine h.distinct.concat fun hm => ?_
    obtain ⟨timer, ht, hid⟩ := h.timed.2 (mem_map.1 hm)
    exact hnew timer ht hid
  paired := by
    show ((insertTimer _ buffer.timers).map CbfTimer.id).Perm
      ((buffer.packets ++ [packet]).map identifier)
    rw [map_append]
    refine ((insertTimer_perm _ buffer.timers).map CbfTimer.id).trans ?_
    exact (h.paired.cons _).trans (perm_append_singleton _ _).symm
  sorted := insertTimer_sorted _ h.sorted
  nodes := by
    have hp := (insertTimer_perm ⟨expiry, now, packet.identifier,
      buffer.nextNode⟩ buffer.timers).map CbfTimer.node
    refine hp.nodup_iff.2 (nodup_cons.2 ⟨fun hm => ?_, h.nodes⟩)
    obtain ⟨timer, ht, hn⟩ := mem_map.1 hm
    exact Nat.ne_of_lt (h.fresh timer ht) hn
  fresh timer ht := by
    rcases mem_insertTimer.1 ht with rfl | ht
    · exact Nat.lt_succ_self _
    · exact Nat.lt_succ_of_lt (h.fresh timer ht)
  counted := by
    have hc := h.counted
    rw [surplus, octets] at hc ⊢
    show buffer.storedBytes + packet.length codec -
      .ofNat (Lib.octets _ (buffer.packets ++ [packet])) = 0
    rw [octets_append, octets_cons, octets_nil, Nat.add_zero, UInt64.ofNat_add, UInt64.ofNat_toNat]
    grind

theorem Coupled.add (h : buffer.Coupled codec) (packet : CbfPacket)
  (timeout : Int) (runtime : Runtime Scope) :
  (buffer.add codec packet timeout runtime).1.Coupled codec := by
  by_cases ht : 0 < timeout
  · obtain ⟨rest, hr, -, -, ha⟩ := add_spec h ht packet runtime
    have hc := h.restricted hr
    rcases ha with ⟨-, ha⟩ | ⟨hn, ha⟩
    · rw [ha]
      exact hc
    · rw [ha]
      exact hc.placed hn _ _
  · rw [CbfPacketBuffer.add, if_pos (Int.not_lt.1 ht)]
    exact h

theorem Coupled.restarted_perm (h : buffer.Coupled codec) {timer : CbfTimer}
  (ht : timer ∈ buffer.timers) (expiry start : Int) {β : Type} {field : CbfTimer → β}
  (hf : field { timer with expiry, start } = field timer) :
  ((insertTimer { timer with expiry, start } (buffer.timers.filter
    fun other => other.id ≠ timer.id)).map field).Perm (buffer.timers.map field) := by
  have hs := filter_key_eq h.timers_distinct ht
  have hspl := filter_append_perm (fun other : CbfTimer =>
    decide (other.id = timer.id)) buffer.timers
  simp only [hs, ← decide_not] at hspl
  refine ((insertTimer_perm _ _).map field).trans ?_
  rw [map_cons, hf]
  exact hspl.map field

theorem update_packets (buffer : CbfPacketBuffer) (id : CbfPacketIdentifier)
  (timeout : Int) (runtime : Runtime Scope) :
  ∃ waits : CbfPacket → CbfPacket, (∀ cbf, (waits cbf).identifier = cbf.identifier) ∧
    (∀ codec cbf, (waits cbf).length codec = cbf.length codec) ∧
    (buffer.update id timeout runtime).packets = buffer.packets.map waits := by
  unfold update
  split
  · exact ⟨fun cbf => cbf, fun _ => rfl, fun _ _ => rfl, (map_id' _).symm⟩
  next timer hf =>
  refine ⟨fun cbf => if cbf.identifier = id then
    Buffers.reduced (runtime.now - timer.start) cbf else cbf, ?_, ?_, rfl⟩
  · intro cbf
    dsimp only
    split
    · exact Buffers.identifier_reduced _ cbf
    · rfl
  · intro codec cbf
    dsimp only
    split
    · exact cbf.length_reduced codec _
    · rfl

theorem octets_update (codec : Codec) (buffer : CbfPacketBuffer)
  (id : CbfPacketIdentifier) (timeout : Int) (runtime : Runtime Scope) :
  (buffer.update id timeout runtime).octets codec = buffer.octets codec := by
  obtain ⟨waits, -, hl, hp⟩ := buffer.update_packets id timeout runtime
  rw [octets, hp]
  exact octets_map _ (hl codec) _

theorem update_storedBytes :
  (buffer.update id timeout runtime).storedBytes = buffer.storedBytes := by
  unfold update
  split <;> rfl

theorem Coupled.update (h : buffer.Coupled codec) (id : CbfPacketIdentifier)
  (timeout : Int) (runtime : Runtime Scope) :
  (buffer.update id timeout runtime).Coupled codec := by
  obtain ⟨waits, hids, -, hpk⟩ := buffer.update_packets id timeout runtime
  have hs : (buffer.update id timeout runtime).packets.map
      identifier = buffer.packets.map identifier := by
    rw [hpk, map_map]
    exact map_congr_left fun cbf _ => hids cbf
  have hc : (buffer.update id timeout runtime).surplus codec = 0 := by
    rw [surplus, octets_update, update_storedBytes]
    exact h.counted
  have hd := hs ▸ h.distinct
  have hpa := hs ▸ h.paired
  generalize ha : buffer.update id timeout runtime = after at *
  unfold CbfPacketBuffer.update at ha
  split at ha
  · rw [← ha]
    exact h
  next timer hf =>
  have ht := mem_of_find?_eq_some hf
  have hid : timer.id = id := of_decide_eq_true (find?_some hf :)
  subst hid ha
  have hp : ∀ {β : Type} (field : CbfTimer → β), field { timer with
        expiry := runtime.now + timeout, start := runtime.now } = field timer → _ :=
    fun field hfld => h.restarted_perm ht (runtime.now + timeout) runtime.now hfld
  refine ⟨hd, (hp CbfTimer.id rfl).trans hpa, insertTimer_sorted _ (h.sorted.filter _),
    (hp CbfTimer.node rfl).nodup_iff.2 h.nodes, ?_, hc⟩
  intro other ho
  rcases mem_insertTimer.1 ho with rfl | ho
  · exact h.fresh timer ht
  · exact h.fresh other (mem_of_mem_filter ho)

theorem Coupled.update_nodes (h : buffer.Coupled codec)
  (id : CbfPacketIdentifier) (timeout : Int) (runtime : Runtime Scope) :
  ((buffer.update id timeout runtime).timers.map CbfTimer.node).Perm
      (buffer.timers.map CbfTimer.node) ∧
    (buffer.update id timeout runtime).nextNode = buffer.nextNode := by
  unfold CbfPacketBuffer.update
  split
  · exact ⟨List.Perm.refl _, rfl⟩
  next timer hf =>
  have ht := mem_of_find?_eq_some hf
  have hid : timer.id = id := of_decide_eq_true (find?_some hf :)
  subst hid
  exact ⟨h.restarted_perm ht _ _ rfl, rfl⟩

end CbfPacketBuffer

end Vanetza.Geonet
