import Vanetza.Geonet.PacketBuffer
import Vanetza.Lib.Octets
import Vanetza.Lib.Run

/-!
# The packet buffer in use

A buffer subtracts the octets it stores from its capacity, in machine words, which is right because
the count is the sum of the lengths and not above the capacity.
-/

namespace Vanetza.Geonet

open Lib List PacketBuffer

namespace PacketBuffer

variable {D : Type} {ops : BufferData D} {buffer : PacketBuffer D} {now : Int}

structure Accounted (ops : BufferData D) (buffer : PacketBuffer D) : Prop where
  stored : buffer.stored.toNat = octets (size ops) buffer.nodes
  bounded : buffer.stored ≤ buffer.capacity

theorem accounted_empty (capacity : UInt64) : Accounted ops (create capacity : PacketBuffer D) where
  stored := rfl
  bounded := UInt64.le_iff_toNat_le.2 (Nat.zero_le _)

theorem Accounted.dropExpired (h : buffer.Accounted ops) (now : Int) :
  (buffer.dropExpired ops now).Accounted ops := by
  have hsum := octets_filter_add (size ops) (isExpired now) buffer.nodes
  have hs := h.stored
  have hl : (buffer.dropExpired ops now).stored.toNat = buffer.stored.toNat -
        octets (size ops) (buffer.nodes.filter (isExpired now)) :=
    toNat_foldl_sub (size ops) (by omega)
  refine ⟨?_, UInt64.le_iff_toNat_le.2 ?_⟩
  · rw [hl, hs]
    show _ = octets _ (buffer.nodes.filter fun node => !isExpired now node)
    omega
  rw [hl]
  have hb := UInt64.le_iff_toNat_le.1 h.bounded
  show _ ≤ buffer.capacity.toNat
  omega

theorem dropHeads_accounted (bytes : UInt64) {capacity stored : UInt64}
  {nodes : List (BufferNode D)} (hs : stored.toNat = octets (size ops) nodes)
  (hb : stored ≤ capacity) :
  let left := dropHeads ops capacity bytes nodes stored
  left.1 <:+ nodes ∧ left.2.toNat = octets (size ops) left.1 ∧
    left.2 ≤ capacity ∧ (left.1 = [] ∨ bytes ≤ capacity - left.2) := by
  induction nodes generalizing stored with
  | nil => exact ⟨suffix_refl _, hs, hb, .inl rfl⟩
  | cons node rest ih =>
    rw [dropHeads]
    split
    · -- the head is counted, so the subtraction does not wrap
      rw [octets_cons] at hs
      have hh : size ops node ≤ stored := UInt64.le_iff_toNat_le.2 (by omega)
      have hsub := UInt64.toNat_sub_of_le stored (size ops node) hh
      have hle := UInt64.le_iff_toNat_le.1 hb
      have hl : stored - size ops node ≤ capacity := UInt64.le_iff_toNat_le.2 (by omega)
      obtain ⟨hsuf, hr⟩ := ih (by omega) hl
      exact ⟨hsuf.trans (suffix_cons node rest), hr⟩
    · next hro =>
      exact ⟨suffix_refl _, hs, hb, .inr (UInt64.not_lt.1 hro)⟩

def newNode (ops : BufferData D) (data : D) (now : Int) : BufferNode D :=
  ⟨now, now + (ops.reduceLifetime 0 data).1, data⟩

def unexpired (buffer : PacketBuffer D) (now : Int) : List (BufferNode D) :=
  buffer.nodes.filter fun node => !isExpired now node

theorem push_cases (h : buffer.Accounted ops) (data : D) (now : Int) :
  let bytes : UInt64 := .ofNat (ops.length data)
  let after := buffer.push ops data now
  after.2.capacity = buffer.capacity ∧ after.2.Accounted ops ∧
    (bytes ≤ buffer.capacity ∧ after.1 = true ∧ (∃ rest, rest <:+ buffer.unexpired now ∧
          after.2.nodes = rest ++ [newNode ops data now]) ∨
      buffer.capacity < bytes ∧ after.1 = false ∧ after.2.nodes = []) := by
  intro bytes
  have hexp := h.dropExpired now
  obtain ⟨hsuf, hs, hb, hr⟩ := dropHeads_accounted bytes hexp.stored hexp.bounded
  unfold push
  dsimp only
  generalize hlef : dropHeads ops (buffer.dropExpired ops now).capacity
    (.ofNat (ops.length data)) (buffer.dropExpired ops now).nodes
    (buffer.dropExpired ops now).stored = left at *
  change left.2 ≤ buffer.capacity at hb
  have hfr := UInt64.toNat_sub_of_le buffer.capacity left.2 hb
  have hle := UInt64.le_iff_toNat_le.1 hb
  split
  · next hf =>
    have hbs := UInt64.le_iff_toNat_le.1 hf
    change bytes.toNat ≤ (buffer.capacity - left.2).toNat at hbs
    have hsum : (left.2 + bytes).toNat = left.2.toNat + bytes.toNat := by
      have hw := buffer.capacity.toNat_lt
      rw [UInt64.toNat_add, Nat.mod_eq_of_lt (by omega)]
    refine ⟨rfl, ⟨?_, UInt64.le_iff_toNat_le.2 ?_⟩, .inl ⟨?_, rfl, left.1, hsuf, rfl⟩⟩
    · show (left.2 + bytes).toNat = octets (size ops) (left.1 ++ [_])
      rw [hsum, octets_append, hs, octets_cons, octets_nil]
      rfl
    · show (left.2 + bytes).toNat ≤ buffer.capacity.toNat
      omega
    · exact UInt64.le_iff_toNat_le.2 (by omega)
  · next hf =>
    -- everything was dropped, so that all of the capacity is free
    have hn : left.1 = [] := hr.resolve_right hf
    rw [hn, octets_nil] at hs
    have hl := UInt64.lt_iff_toNat_lt.1 (UInt64.not_le.1 hf)
    change (buffer.capacity - left.2).toNat < bytes.toNat at hl
    refine ⟨rfl, ⟨?_, hb⟩, .inr ⟨?_, rfl, hn⟩⟩
    · show left.2.toNat = octets (size ops) left.1
      rw [hn, hs, octets_nil]
    · exact UInt64.lt_iff_toNat_lt.2 (by omega)

end PacketBuffer

structure BufferUse (D : Type) where
  buffer : PacketBuffer D
  now : Int
  flushing : List (BufferNode D)
  flushTime : Int
  pushed : List (Int × D)
  flushed : List (Int × (Int × D))

inductive BufferUse.Action (D : Type) where
  | push (data : D)
  | flush
  | next
  | elapse (duration : Nat)

namespace BufferUse

variable {D : Type} {ops : BufferData D}

def start (capacity : UInt64) (now : Int) : BufferUse D := ⟨.create capacity, now, [], now, [], []⟩

def origin (node : BufferNode D) : Int × D := (node.bufferedSince, node.data)

def step (ops : BufferData D) (s : BufferUse D) : Action D → BufferUse D
  | .push data =>
    let (accepted, buffer) := s.buffer.push ops data s.now
    { s with
      buffer
      pushed := if accepted then s.pushed ++ [(s.now, data)] else s.pushed }
  | .flush =>
    match s.flushing with
    | [] => { s with
        buffer := ⟨[], s.buffer.capacity, 0⟩
        flushing := s.buffer.nodes
        flushTime := s.now }
    | _ :: _ => s
  | .next =>
    match s.flushing with
    | [] => s
    | node :: rest =>
      if PacketBuffer.isExpired s.flushTime node then
        { s with flushing := rest }
      else { s with
        flushing := rest
        flushed := s.flushed ++ [(s.flushTime, origin node)] }
  | .elapse duration => { s with now := s.now + duration }

structure Orderly (ops : BufferData D) (capacity : UInt64) (s : BufferUse D) : Prop where
  accounted : s.buffer.Accounted ops
  capacity : s.buffer.capacity = capacity
  order : (s.flushed.map (·.2) ++ s.flushing.map origin ++
    s.buffer.nodes.map origin).Sublist s.pushed
  expiry : ∀ node ∈ s.flushing ++ s.buffer.nodes,
    node.expiresAt = node.bufferedSince + (ops.reduceLifetime 0 node.data).1
  alive : ∀ entry ∈ s.flushed, entry.1 ≤ entry.2.1 + (ops.reduceLifetime 0 entry.2.2).1

theorem orderly_start (capacity : UInt64) (now : Int) :
  (start capacity now : BufferUse D).Orderly ops capacity where
  accounted := PacketBuffer.accounted_empty capacity
  capacity := rfl
  order := List.Sublist.refl []
  expiry _ h := by cases h
  alive _ h := by cases h

variable {s : BufferUse D} {capacity : UInt64}

theorem Orderly.push (h : s.Orderly ops capacity) (data : D) :
  (s.step ops (.push data)).Orderly ops capacity := by
  obtain ⟨hc, ha, hcas⟩ := push_cases h.accounted data s.now
  have hex := forall_mem_append.1 h.expiry
  rcases hcas with ⟨-, hp, rest, hs, hn⟩ | ⟨-, hp, hn⟩
  · -- what stays is among what was there
    have hr : rest.Sublist s.buffer.nodes := hs.sublist.trans filter_sublist
    refine ⟨ha, hc.trans h.capacity, ?_, ?_, h.alive⟩
    · simp only [step, hp, if_true, hn, map_append]
      rw [← append_assoc]
      exact (((List.Sublist.refl _).append (hr.map origin)).trans
        h.order).append (List.Sublist.refl _)
    simp only [step, hn]
    refine forall_mem_append.2 ⟨hex.1, ?_⟩
    refine forall_mem_append.2 ⟨fun node hm => ?_, ?_⟩
    · exact hex.2 node (hr.subset hm)
    · exact forall_mem_singleton.2 rfl
  · refine ⟨ha, hc.trans h.capacity, ?_, ?_, h.alive⟩
    · simp only [step, hp, Bool.false_eq_true, if_false, hn]
      exact ((List.Sublist.refl _).append (nil_sublist _)).trans h.order
    · simp only [step, hn, append_nil]
      exact hex.1

theorem Orderly.flush (h : s.Orderly ops capacity) : (s.step ops .flush).Orderly ops capacity := by
  rw [step]
  split
  · next hf =>
    have ho := h.order
    have hex := h.expiry
    rw [hf] at ho hex
    refine ⟨?_, h.capacity, ?_, ?_, h.alive⟩
    · exact accounted_empty s.buffer.capacity
    · simpa using ho
    · simpa using hex
  · exact h

theorem Orderly.next (h : s.Orderly ops capacity) : (s.step ops .next).Orderly ops capacity := by
  rw [step]
  split
  · exact h
  next node rest hf =>
  have ho := h.order
  have hex := h.expiry
  rw [hf] at ho hex
  rw [cons_append] at hex
  have hn := hex node mem_cons_self
  have hr := (forall_mem_cons.1 hex).2
  split
  · refine ⟨h.accounted, h.capacity, ?_, hr, h.alive⟩
    refine List.Sublist.trans ?_ ho
    exact ((List.Sublist.refl _).append (sublist_cons_self _ _)).append (List.Sublist.refl _)
  next hexp =>
  refine ⟨h.accounted, h.capacity, ?_, hr, ?_⟩
  · simpa using ho
  refine forall_mem_append.2 ⟨h.alive, ?_⟩
  refine forall_mem_singleton.2 ?_
  show s.flushTime ≤ node.bufferedSince + (ops.reduceLifetime 0 node.data).1
  rw [← hn]
  simpa [isExpired] using hexp

theorem Orderly.step (h : s.Orderly ops capacity) (act : Action D) :
  (s.step ops act).Orderly ops capacity := by
  cases act with
  | push data => exact h.push data
  | flush => exact h.flush
  | next => exact h.next
  | elapse dur => exact ⟨h.accounted, h.capacity, h.order, h.expiry, h.alive⟩

theorem orderly_run (ops : BufferData D) (capacity : UInt64) (now : Int) (acts : List (Action D)) :
  (run (BufferUse.step ops) (start capacity now) acts).Orderly ops capacity :=
  Run.always (fun _ act h => h.step act) (orderly_start capacity now)

/-- Whatever is pushed and flushed, and whatever is pushed while a flush is
going on, the count is the sum of the lengths and within the capacity. Packets
are flushed in the order of their pushes, each at most once, and not after the
end of their lifetime. -/
theorem accounted_in_order (ops : BufferData D) (capacity : UInt64) (now : Int)
  (actions : List (Action D)) :
  let s := run (step ops) (start capacity now) actions
  s.buffer.stored.toNat = octets (PacketBuffer.size ops) s.buffer.nodes ∧
    s.buffer.stored ≤ capacity ∧ s.buffer.capacity = capacity ∧
    (s.flushed.map (·.2)).Sublist s.pushed ∧
    ∀ entry ∈ s.flushed, entry.1 ≤ entry.2.1 + (ops.reduceLifetime 0 entry.2.2).1 := by
  intro s
  have h := orderly_run ops capacity now actions
  refine ⟨h.accounted.stored, ?_, h.capacity, ?_, h.alive⟩
  · rw [← h.capacity]
    exact h.accounted.bounded
  · refine List.Sublist.trans ?_ h.order
    rw [append_assoc]
    exact sublist_append_left _ _

/-- A rejected packet leaves the others alone if and only if it was not
rejected, or there were no others. -/
theorem push_rejected_keeps_iff (ops : BufferData D) (capacity : UInt64)
  (now : Int) (actions : List (Action D)) (data : D) (time : Int) :
  let buffer := (run (step ops) (start capacity now) actions).buffer
  let after := buffer.push ops data time
  (after.1 = false → (buffer.unexpired time).Sublist after.2.nodes) ↔
    .ofNat (ops.length data) ≤ capacity ∨ buffer.unexpired time = [] := by
  intro buffer after
  have h := orderly_run ops capacity now actions
  obtain ⟨-, -, hc⟩ := push_cases h.accounted data time
  rw [h.capacity] at hc
  rcases hc with ⟨hf, hp, -⟩ | ⟨hl, hp, hnod⟩
  · refine iff_of_true (fun hr => ?_) (.inl hf)
    cases hp.symm.trans hr
  rw [or_iff_right (UInt64.not_le.2 hl)]
  show (after.1 = false → (buffer.unexpired time).Sublist after.2.nodes) ↔ _
  have hn : after.2.nodes = [] := hnod
  rw [hn, sublist_nil]
  exact ⟨fun hk => hk hp, fun hk _ => hk⟩

/-- A buffer for ten octets with one packet of four: a packet of eleven octets is
rejected, and the buffer is empty afterwards. -/
theorem long_packet_empties_buffer :
  let ops : BufferData Nat := ⟨id, fun duration length =>
    (10 ^ 6 - duration, length)⟩
  let buffer := (run (step ops) (start 10 0) [.push 4]).buffer
  let after := buffer.push ops 11 0
  buffer.unexpired 0 = [⟨0, 10 ^ 6, 4⟩] ∧ after.1 = false ∧ after.2.nodes = [] := by
  exact ⟨rfl, rfl, rfl⟩

end BufferUse

end Vanetza.Geonet
