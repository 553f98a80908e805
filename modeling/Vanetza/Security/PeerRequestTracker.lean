import Vanetza.Lib.Keyed
import Vanetza.Lib.Simulation
import Vanetza.Lib.UniqueQueue
import Vanetza.Security.V3.SignHeaderPolicy

/-!
# The tracker of peer requests

`PeerRequestTracker` keeps the requests of peers in a linked list, and a map from each identifier to
its node. Nodes are told apart by when they were allocated. The map always has one entry for each
node of the list, with its identifier, and nothing else.
-/

namespace Vanetza.Security

open Lib

structure RequestNode where
  address : Nat
  id : HashedId3
  deriving DecidableEq

/-- `allocated` nodes have been there so far. -/
structure PeerRequestTracker where
  limit : Nat
  fifo : List RequestNode
  lookup : List (HashedId3 × Nat)
  allocated : Nat

namespace PeerRequestTracker

def create (limit : Nat) : PeerRequestTracker := ⟨limit, [], [], 0⟩

def find (lookup : List (HashedId3 × Nat)) (id : HashedId3) : Option (HashedId3 × Nat) :=
  lookup.find? fun entry => entry.1 = id

def erase (lookup : List (HashedId3 × Nat)) (id : HashedId3) : List (HashedId3 × Nat) :=
  lookup.eraseP fun entry => entry.1 = id

/-- `m_lookup.emplace`: nothing is replaced. -/
def emplace (lookup : List (HashedId3 × Nat)) (id : HashedId3) (node : Nat) :
  List (HashedId3 × Nat) :=
  if (find lookup id).isSome then lookup else (id, node) :: lookup

def isPending (tracker : PeerRequestTracker) (id : HashedId3) : Bool :=
  (find tracker.lookup id).isSome

def popFront (tracker : PeerRequestTracker) : PeerRequestTracker :=
  match tracker.fifo with
  | [] => tracker
  | front :: rest =>
    { tracker with
      fifo := rest
      lookup := erase tracker.lookup front.id }

def insert (tracker : PeerRequestTracker) (id : HashedId3) : PeerRequestTracker :=
  { tracker with
    fifo := tracker.fifo ++ [⟨tracker.allocated, id⟩]
    lookup := emplace tracker.lookup id tracker.allocated
    allocated := tracker.allocated + 1 }

def makeRoom (tracker : PeerRequestTracker) : PeerRequestTracker :=
  if tracker.fifo.length ≥ tracker.limit ∧ tracker.fifo ≠ [] then
    tracker.popFront
  else tracker

def addRequest (tracker : PeerRequestTracker) (id : HashedId3) : PeerRequestTracker :=
  if !tracker.isPending id then tracker.makeRoom.insert id else tracker

def discardRequest (tracker : PeerRequestTracker) (id : HashedId3) : PeerRequestTracker :=
  match find tracker.lookup id with
  | some found =>
    { tracker with
      fifo := tracker.fifo.eraseP fun node => node.address = found.2
      lookup := erase tracker.lookup id }
  | none => tracker

def nextOne (tracker : PeerRequestTracker) : PeerRequestTracker × Option HashedId3 :=
  (tracker.popFront, tracker.fifo.head?.map RequestNode.id)

def all (tracker : PeerRequestTracker) : PeerRequestTracker × List HashedId3 :=
  ({ tracker with lookup := [], fifo := [] }, tracker.fifo.map RequestNode.id)

def nextN (tracker : PeerRequestTracker) (max : Nat) : PeerRequestTracker × List HashedId3 :=
  if max ≥ tracker.fifo.length then tracker.all
  else
    let next := (tracker.fifo.take max).map RequestNode.id
    ({ tracker with
        fifo := tracker.fifo.drop max
        lookup := next.foldl erase tracker.lookup }, next)

def step (tracker : PeerRequestTracker) : UniqueQueue.Call HashedId3 →
  PeerRequestTracker × UniqueQueue.Answer HashedId3
  | .add id => (tracker.addRequest id, .done)
  | .discard id => (tracker.discardRequest id, .done)
  | .contains id => (tracker, .contained (tracker.isPending id))
  | .one => (tracker.nextOne.1, .one tracker.nextOne.2)
  | .several max => ((tracker.nextN max).1, .several (tracker.nextN max).2)
  | .all => (tracker.all.1, .several tracker.all.2)

def entry (node : RequestNode) : HashedId3 × Nat := (node.id, node.address)

structure Consistent (tracker : PeerRequestTracker) : Prop where
  ids : (tracker.fifo.map RequestNode.id).Nodup
  addresses : (tracker.fifo.map RequestNode.address).Nodup
  old : ∀ node ∈ tracker.fifo, node.address < tracker.allocated
  lookup : tracker.lookup.Perm (tracker.fifo.map entry)

variable {lookup : List (HashedId3 × Nat)} {nodes : List RequestNode} {node : RequestNode}

theorem nodup_keys (h : lookup.Perm (nodes.map entry)) (hids : (nodes.map RequestNode.id).Nodup) :
  (lookup.map Prod.fst).Nodup := by
  rw [(h.map Prod.fst).nodup_iff, List.map_map]
  exact hids

theorem erase_perm (h : lookup.Perm (nodes.map entry))
  (hids : (nodes.map RequestNode.id).Nodup) (id : HashedId3) :
  (erase lookup id).Perm ((nodes.filter fun node => node.id ≠ id).map entry) := by
  have hf : nodes.filter (fun node => node.id ≠ id) =
      nodes.filter ((fun e : HashedId3 × Nat => decide (e.1 ≠ id)) ∘ entry) := rfl
  rw [erase, eraseP_key_eq_filter (nodup_keys h hids), hf, ← List.filter_map]
  exact h.filter _

theorem erase_perm_cons (h : lookup.Perm ((node :: nodes).map entry))
  (hids : ((node :: nodes).map RequestNode.id).Nodup) :
  (erase lookup node.id).Perm (nodes.map entry) := by
  have hp := erase_perm h hids node.id
  rw [List.map_cons, List.nodup_cons] at hids
  have hr : (node :: nodes).filter (fun other => other.id ≠ node.id) = nodes := by
    rw [List.filter_cons_of_neg (by simp)]
    refine List.filter_eq_self.2 fun other hm => decide_eq_true fun heq => ?_
    exact hids.1 (heq ▸ List.mem_map_of_mem hm)
  rwa [hr] at hp

/-- The loop of `next_n` takes out of the map what has been taken out of the
list. -/
theorem foldl_erase_perm (next rest : List RequestNode) (h : lookup.Perm ((next ++ rest).map entry))
  (hids : ((next ++ rest).map RequestNode.id).Nodup) :
  ((next.map RequestNode.id).foldl erase lookup).Perm (rest.map entry) := by
  induction next generalizing lookup with
  | nil => exact h
  | cons node next ih =>
    have hr : ((next ++ rest).map RequestNode.id).Nodup := by
      rw [List.cons_append, List.map_cons, List.nodup_cons] at hids
      exact hids.2
    exact ih (erase_perm_cons h hids) hr

namespace Consistent

variable {tracker : PeerRequestTracker} (h : tracker.Consistent)

include h

theorem isPending_iff (id : HashedId3) :
  tracker.isPending id = true ↔ id ∈ tracker.fifo.map RequestNode.id := by
  rw [isPending, find, List.find?_isSome]
  constructor
  · intro hf
    obtain ⟨e, hm, he⟩ := hf
    obtain ⟨node, hn, rfl⟩ := List.mem_map.1 (h.lookup.mem_iff.1 hm)
    exact List.mem_map.2 ⟨node, hn, of_decide_eq_true he⟩
  · intro hid
    obtain ⟨node, hn, rfl⟩ := List.mem_map.1 hid
    exact ⟨entry node, h.lookup.mem_iff.2 (List.mem_map_of_mem hn), decide_eq_true rfl⟩

theorem length_lookup : tracker.fifo.length = tracker.lookup.length := by
  rw [h.lookup.length_eq, List.length_map]

theorem find_eq (hn : node ∈ tracker.fifo) :
  find tracker.lookup node.id = some (entry node) := by
  have hk := nodup_keys h.lookup h.ids
  exact find?_key_eq hk (h.lookup.mem_iff.2 (List.mem_map_of_mem hn))

theorem of_sublist (hn : nodes.Sublist tracker.fifo) (hl : lookup.Perm (nodes.map entry)) :
  Consistent { tracker with fifo := nodes, lookup := lookup } where
  ids := h.ids.sublist (hn.map _)
  addresses := h.addresses.sublist (hn.map _)
  old := fun node hm => h.old node (hn.subset hm)
  lookup := hl

theorem popFront : tracker.popFront.Consistent := by
  unfold PeerRequestTracker.popFront
  split
  · exact h
  next front rest hf =>
  have hl := h.lookup
  have hids := h.ids
  rw [hf] at hl hids
  refine h.of_sublist ?_ (erase_perm_cons hl hids)
  rw [hf]
  exact List.sublist_cons_self front rest

variable {id : HashedId3}

theorem insert (hid : id ∉ tracker.fifo.map RequestNode.id) : (tracker.insert id).Consistent := by
  have hnot : ¬ (find tracker.lookup id).isSome = true := by
    intro hf
    exact hid ((h.isPending_iff id).1 hf)
  refine ⟨?_, ?_, ?_, ?_⟩
  · show ((tracker.fifo ++ [_]).map RequestNode.id).Nodup
    rw [List.map_append, List.map_singleton, ← List.concat_eq_append]
    exact h.ids.concat hid
  · show ((tracker.fifo ++ [_]).map RequestNode.address).Nodup
    rw [List.map_append, List.map_singleton, ← List.concat_eq_append]
    refine h.addresses.concat fun hm => ?_
    obtain ⟨node, hn, heq⟩ := List.mem_map.1 hm
    exact absurd (h.old node hn) (by rw [heq]; exact lt_irrefl _)
  · intro node hm
    obtain hm | hm := List.mem_append.1 hm
    · exact Nat.lt_succ_of_lt (h.old node hm)
    · rw [List.mem_singleton.1 hm]
      exact Nat.lt_succ_self _
  · show (emplace _ _ _).Perm ((tracker.fifo ++ [_]).map entry)
    rw [emplace, if_neg hnot, List.map_append]
    exact (h.lookup.cons _).trans (List.perm_append_singleton _ _).symm

theorem discardRequest_eq (hn : node ∈ tracker.fifo) :
  tracker.discardRequest node.id = { tracker with
    fifo := tracker.fifo.filter fun other => other.id ≠ node.id
    lookup := erase tracker.lookup node.id } := by
  have hf : tracker.fifo.eraseP (fun other => other.address = node.address) =
      tracker.fifo.filter fun other => other.id ≠ node.id := by
    rw [eraseP_key_eq_filter h.addresses]
    refine List.filter_congr fun other ho => ?_
    rw [decide_eq_decide, not_iff_not]
    constructor
    · intro heq
      rw [List.inj_on_of_nodup_map h.addresses ho hn heq]
    · intro heq
      rw [List.inj_on_of_nodup_map h.ids ho hn heq]
  rw [discardRequest, h.find_eq hn]
  show { tracker with fifo := _, lookup := _ } = _
  rw [← hf]
  rfl

theorem discardRequest_of_not_mem (hid : id ∉ tracker.fifo.map RequestNode.id) :
  tracker.discardRequest id = tracker := by
  have hn : find tracker.lookup id = none := by
    rw [← Option.not_isSome_iff_eq_none]
    exact fun hf => hid ((h.isPending_iff id).1 hf)
  rw [discardRequest, hn]

theorem nextN (max : Nat) : (tracker.nextN max).1.Consistent := by
  unfold PeerRequestTracker.nextN
  split
  · exact h.of_sublist (List.nil_sublist _) (List.Perm.refl [])
  refine h.of_sublist (List.drop_sublist max _) (foldl_erase_perm (tracker.fifo.take max) _ ?_ ?_)
  · rw [List.take_append_drop]
    exact h.lookup
  · rw [List.take_append_drop]
    exact h.ids

end Consistent

end PeerRequestTracker

namespace V3.PeerRequestTracker

def nextOne (tracker : PeerRequestTracker) : PeerRequestTracker × Option HashedId3 :=
  ({ tracker with fifo := tracker.fifo.tail }, tracker.fifo.head?)

def nextN (tracker : PeerRequestTracker) (max : Nat) : PeerRequestTracker × List HashedId3 :=
  ({ tracker with fifo := tracker.fifo.drop max }, tracker.fifo.take max)

def step (tracker : PeerRequestTracker) : UniqueQueue.Call HashedId3 →
  PeerRequestTracker × UniqueQueue.Answer HashedId3
  | .add id => (tracker.addRequest id, .done)
  | .discard id => (tracker.discardRequest id, .done)
  | .contains id => (tracker, .contained (tracker.isPending id))
  | .one => (tracker.nextOne.1, .one tracker.nextOne.2)
  | .several max => ((tracker.nextN max).1, .several (tracker.nextN max).2)
  | .all => (tracker.all.2, .several tracker.all.1)

end V3.PeerRequestTracker

namespace PeerRequestTracker

def queue (tracker : PeerRequestTracker) : V3.PeerRequestTracker :=
  ⟨tracker.fifo.map RequestNode.id, tracker.limit⟩

theorem queue_popFront (tracker : PeerRequestTracker) : tracker.popFront.queue =
  { tracker.queue with fifo := tracker.queue.fifo.tail } := by
  unfold popFront queue
  split
  · next hf => simp [hf]
  · next front rest hf => simp [hf]

theorem queue_makeRoom (tracker : PeerRequestTracker) : tracker.makeRoom.queue =
    if tracker.queue.limit ≤ tracker.queue.fifo.length then
      { tracker.queue with fifo := tracker.queue.fifo.tail }
    else tracker.queue := by
  have hl : tracker.queue.fifo.length = tracker.fifo.length := List.length_map _
  unfold makeRoom
  rw [hl]
  by_cases hfull : tracker.limit ≤ tracker.fifo.length
  · rw [if_pos (show tracker.queue.limit ≤ _ from hfull)]
    split
    · exact tracker.queue_popFront
    next hemp =>
    have hn : tracker.fifo = [] := by
      by_contra hne
      exact hemp ⟨hfull, hne⟩
    simp [queue, hn]
  · rw [if_neg (show ¬ tracker.queue.limit ≤ _ from hfull), if_neg fun hb => hfull hb.1]

theorem queue_makeRoom_sublist {tracker : PeerRequestTracker} :
  tracker.makeRoom.queue.fifo.Sublist tracker.queue.fifo := by
  rw [queue_makeRoom]
  split
  · exact List.tail_sublist _
  · exact List.Sublist.refl _

theorem queue_insert (tracker : PeerRequestTracker) (id : HashedId3) : (tracker.insert id).queue =
    { tracker.queue with fifo := tracker.queue.fifo ++ [id] } := by
  unfold insert queue
  simp

namespace Consistent

variable {tracker : PeerRequestTracker} (h : tracker.Consistent)

include h

theorem isPending_eq (id : HashedId3) : tracker.isPending id = tracker.queue.isPending id := by
  rw [Bool.eq_iff_iff, h.isPending_iff]
  exact (decide_eq_true_iff).symm

theorem makeRoom : tracker.makeRoom.Consistent := by
  unfold PeerRequestTracker.makeRoom
  split
  · exact h.popFront
  · exact h

theorem addRequest (id : HashedId3) : (tracker.addRequest id).Consistent ∧
    (tracker.addRequest id).queue = tracker.queue.addRequest id := by
  unfold PeerRequestTracker.addRequest V3.PeerRequestTracker.addRequest
  rw [← h.isPending_eq]
  cases hp : tracker.isPending id with
  | true => exact ⟨h, rfl⟩
  | false =>
    have hid : id ∉ tracker.fifo.map RequestNode.id := fun hm =>
      absurd ((h.isPending_iff id).2 hm) (by rw [hp]; decide)
    have hid' : id ∉ tracker.makeRoom.queue.fifo := fun hm =>
      hid (queue_makeRoom_sublist.subset hm)
    refine ⟨h.makeRoom.insert hid', ?_⟩
    show (tracker.makeRoom.insert id).queue = ite _ _ _
    rw [queue_insert, queue_makeRoom]
    split <;> rfl

theorem discardRequest (id : HashedId3) : (tracker.discardRequest id).Consistent ∧
    (tracker.discardRequest id).queue = tracker.queue.discardRequest id := by
  have her : (tracker.fifo.map RequestNode.id).erase id =
      (tracker.fifo.filter fun other => other.id ≠ id).map RequestNode.id := by
    rw [h.ids.erase_eq_filter, List.filter_map]
    congr 2
    funext other
    simp [bne, beq_eq_decide]
  by_cases hid : id ∈ tracker.fifo.map RequestNode.id
  · obtain ⟨node, hn, rfl⟩ := List.mem_map.1 hid
    rw [h.discardRequest_eq hn]
    refine ⟨h.of_sublist List.filter_sublist (erase_perm h.lookup h.ids _), ?_⟩
    rw [V3.PeerRequestTracker.discardRequest, queue, queue, her]
  · rw [h.discardRequest_of_not_mem hid, V3.PeerRequestTracker.discardRequest,
      queue, List.erase_of_not_mem hid]
    exact ⟨h, rfl⟩

end Consistent

theorem queue_nextOne (tracker : PeerRequestTracker) :
  tracker.nextOne.1.queue = tracker.queue.nextOne.1 ∧ tracker.nextOne.2 = tracker.queue.nextOne.2 :=
  ⟨tracker.queue_popFront, List.head?_map.symm⟩

theorem queue_nextN (tracker : PeerRequestTracker) (max : Nat) :
  (tracker.nextN max).1.queue = (tracker.queue.nextN max).1 ∧
    (tracker.nextN max).2 = (tracker.queue.nextN max).2 := by
  have hl : (tracker.fifo.map RequestNode.id).length = tracker.fifo.length := List.length_map _
  unfold nextN V3.PeerRequestTracker.nextN
  split
  · next hm =>
    rw [all, queue, queue, List.drop_eq_nil_of_le (by rwa [hl]),
      List.take_of_length_le (by rwa [hl])]
    exact ⟨rfl, rfl⟩
  · rw [queue, queue, ← List.map_drop, ← List.map_take]
    exact ⟨rfl, rfl⟩

theorem simulates_queue : Simulates step V3.PeerRequestTracker.step
  fun tracker q => tracker.Consistent ∧ tracker.queue = q := by
  intro tracker q call hq
  obtain ⟨h, rfl⟩ := hq
  cases call with
  | add id => exact ⟨rfl, h.addRequest id⟩
  | discard id => exact ⟨rfl, h.discardRequest id⟩
  | contains id => exact ⟨congrArg _ (h.isPending_eq id), h, rfl⟩
  | one =>
    obtain ⟨hque, hn⟩ := tracker.queue_nextOne
    exact ⟨congrArg _ hn, h.popFront, hque⟩
  | several max =>
    obtain ⟨hque, hn⟩ := tracker.queue_nextN max
    exact ⟨congrArg _ hn, h.nextN max, hque⟩
  | all => exact ⟨rfl, h.of_sublist (List.nil_sublist _) (List.Perm.refl []), rfl⟩

theorem withRoom_eq {limit : Nat} (u : UniqueQueue HashedId3 limit) :
  u.withRoom = if limit ≤ u.items.length then u.items.tail else u.items := by
  have hle := u.length_le
  unfold UniqueQueue.withRoom UniqueQueue.isFull
  by_cases hfull : u.items.length = max limit 1
  · rw [if_pos (decide_eq_true hfull), if_pos (by omega)]
  rw [if_neg (by simpa using hfull)]
  split
  · -- nothing is there yet, and nothing may be
    have hn : u.items = [] := List.length_eq_zero_iff.1 (by omega)
    rw [hn, List.tail_nil]
  · rfl

theorem queue_simulates {limit : Nat} : Simulates V3.PeerRequestTracker.step
    (UniqueQueue.step : UniqueQueue HashedId3 limit → _ → _)
    fun q u => q.limit = limit ∧ q.fifo = u.items := by
  intro q u call h
  obtain ⟨fifo, limit'⟩ := q
  obtain ⟨hl, hf⟩ := h
  dsimp only at hl hf
  subst hl hf
  cases call with
  | add id =>
    refine ⟨rfl, ?_, ?_⟩
    · show (V3.PeerRequestTracker.addRequest _ _).limit = _
      unfold V3.PeerRequestTracker.addRequest
      split
      · rfl
      · split <;> rfl
    · show (V3.PeerRequestTracker.addRequest _ _).fifo = (u.add id).items
      rw [u.items_add, withRoom_eq]
      unfold V3.PeerRequestTracker.addRequest V3.PeerRequestTracker.isPending
      by_cases hm : id ∈ u.items
      · rw [if_pos (decide_eq_true hm), if_pos hm]
      · rw [if_neg (by simpa using hm), if_neg hm]
        split <;> rfl
  | discard id | contains id => exact ⟨rfl, rfl, rfl⟩
  | one => exact ⟨rfl, rfl, List.drop_one.symm⟩
  | several max => exact ⟨rfl, rfl, rfl⟩
  | all => exact ⟨rfl, rfl, List.drop_length.symm⟩

/-- For any calls, the tracker answers as a queue without repetition does that
holds at most so many identifiers, and its requests are those in the queue. -/
theorem tracker_is_unique_queue (limit : Nat) (calls : List (UniqueQueue.Call HashedId3)) :
  let tracker := after step (create limit) calls
  let queue := after UniqueQueue.step
    (UniqueQueue.empty limit : UniqueQueue HashedId3 limit) calls
  answers step (create limit) calls = answers UniqueQueue.step
        (UniqueQueue.empty limit : UniqueQueue HashedId3 limit) calls ∧
    tracker.fifo.map RequestNode.id = queue.items ∧
    (∀ id, tracker.isPending id = true ↔ id ∈ queue.items) ∧
    queue.items.Nodup ∧ queue.items.length ≤ max limit 1 ∧
    tracker.fifo.length = tracker.lookup.length := by
  intro tracker queue
  have hs := simulates_queue.trans (@queue_simulates limit)
  have hc : (create limit).Consistent :=
    ⟨List.nodup_nil, List.nodup_nil, fun _ hm => absurd hm List.not_mem_nil, List.Perm.refl []⟩
  have hst : ∃ q, ((create limit).Consistent ∧ (create limit).queue = q) ∧ q.limit = limit ∧
      q.fifo = (UniqueQueue.empty limit : UniqueQueue HashedId3 limit).items :=
    ⟨_, ⟨hc, rfl⟩, rfl, rfl⟩
  obtain ⟨q, ⟨h, hq⟩, -, hits⟩ := hs.after hst calls
  have hf : tracker.fifo.map RequestNode.id = queue.items := by
    rw [← hq] at hits
    exact hits
  refine ⟨hs.answers_eq hst calls, hf, fun id => ?_, queue.nodup, queue.length_le, h.length_lookup⟩
  rw [← hf]
  exact h.isPending_iff id

end PeerRequestTracker

end Vanetza.Security
