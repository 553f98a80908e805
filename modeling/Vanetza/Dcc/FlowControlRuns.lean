import Vanetza.Dcc.FlowControl
import Vanetza.Lib.Lane

/-!
# What becomes of the packets given to the flow control

A packet is handed over at once, or waits in the queue of its access category until a timer hands it
over, its lifetime ends, or a later packet needs its place. Each category is a lane.
-/

namespace Vanetza.Dcc.FlowControl

open Lib List

variable {σ : Type} {rc : RateControl σ} {s : FlowControl σ}

def lane (s : FlowControl σ) (ac : AccessCategory) : Lane PendingTransmission where
  admitted := s.requested.filter fun pending => pending.category = ac
  waiting := s.queues ac
  delivered := (s.transmitted.map Handover.toPendingTransmission).filter
    fun pending => pending.category = ac
  removed := (s.discarded.filter fun gone => gone.1 = ac).map Prod.snd

variable {pending : PendingTransmission} {ac chosen : AccessCategory}
  {best : Choice σ} {acs : List AccessCategory}

theorem category_of_admitted (h : pending ∈ (s.lane ac).admitted) :
  pending ∈ s.requested ∧ pending.category = ac := by
  have hm := mem_filter.mp h
  exact ⟨hm.1, of_decide_eq_true hm.2⟩

theorem removed_from (queue : List PendingTransmission) (ac ac' : AccessCategory) :
  ((queue.map (Prod.mk ac')).filter fun gone => gone.1 = ac).map Prod.snd =
    if ac' = ac then queue else [] := by
  rw [filter_map, map_map]
  split
  · next h => simp [Function.comp_def, h]
  · next h => simp [Function.comp_def, h]

theorem expired_of_category (s : FlowControl σ) (ac : AccessCategory) :
  (s.expired.filter fun gone => gone.1 = ac).map Prod.snd = (s.queues ac).filter s.isExpired := by
  rw [expired, filter_flatMap, map_flatMap]
  simp only [removed_from, AccessCategory.descending]
  cases ac <;> simp

theorem lane_dropExpired (s : FlowControl σ) (ac : AccessCategory) :
  s.dropExpired.lane ac = (s.lane ac).remove
    ((s.queues ac).filter fun pending => !s.isExpired pending)
    ((s.queues ac).filter s.isExpired) := by
  rw [← expired_of_category]
  simp only [lane, dropExpired, Lane.remove, filter_append, map_append]

theorem lane_transmit_new (s : FlowControl σ) (trc : σ) (tx : Transmission)
  (pending : PendingTransmission) (fromQueue : Bool) (ac : AccessCategory) :
  (transmit rc { s with
      trc := trc
      requested := s.requested ++ [pending] } tx pending fromQueue).lane ac =
    if pending.category = ac then (s.lane ac).pass pending
    else s.lane ac := by
  split
  · next h => simp [lane, transmit, Lane.pass, filter_append, h]
  · next h => simp [lane, transmit, filter_append, h]

theorem makeRoom_append (limit : Nat) (queue : List PendingTransmission) :
  (makeRoom limit queue).2 ++ (makeRoom limit queue).1 = queue := by
  induction queue with
  | nil => rfl
  | cons head rest ih =>
    rw [makeRoom]
    split
    · show head :: ((makeRoom limit rest).2 ++ (makeRoom limit rest).1) = _
      rw [ih]
    · rfl

theorem makeRoom_eq_nil_iff (limit : Nat) (queue : List PendingTransmission) :
  (makeRoom limit queue).2 = [] ↔ ¬(0 < limit ∧ limit ≤ queue.length) := by
  cases queue with
  | nil =>
    simp only [makeRoom, length_nil, true_iff]
    omega
  | cons head rest =>
    rw [makeRoom]
    split
    · next h => simpa using h
    · next h => simpa using h

/-- What `enqueue` does, up to the timer it may set. -/
def place (s : FlowControl σ) (pending : PendingTransmission) : FlowControl σ :=
  let room := makeRoom s.queueLength (s.queues pending.category)
  { s.setQueue pending.category (room.1 ++ [pending]) with
    dropped := s.dropped ++ room.2.map fun _ =>
      pending.dropped pending.category
    discarded := s.discarded ++ room.2.map (Prod.mk pending.category) }

theorem enqueue_eq (s : FlowControl σ) (serial : Nat) (req : DataRequest) (pkt : Packet) :
  let pending : PendingTransmission := ⟨serial, s.now + req.lifetime, req, pkt⟩
  s.enqueue rc serial req pkt =
    if s.isEmpty then
      (s.place pending).scheduleTrigger rc pending.transmission
    else s.place pending :=
  rfl

theorem lane_place_new (s : FlowControl σ) (trc : σ)
  (pending : PendingTransmission) (ac : AccessCategory) :
  (place { s with
      trc := trc
      requested := s.requested ++ [pending] } pending).lane ac =
    if pending.category = ac then
      ((s.lane ac).remove (makeRoom s.queueLength (s.queues ac)).1
        (makeRoom s.queueLength (s.queues ac)).2).join pending
    else s.lane ac := by
  split
  · next h =>
    subst h
    simp [lane, place, setQueue, Lane.remove, Lane.join, removed_from, filter_append]
  · next h =>
    simp [lane, place, setQueue, removed_from, filter_append, h, Ne.symm h]

structure Proper (handover : Handover) : Prop where
  category : handover.category = handover.toPendingTransmission.category
  inLifetime : handover.fromQueue = true → handover.time ≤ handover.expiry

structure Consistent (s : FlowControl σ) : Prop where
  serials : s.requested.map PendingTransmission.serial = List.range s.requested.length
  lanes : ∀ ac, (s.lane ac).Accounted
  handovers : ∀ handover ∈ s.transmitted, Proper handover

theorem Consistent.frame {s' : FlowControl σ} (h : Consistent s)
  (hq : s'.queues = s.queues) (hr : s'.requested = s.requested)
  (ht : s'.transmitted = s.transmitted) (hd : s'.discarded = s.discarded) : Consistent s' where
  serials := by rw [hr, h.serials]
  lanes ac := by
    have hl : s'.lane ac = s.lane ac := by rw [lane, lane, hq, hr, ht, hd]
    rw [hl]
    exact h.lanes ac
  handovers := by
    rw [ht]
    exact h.handovers

theorem Consistent.initial (now : Int) (trc : σ) : Consistent (FlowControl.initial now trc) where
  serials := rfl
  lanes _ := Lane.Accounted.empty
  handovers _ h := absurd h List.not_mem_nil

theorem Consistent.category_of_queued (h : Consistent s) (hqd : pending ∈ s.queues ac) :
  pending ∈ s.requested ∧ pending.category = ac :=
  category_of_admitted ((h.lanes ac).mem_admitted_of_waiting hqd)

theorem Consistent.category_of_discarded (h : Consistent s)
  {gone : AccessCategory × PendingTransmission} (hg : gone ∈ s.discarded) :
  gone.2 ∈ s.requested ∧ gone.2.category = gone.1 := by
  have hr : gone.2 ∈ (s.lane gone.1).removed :=
    mem_map_of_mem (mem_filter.mpr ⟨hg, decide_eq_true rfl⟩)
  exact category_of_admitted ((h.lanes gone.1).mem_admitted_of_removed hr)

theorem Consistent.dropExpired (h : Consistent s) : Consistent s.dropExpired where
  serials := h.serials
  lanes ac := by
    rw [lane_dropExpired]
    refine (h.lanes ac).remove filter_sublist ?_
    exact perm_append_comm.trans (filter_append_perm _ _)
  handovers := h.handovers

theorem serials_append {requested : List PendingTransmission}
  (h : requested.map PendingTransmission.serial =
    List.range requested.length) (hs : pending.serial = requested.length) :
  (requested ++ [pending]).map PendingTransmission.serial =
    List.range (requested ++ [pending]).length := by
  rw [map_append, h, length_append, length_singleton, range_succ, map_singleton, hs]

theorem Consistent.transmit_new (h : Consistent s) (trc : σ) (tx : Transmission)
  (hs : pending.serial = s.requested.length) (hemp : s.queues pending.category = []) :
  Consistent (transmit rc { s with
    trc := trc
    requested := s.requested ++ [pending] } tx pending false) where
  serials := serials_append h.serials hs
  lanes ac := by
    rw [lane_transmit_new]
    split
    · next hac =>
      subst hac
      exact (h.lanes _).pass hemp pending
    · exact h.lanes ac
  handovers := by
    refine forall_mem_append.mpr ⟨h.handovers, ?_⟩
    refine forall_mem_singleton.mpr ⟨rfl, fun hq => ?_⟩
    exact absurd hq Bool.false_ne_true

theorem Consistent.place_new (h : Consistent s) (trc : σ)
  (hs : pending.serial = s.requested.length) :
  Consistent (place { s with
    trc := trc
    requested := s.requested ++ [pending] } pending) where
  serials := serials_append h.serials hs
  lanes ac := by
    have ha := makeRoom_append s.queueLength (s.queues ac)
    rw [lane_place_new]
    split
    · refine Lane.Accounted.join ((h.lanes ac).remove ?_ ?_) pending
      · show List.Sublist _ (s.queues ac)
        nth_rewrite 2 [← ha]
        exact sublist_append_right _ _
      · show List.Perm _ (s.queues ac)
        nth_rewrite 3 [← ha]
        exact perm_append_comm
    · exact h.lanes ac
  handovers := h.handovers

theorem Consistent.scheduleTrigger (h : Consistent s) (tx : Transmission) :
  Consistent (s.scheduleTrigger rc tx) :=
  h.frame rfl rfl rfl rfl

theorem queue_empty_of_transmitImmediately {tx : Transmission}
  (h : (s.transmitImmediately rc tx).1 = true) :
  s.queues (mapProfileOntoAc tx.profile) = [] := by
  unfold transmitImmediately at h
  split at h
  · exact absurd h Bool.false_ne_true
  next hc =>
  have hn := any_eq_false.mp (Bool.not_eq_true _ ▸ hc)
    (mapProfileOntoAc tx.profile) (AccessCategory.mem_descending _)
  simpa using hn

theorem Consistent.request (h : Consistent s) (req : DataRequest)
  (pkt : Packet) : Consistent (s.request rc req pkt) := by
  unfold FlowControl.request
  dsimp only
  split
  · next himm =>
    exact h.dropExpired.transmit_new _ _ rfl (queue_empty_of_transmitImmediately himm)
  have hp := h.dropExpired.place_new (s.dropExpired.transmitImmediately rc
      ⟨req.dccProfile, pkt.length, false⟩).2
    (show (s.dropExpired.pendingFor req pkt).serial = s.dropExpired.requested.length from rfl)
  rw [enqueue_eq]
  split
  · exact hp.scheduleTrigger _
  · exact hp

theorem pickQueue_next (h : (s.pickQueue rc best ac).next = some chosen) :
  best.next = some chosen ∨ s.queues chosen ≠ [] := by
  unfold pickQueue at h
  split at h
  · exact .inl h
  next head rest hque =>
  dsimp only at h
  split at h
  · obtain rfl := Option.some.inj h
    exact .inr (by rw [hque]; exact cons_ne_nil _ _)
  · exact .inl h

theorem foldl_pickQueue_next (h : (acs.foldl (s.pickQueue rc) best).next = some chosen) :
  best.next = some chosen ∨ s.queues chosen ≠ [] := by
  induction acs generalizing best with
  | nil => exact .inl h
  | cons ac acs ih =>
    rcases ih h with hn | hq
    · exact pickQueue_next hn
    · exact .inr hq

theorem nextQueue_nonempty (h : (s.nextQueue rc).next = some ac) : s.queues ac ≠ [] := by
  rcases foldl_pickQueue_next h with hn | hq
  · exact absurd hn (Option.some_ne_none ac).symm
  · exact hq

theorem dequeue_cases (rc : RateControl σ) (s : FlowControl σ) :
  (s.dequeue rc = (none, { s with trc := (s.nextQueue rc).trc }) ∧ (s.nextQueue rc).next = none) ∨
  ∃ ac head rest, s.queues ac = head :: rest ∧ s.dequeue rc = (some head,
      { s with trc := (s.nextQueue rc).trc }.setQueue ac rest) := by
  unfold dequeue
  dsimp only
  split
  · next hno => exact .inl ⟨rfl, hno⟩
  next ac hn =>
  obtain ⟨head, rest, hq⟩ := exists_cons_of_ne_nil (nextQueue_nonempty hn)
  refine .inr ⟨ac, head, rest, hq, ?_⟩
  rw [hq, head?_cons, tail_cons]

theorem lane_transmit_front (s : FlowControl σ) (trc : σ) (tx : Transmission)
  (head : PendingTransmission) (rest : List PendingTransmission) (ac : AccessCategory) :
  (transmit rc ({ s with trc := trc }.setQueue head.category rest) tx head true).lane ac =
    if head.category = ac then (s.lane ac).deliver head rest
    else s.lane ac := by
  split
  · next h =>
    subst h
    simp [lane, transmit, setQueue, Lane.deliver, filter_append]
  · next h =>
    simp [lane, transmit, setQueue, filter_append, h, Ne.symm h]

theorem Consistent.transmit_front (h : Consistent s) (trc : σ)
  (tx : Transmission) {head : PendingTransmission} {rest : List PendingTransmission}
  (hq : s.queues head.category = head :: rest) (hl : s.now ≤ head.expiry) :
  Consistent (transmit rc ({ s with trc := trc }.setQueue head.category rest) tx head true) where
  serials := h.serials
  lanes ac := by
    rw [lane_transmit_front]
    split
    · next hac =>
      subst hac
      exact (h.lanes _).deliver hq
    · exact h.lanes ac
  handovers := by
    refine forall_mem_append.mpr ⟨h.handovers, ?_⟩
    exact forall_mem_singleton.mpr ⟨rfl, fun _ => hl⟩

theorem now_le_expiry_of_dropExpired (h : pending ∈ s.dropExpired.queues ac) :
  s.now ≤ pending.expiry := by
  have hk := (mem_filter.mp h).2
  simpa [isExpired] using hk

theorem Consistent.nextTransmission (h : Consistent s) : Consistent (s.nextTransmission rc).2 :=
  h.frame rfl rfl rfl rfl

theorem Consistent.scheduleNext (h : Consistent s) : Consistent (s.scheduleNext rc) := by
  unfold FlowControl.scheduleNext
  dsimp only
  split
  · exact h.nextTransmission
  · exact h.nextTransmission.scheduleTrigger _

theorem Consistent.trigger (h : Consistent s) : Consistent (s.trigger rc) := by
  unfold FlowControl.trigger
  refine Consistent.scheduleNext ?_
  rcases dequeue_cases rc s.dropExpired with
    ⟨hd, -⟩ | ⟨ac, head, rest, hq, hd⟩
  · rw [hd]
    exact h.dropExpired.frame rfl rfl rfl rfl
  have hh : head ∈ s.dropExpired.queues ac := by
    rw [hq]
    exact mem_cons_self
  have hl : s.now ≤ head.expiry := now_le_expiry_of_dropExpired hh
  obtain ⟨-, rfl⟩ := h.dropExpired.category_of_queued hh
  rw [hd]
  exact h.dropExpired.transmit_front _ _ hq hl

theorem Consistent.reschedule (h : Consistent s) : Consistent (s.reschedule rc) := by
  unfold FlowControl.reschedule
  dsimp only
  split
  · exact h.nextTransmission
  · refine Consistent.scheduleTrigger ?_ _
    exact h.frame rfl rfl rfl rfl

theorem Consistent.step (h : Consistent s) (act : Action) : Consistent (s.step rc act) := by
  cases act with
  | advance dur => exact h.frame rfl rfl rfl rfl
  | request req pkt => exact h.request req pkt
  | reschedule => exact h.reschedule
  | setQueueLength length => exact h.frame rfl rfl rfl rfl
  | fire i =>
    rw [FlowControl.step]
    split
    · split
      · refine Consistent.trigger ?_
        exact h.frame rfl rfl rfl rfl
      · exact h
    · exact h

theorem Consistent.run (rc : RateControl σ) (now : Int) (trc : σ) (acts : List Action) :
  Consistent (Lib.run (FlowControl.step rc) (FlowControl.initial now trc) acts) := by
  have hstep : ∀ s act, Consistent s → Consistent (FlowControl.step rc s act) := fun _ act h =>
    h.step act
  exact Run.always hstep (Consistent.initial now trc)

/-- Every delay is below `Clock::duration::max()`. -/
def Bounded (rc : RateControl σ) : Prop := ∀ st t tx, (rc.delay st t tx).1 < maxDuration

def Undecided (best : Choice σ) : Prop := best.next = none → best.minDelay = maxDuration

theorem pickQueue_none (hrc : Bounded rc) (hb : Undecided best) :
  Undecided (s.pickQueue rc best ac) ∧ ((s.pickQueue rc best ac).next = none →
      best.next = none ∧ s.queues ac = []) := by
  unfold pickQueue
  split
  · next hq => exact ⟨hb, fun hn => ⟨hn, hq⟩⟩
  next head rest hq =>
  dsimp only
  split
  · exact ⟨fun hn => absurd hn (Option.some_ne_none _), fun hn => absurd hn (Option.some_ne_none _)⟩
  next hd =>
  refine ⟨hb, fun hn => absurd ?_ hd⟩
  rw [hb hn]
  exact hrc _ _ _

theorem foldl_pickQueue_none (hrc : Bounded rc) (hb : Undecided best)
  (hn : (acs.foldl (s.pickQueue rc) best).next = none) :
  best.next = none ∧ ∀ ac ∈ acs, s.queues ac = [] := by
  induction acs generalizing best with
  | nil => exact ⟨hn, fun _ hac => absurd hac not_mem_nil⟩
  | cons ac acs ih =>
    obtain ⟨hp, hemp⟩ := pickQueue_none (s := s) hrc hb
    obtain ⟨hf, hr⟩ := ih hp hn
    obtain ⟨hst, hq⟩ := hemp hf
    exact ⟨hst, forall_mem_cons.mpr ⟨hq, hr⟩⟩

theorem queues_of_nextTransmission_none (hrc : Bounded rc)
  (hno : (s.nextTransmission rc).1 = none) (ac : AccessCategory) :
  s.queues ac = [] := by
  have ha := Option.bind_eq_none_iff.mp hno
  cases hn : (s.nextQueue rc).next with
  | some chosen =>
    have hh := head?_eq_none_iff.mp (ha chosen hn)
    exact absurd hh (nextQueue_nonempty hn)
  | none =>
    have hu : Undecided (⟨none, maxDuration, s.trc⟩ : Choice σ) := fun _ => rfl
    exact (foldl_pickQueue_none hrc hu hn).2 ac ac.mem_descending

def Watched (s : FlowControl σ) : Prop := (∃ ac, s.queues ac ≠ []) → s.triggers ≠ []

theorem watched_of_empty (h : ∀ ac, s.queues ac = []) : Watched s := by
  intro hqd
  obtain ⟨ac, hq⟩ := hqd
  exact absurd (h ac) hq

theorem watched_of_nextTransmission_none (hrc : Bounded rc)
  (hn : (s.nextTransmission rc).1 = none) :
  Watched (s.nextTransmission rc).2 := by
  have hemp : ∀ ac, s.queues ac = [] := queues_of_nextTransmission_none hrc hn
  exact watched_of_empty hemp

theorem watched_scheduleTrigger (s : FlowControl σ) (tx : Transmission) :
  Watched (s.scheduleTrigger rc tx) := by
  intro _
  exact append_ne_nil_of_right_ne_nil _ (cons_ne_nil _ _)

theorem Watched.dropExpired (h : Watched s) : Watched s.dropExpired := by
  intro hqd
  obtain ⟨ac, hq⟩ := hqd
  refine h ⟨ac, fun hemp => hq ?_⟩
  show (s.queues ac).filter _ = []
  rw [hemp, filter_nil]

theorem Watched.enqueue (h : Watched s) (serial : Nat) (req : DataRequest)
  (pkt : Packet) : Watched (s.enqueue rc serial req pkt) := by
  rw [enqueue_eq]
  split
  · exact watched_scheduleTrigger _ _
  next hn =>
  intro _
  show s.triggers ≠ []
  have ha : ∃ ac ∈ AccessCategory.descending, s.queues ac ≠ [] := by simpa [isEmpty] using hn
  obtain ⟨ac, -, hq⟩ := ha
  exact h ⟨ac, hq⟩

theorem Watched.request (h : Watched s) (req : DataRequest) (pkt : Packet) :
  Watched (s.request rc req pkt) := by
  unfold FlowControl.request
  dsimp only
  split
  · exact h.dropExpired
  · refine Watched.enqueue ?_ _ req pkt
    exact h.dropExpired

theorem watched_scheduleNext (hrc : Bounded rc) (s : FlowControl σ) :
  Watched (s.scheduleNext rc) := by
  unfold scheduleNext
  dsimp only
  split
  · next hn => exact watched_of_nextTransmission_none hrc hn
  · exact watched_scheduleTrigger _ _

theorem watched_reschedule (hrc : Bounded rc) (s : FlowControl σ) : Watched (s.reschedule rc) := by
  unfold reschedule
  dsimp only
  split
  · next hn => exact watched_of_nextTransmission_none hrc hn
  · exact watched_scheduleTrigger _ _

theorem Watched.step (hrc : Bounded rc) (h : Watched s) (act : Action) :
  Watched (s.step rc act) := by
  cases act with
  | advance dur => exact h
  | request req pkt => exact h.request req pkt
  | reschedule => exact watched_reschedule hrc s
  | setQueueLength length => exact h
  | fire i =>
    rw [FlowControl.step]
    split
    · split
      · -- the timer that fired is gone, whatever else was set
        exact watched_scheduleNext hrc _
      · exact h
    · exact h

theorem Watched.run (hrc : Bounded rc) (now : Int) (trc : σ) (acts : List Action) :
  Watched (Lib.run (FlowControl.step rc) (FlowControl.initial now trc) acts) := by
  have hstep : ∀ s act, Watched s → Watched (FlowControl.step rc s act) := fun _ act h =>
    h.step hrc act
  exact Run.always hstep (watched_of_empty fun _ => rfl)

def timesQueued (s : FlowControl σ) (pending : PendingTransmission) : Nat :=
  (AccessCategory.descending.map fun ac => (s.queues ac).count pending).sum

def timesDropped (s : FlowControl σ) (pending : PendingTransmission) : Nat :=
  (s.discarded.map Prod.snd).count pending

def timesTransmitted (s : FlowControl σ) (pending : PendingTransmission) : Nat :=
  (s.transmitted.map Handover.toPendingTransmission).count pending

theorem count_of_category (packets : List PendingTransmission) (pending : PendingTransmission) :
  (packets.filter fun other => other.category = pending.category).count
    pending = packets.count pending :=
  List.count_filter (decide_eq_true rfl)

theorem Consistent.requested_nodup (h : Consistent s) :
  (s.requested.map PendingTransmission.serial).Nodup := by
  rw [h.serials]
  exact nodup_range

theorem Consistent.timesQueued_eq (h : Consistent s) (pending : PendingTransmission) :
  s.timesQueued pending = (s.queues pending.category).count pending := by
  have ho : ∀ ac, ac ≠ pending.category → (s.queues ac).count pending = 0 := by
    intro ac hac
    refine count_eq_zero.mpr fun hqd => ?_
    exact hac (h.category_of_queued hqd).2.symm
  have hs : s.timesQueued pending = (s.queues .vo).count pending +
      ((s.queues .vi).count pending + ((s.queues .be).count pending +
        (s.queues .bk).count pending)) := by
    simp [timesQueued, AccessCategory.descending]
  rw [hs]
  cases hc : pending.category <;> simp [ho, hc]

theorem Consistent.timesDropped_eq (h : Consistent s) (pending : PendingTransmission) :
  s.timesDropped pending = (s.lane pending.category).removed.count pending := by
  have hf : (s.lane pending.category).removed = (s.discarded.map Prod.snd).filter
        fun other => other.category = pending.category := by
    rw [filter_map]
    refine congrArg (map Prod.snd) (filter_congr fun gone hg => ?_)
    rw [Function.comp_apply, (h.category_of_discarded hg).2]
  rw [hf, count_of_category, timesDropped]

theorem timesTransmitted_eq (s : FlowControl σ) (pending : PendingTransmission) :
  s.timesTransmitted pending = (s.lane pending.category).delivered.count pending :=
  (count_of_category _ pending).symm

theorem Consistent.count_eq (h : Consistent s) (pending : PendingTransmission) :
  s.timesQueued pending + s.timesDropped pending +
    s.timesTransmitted pending = if pending ∈ s.requested then 1 else 0 := by
  have hl := (h.lanes pending.category).count pending
  have ha : (s.lane pending.category).admitted.count pending =
      s.requested.count pending := count_of_category _ pending
  have hn := List.Nodup.of_map _ h.requested_nodup
  rw [ha, hn.count] at hl
  rw [h.timesQueued_eq, h.timesDropped_eq, timesTransmitted_eq]
  exact hl

theorem Consistent.count_le_one (h : Consistent s) (pending : PendingTransmission) :
  s.timesQueued pending + s.timesDropped pending + s.timesTransmitted pending ≤ 1 := by
  rw [h.count_eq]
  split
  · exact le_rfl
  · exact Nat.zero_le 1

theorem Consistent.transmitted_sublist (h : Consistent s) (ac : AccessCategory) :
  ((s.transmitted.filter fun handover => handover.category = ac).map
    Handover.toPendingTransmission).Sublist s.requested := by
  have hs : (s.transmitted.filter fun handover => handover.category = ac).map
      Handover.toPendingTransmission = (s.lane ac).delivered := by
    show _ = filter _ (map _ _)
    rw [filter_map]
    refine congrArg _ (filter_congr fun handover hhan => ?_)
    rw [Function.comp_apply, (h.handovers handover hhan).category]
  rw [hs]
  exact (h.lanes ac).delivered_sublist.trans filter_sublist

/-- With delays below the maximal duration: each packet is queued, dropped or transmitted, only one
of these and only once; each access category is transmitted in order and nothing after its
lifetime; and while something is queued, a timer is set. -/
theorem packets_accounted_for (rc : RateControl σ)
  (hdelays : ∀ st t tx, (rc.delay st t tx).1 < maxDuration) (now : Int)
  (trc : σ) (actions : List Action) :
  let s := run (step rc) (initial now trc) actions
  (s.requested.map PendingTransmission.serial).Nodup ∧
  (∀ pending, s.timesQueued pending + s.timesDropped pending +
    s.timesTransmitted pending = if pending ∈ s.requested then 1 else 0) ∧
  (∀ pending, s.timesTransmitted pending ≤ 1) ∧
  (∀ ac, ((s.transmitted.filter fun handover => handover.category = ac).map
    Handover.toPendingTransmission).Sublist s.requested) ∧
  (∀ handover ∈ s.transmitted, handover.fromQueue = true → ¬handover.expiry < handover.time) ∧
  ((∃ ac, s.queues ac ≠ []) → s.triggers ≠ []) := by
  intro s
  have h : Consistent s := Consistent.run rc now trc actions
  refine ⟨h.requested_nodup, h.count_eq, fun pending => ?_,
    h.transmitted_sublist, fun handover hhan hque => ?_, Watched.run hdelays now trc actions⟩
  · have hc := h.count_le_one pending
    omega
  · exact not_lt.mpr ((h.handovers handover hhan).inLifetime hque)

def cappedControl : RateControl Int where
  delay next t _ := (min (max 0 (next - t)) 10, next)
  notify _ t _ := t + 10

def fullQueue : List Action :=
  [.setQueueLength 1, .request (voiceRequest 50) [1],
    .request (voiceRequest 50) [2], .request (voiceRequest 50) [3]]

theorem displaced_packet_accounted_for :
  let s := run (step cappedControl) (initial 0 0) fullQueue
  let displaced : PendingTransmission := ⟨1, 50, voiceRequest 50, [2]⟩
  displaced ∈ s.requested ∧
  s.timesQueued displaced + s.timesDropped displaced + s.timesTransmitted displaced = 1 ∧
  s.triggers ≠ [] := by
  intro s displaced
  have hd : ∀ st t tx, (cappedControl.delay st t tx).1 < maxDuration := by
    intro st t tx
    show min (max 0 (st - t)) 10 < maxDuration
    exact lt_of_le_of_lt (min_le_right _ _) (by decide)
  have hr : displaced ∈ s.requested := by decide +kernel
  obtain ⟨-, hc, -, -, -, ht⟩ := packets_accounted_for cappedControl hd 0 0 fullQueue
  refine ⟨hr, ?_, ht ⟨.vo, by decide +kernel⟩⟩
  exact (hc displaced).trans (if_pos hr)

def losses (s : FlowControl σ) : List Dropped := s.discarded.map fun gone => gone.2.dropped gone.1

structure DropsReported (s : FlowControl σ) : Prop where
  exactly : s.dropped = s.losses
  once : s.dropped.Nodup

def FindsFullQueue (s : FlowControl σ) : Action → Prop
  | .request req _ => 0 < s.queueLength ∧ s.queueLength ≤
        (s.dropExpired.queues (mapProfileOntoAc req.dccProfile)).length
  | _ => False

theorem Consistent.serial_injective (h : Consistent s)
  {other : PendingTransmission} (hp : pending ∈ s.requested)
  (ho : other ∈ s.requested) (hs : pending.serial = other.serial) :
  pending = other :=
  List.inj_on_of_nodup_map h.requested_nodup hp ho hs

theorem Consistent.serial_lt (h : Consistent s) (hp : pending ∈ s.requested) :
  pending.serial < s.requested.length := by
  have hs : pending.serial ∈ s.requested.map PendingTransmission.serial := mem_map_of_mem hp
  rw [h.serials] at hs
  exact mem_range.mp hs

theorem Consistent.losses_nodup (h : Consistent s) : s.losses.Nodup := by
  have hg : (s.discarded.map Prod.snd).Nodup := by
    refine nodup_iff_count_le_one.mpr fun pending => ?_
    have hc := h.count_le_one pending
    show s.timesDropped pending ≤ 1
    omega
  refine List.Nodup.map_on ?_ (List.Nodup.of_map _ hg)
  intro gone hg other hoth hsame
  refine Prod.ext (congrArg Dropped.category hsame) ?_
  exact h.serial_injective (h.category_of_discarded hg).1
    (h.category_of_discarded hoth).1 (congrArg Dropped.serial hsame)

theorem Consistent.dropsReported_iff (h : Consistent s) :
  DropsReported s ↔ s.dropped = s.losses := by
  refine ⟨DropsReported.exactly, fun hex => ⟨hex, ?_⟩⟩
  rw [hex]
  exact h.losses_nodup

theorem reported_dropExpired (h : s.dropped = s.losses) :
  s.dropExpired.dropped = s.dropExpired.losses := by
  show s.dropped ++ map _ s.expired = (s.discarded ++ s.expired).map _
  rw [map_append, h]
  rfl

theorem Consistent.reported_place_iff (h : Consistent s) (hrep : s.dropped = s.losses) (trc : σ)
  (hser : pending.serial = s.requested.length) :
  let placed := place { s with
    trc := trc
    requested := s.requested ++ [pending] } pending
  placed.dropped = placed.losses ↔ (makeRoom s.queueLength (s.queues pending.category)).2 = [] := by
  intro placed
  have ha := makeRoom_append s.queueLength (s.queues pending.category)
  have hc : placed.dropped = placed.losses ↔
      (makeRoom s.queueLength (s.queues pending.category)).2.map
        (fun _ => pending.dropped pending.category) =
      (makeRoom s.queueLength (s.queues pending.category)).2.map
        (PendingTransmission.dropped pending.category) := by
    show s.dropped ++ _ = (s.discarded ++ map _ _).map _ ↔ _
    rw [map_append, map_map, hrep, losses, append_cancel_left_eq]
    rfl
  rw [hc]
  cases hr : (makeRoom s.queueLength (s.queues pending.category)).2 with
  | nil => exact ⟨fun _ => rfl, fun _ => rfl⟩
  | cons displaced others =>
    refine ⟨fun hs => absurd ?_ (lt_irrefl s.requested.length),
      fun hn => absurd hn (cons_ne_nil _ _)⟩
    have hqd : displaced ∈ s.queues pending.category := by
      rw [← ha, hr]
      exact mem_append_left _ mem_cons_self
    have hlt := h.serial_lt (h.category_of_queued hqd).1
    have hse : pending.serial = displaced.serial := congrArg Dropped.serial (cons.inj hs).1
    omega

theorem Consistent.reported_request_iff (h : Consistent s)
  (hr : s.dropped = s.losses) (req : DataRequest) (pkt : Packet) :
  (s.request rc req pkt).dropped = (s.request rc req pkt).losses ↔
    ¬s.FindsFullQueue (.request req pkt) := by
  unfold FlowControl.request
  dsimp only
  split
  · next himm =>
    have hemp : s.dropExpired.queues (mapProfileOntoAc req.dccProfile) =
        [] := queue_empty_of_transmitImmediately himm
    refine ⟨fun _ hfull => ?_, fun _ => reported_dropExpired hr⟩
    rw [FindsFullQueue, hemp, length_nil] at hfull
    omega
  · have hp := h.dropExpired.reported_place_iff (reported_dropExpired hr)
      (s.dropExpired.transmitImmediately rc ⟨req.dccProfile, pkt.length, false⟩).2
      (show (s.dropExpired.pendingFor req pkt).serial = s.dropExpired.requested.length from rfl)
    rw [makeRoom_eq_nil_iff] at hp
    rw [enqueue_eq]
    split
    · exact hp
    · exact hp

theorem scheduleNext_drops (s : FlowControl σ) : (s.scheduleNext rc).dropped = s.dropped ∧
    (s.scheduleNext rc).losses = s.losses := by
  unfold scheduleNext
  dsimp only
  split
  · exact ⟨rfl, rfl⟩
  · exact ⟨rfl, rfl⟩

theorem reported_trigger (h : s.dropped = s.losses) :
  (s.trigger rc).dropped = (s.trigger rc).losses := by
  unfold trigger
  rw [(scheduleNext_drops _).1, (scheduleNext_drops _).2]
  rcases dequeue_cases rc s.dropExpired with
    ⟨hd, -⟩ | ⟨ac, head, rest, -, hd⟩
  · rw [hd]
    exact reported_dropExpired h
  · rw [hd]
    exact reported_dropExpired h

theorem reported_reschedule (h : s.dropped = s.losses) :
  (s.reschedule rc).dropped = (s.reschedule rc).losses := by
  unfold reschedule
  dsimp only
  split
  · exact h
  · exact h

theorem Consistent.reported_step_iff (h : Consistent s)
  (hr : s.dropped = s.losses) (action : Action) :
  (s.step rc action).dropped = (s.step rc action).losses ↔ ¬s.FindsFullQueue action := by
  cases action with
  | request req pkt => exact h.reported_request_iff hr req pkt
  | advance dur | setQueueLength length => exact iff_of_true hr id
  | reschedule => exact iff_of_true (reported_reschedule hr) id
  | fire i =>
    refine iff_of_true ?_ id
    rw [FlowControl.step]
    split
    · split
      · refine reported_trigger ?_
        exact hr
      · exact hr
    · exact hr

/-- Throughout a run the hook is told exactly what leaves the queues without
transmission if, and only if, no request of the run finds its queue full. -/
theorem drops_reported_iff (rc : RateControl σ) (now : Int) (trc : σ) (actions : List Action) :
  (∀ before, before <+: actions → DropsReported (run (step rc) (initial now trc) before)) ↔
    RunMeets (step rc) (fun s action => ¬s.FindsFullQueue action) (initial now trc) actions := by
  have hkp : ∀ (s : FlowControl σ) action, True → Consistent s →
      Consistent (step rc s action) := fun _ action _ h => h.step action
  have hstep : ∀ (s : FlowControl σ) action, True → Consistent s → DropsReported s →
      (DropsReported (step rc s action) ↔ ¬s.FindsFullQueue action) := by
    intro s action _ h hr
    rw [(h.step action).dropsReported_iff]
    exact h.reported_step_iff hr.exactly action
  have ha : RunMeets (step rc) (fun _ _ => True) (initial now trc) actions :=
    Run.meets_of_forall (fun _ _ => trivial) _ _
  exact Run.goesThrough_iff hkp hstep (Consistent.initial now trc) ⟨rfl, nodup_nil⟩ ha

/-- The second packet is lost, and the hook is told about the third, which is
still queued. -/
theorem displaced_packet_unreported :
  let s := run (step cappedControl) (initial 0 0) fullQueue
  s.losses = [⟨.vo, 1, [2]⟩] ∧ s.dropped = [⟨.vo, 2, [3]⟩] ∧
  s.queues .vo = [⟨2, 50, voiceRequest 50, [3]⟩] ∧ ¬DropsReported s := by
  intro s
  have hl : s.losses = [⟨.vo, 1, [2]⟩] := by decide +kernel
  have hd : s.dropped = [⟨.vo, 2, [3]⟩] := by decide +kernel
  refine ⟨hl, hd, by decide +kernel, fun hr => ?_⟩
  have hs := hr.exactly
  rw [hl, hd] at hs
  exact absurd hs (by decide)

end Vanetza.Dcc.FlowControl
