import Vanetza.Geonet.LocationTable
import Vanetza.Geonet.SoftStateCollection

/-!
# The newest position of a station

An entry takes a position vector only if its timestamp is later. Timestamps wrap around: half of the
range lies ahead of every timestamp, so "later" is not transitive.
-/

namespace Vanetza.Geonet

namespace Timestamp

def offset (start t : Timestamp) : Nat := (t.raw - start.raw).toNat

def InWindow (start t : Timestamp) : Prop := offset start t < 2 ^ 31

variable {start s t : Timestamp}

theorem isGreater_iff (hs : InWindow start s) (ht : InWindow start t) :
  s.isGreater t = true ↔ offset start t < offset start s := by
  have hsr := s.raw.toNat_lt
  have htr := t.raw.toNat_lt
  have hst := start.raw.toNat_lt
  simp only [InWindow, offset, UInt32.toNat_sub] at hs ht ⊢
  simp only [isGreater, Bool.or_eq_true, Bool.and_eq_true, decide_eq_true_eq,
    UInt32.lt_iff_toNat_lt, UInt32.le_iff_toNat_le, UInt32.toNat_sub]
  show _ ∧ _ ≤ 2147483647 ∨ _ ∧ 2147483647 < _ ↔ _
  omega

theorem eq_iff (start : Timestamp) : s = t ↔ offset start s = offset start t := by
  constructor
  · rintro rfl
    rfl
  intro heq
  simp only [offset, UInt32.toNat_inj] at heq
  cases s
  cases t
  simpa using heq

theorem before_iff (hs : InWindow start s) (ht : InWindow start t) :
  s.before t = true ↔ offset start s < offset start t := by
  have hg := isGreater_iff hs ht
  simp only [before, Bool.and_eq_true, Bool.not_eq_true', bne_iff_ne, ne_eq,
    ← Bool.not_eq_true, hg, eq_iff start]
  omega

end Timestamp

variable {entry : LocationTableEntry} {start : Timestamp}

namespace LocationTableEntry

def updateAll (entry : LocationTableEntry) (received : List LongPositionVector) :
  LocationTableEntry :=
  received.foldl (fun entry pv => (entry.updatePositionVector pv).2) entry

variable {pv : LongPositionVector}

theorem positionVector_setPositionVector (entry : LocationTableEntry) (hv : pv.isValid = true) :
  (entry.setPositionVector pv).2.positionVector = some pv := by
  rw [setPositionVector, if_pos hv]

theorem positionVector_update_of_none (hn : entry.positionVector = none) (hv : pv.isValid = true) :
  (entry.updatePositionVector pv).2.positionVector = some pv := by
  rw [updatePositionVector, hn]
  exact entry.positionVector_setPositionVector hv

theorem positionVector_update_of_some {old : LongPositionVector}
  (ho : entry.positionVector = some old) (hv : pv.isValid = true) :
  (entry.updatePositionVector pv).2.positionVector =
    if old.timestamp.before pv.timestamp then some pv else some old := by
  rw [updatePositionVector, ho]
  dsimp only
  split
  · exact entry.positionVector_setPositionVector hv
  · exact ho

theorem positionVector_updateAll (now : Int) {received : List LongPositionVector}
  (hvld : ∀ pv ∈ received, pv.isValid = true)
  (hw : ∀ pv ∈ received, Timestamp.InWindow start pv.timestamp) :
  ((create now).updateAll received).positionVector =
    received.argmax fun pv => Timestamp.offset start pv.timestamp := by
  induction received using List.reverseRecOn with
  | nil => rfl
  | append_singleton before pv ih =>
    have hv := hvld pv (by simp)
    have hb := ih (fun other hm => hvld other (by simp [hm]))
      fun other hm => hw other (by simp [hm])
    rw [List.argmax_concat, updateAll, List.foldl_append]
    show (updatePositionVector _ pv).2.positionVector = _
    cases hn : before.argmax fun pv =>
        Timestamp.offset start pv.timestamp with
    | none =>
      rw [hn] at hb
      exact positionVector_update_of_none hb hv
    | some old =>
      have ho : old ∈ before := List.argmax_mem hn
      have hl := Timestamp.before_iff (hw old (by simp [ho])) (hw pv (by simp))
      rw [hn] at hb
      have hu := positionVector_update_of_some hb hv
      rw [updateAll] at hu
      simp only [hu, hl]

/-- The position vector that is stored is the newest one of the window, and the
first of those with its timestamp. -/
theorem stored_position_newest (now : Int) (start : Timestamp)
  (received : List LongPositionVector) (hne : received ≠ [])
  (hvalid : ∀ pv ∈ received, pv.isValid = true)
  (hwindow : ∀ pv ∈ received, Timestamp.InWindow start pv.timestamp) :
  ∃ pv ∈ received, ((create now).updateAll received).positionVector = some pv ∧
    (∀ other ∈ received, Timestamp.offset start other.timestamp ≤
      Timestamp.offset start pv.timestamp) ∧ ∀ other ∈ received, other.timestamp = pv.timestamp →
      received.idxOf pv ≤ received.idxOf other := by
  have hs := positionVector_updateAll now hvalid hwindow
  obtain ⟨pv, hpv⟩ := Option.ne_none_iff_exists'.1 (mt List.argmax_eq_none.1 hne : received.argmax
      (fun pv => Timestamp.offset start pv.timestamp) ≠ none)
  obtain ⟨hm, hn, hf⟩ := List.argmax_eq_some_iff.1 hpv
  refine ⟨pv, hm, hs.trans hpv, hn, fun other ho heq => ?_⟩
  exact hf other ho (by rw [heq])

/-- Two position vectors around the wrap of the timestamps; the one after it is
newer, and it comes first. -/
theorem stored_position_after_wrap :
  let old : LongPositionVector :=
    { LongPositionVector.default with timestamp := ⟨0xffffffff⟩ }
  let new : LongPositionVector :=
    { LongPositionVector.default with timestamp := ⟨5⟩ }
  ∃ pv ∈ [new, old], ((create 0).updateAll [new, old]).positionVector = some pv ∧
    (∀ other ∈ [new, old], Timestamp.offset ⟨0xfffffff0⟩ other.timestamp ≤
      Timestamp.offset ⟨0xfffffff0⟩ pv.timestamp) ∧
    ∀ other ∈ [new, old], other.timestamp = pv.timestamp →
      [new, old].idxOf pv ≤ [new, old].idxOf other :=
  stored_position_newest 0 ⟨0xfffffff0⟩ _ (by decide) (by decide)
    (by decide : ∀ pv ∈ _, Timestamp.offset _ _ < 2 ^ 31)

end LocationTableEntry

namespace LocationTable

variable {table : LocationTable} {mac : MacAddress}

def stored (table : LocationTable) (mac : MacAddress) : Option LocationTableEntry :=
  (table.view mac).map Prod.fst

theorem stored_modify (h : table.Linked) (key : MacAddress)
  (f : LocationTableEntry → LocationTableEntry) :
  stored (table.modify key f) mac =
    if mac = key then (table.stored mac).map f else table.stored mac := by
  rw [stored, h.view_modify, Function.update_apply, stored]
  split
  · next heq =>
    rw [heq, Option.map_map, Option.map_map]
    rfl
  · rfl

theorem stored_refresh (h : table.Linked) (now : Int) (creator : LocationTableEntry)
  (key : MacAddress) :
  stored (table.refresh now creator key) mac =
    if mac = key then some ((table.stored mac).getD creator) else table.stored mac := by
  rw [stored, (h.refresh now creator key).view, Function.update_apply, stored]
  split
  · next heq =>
    rw [heq]
    cases table.view key <;> rfl
  · rfl

theorem stored_of_getValuePtr (h : table.Linked) {now : Int}
  (hent : table.getValuePtr now mac = some entry) : table.stored mac = some entry := by
  rw [h.getValuePtr_eq, Lib.Expiring.visible, Option.map_eq_some_iff] at hent
  obtain ⟨found, hf, rfl⟩ := hent
  rw [stored, Lib.Expiring.eq_of_collect hf]
  rfl

def updated (now : Int) (lpv : LongPositionVector) (entry : Option LocationTableEntry) :
  LocationTableEntry := ((entry.getD (.create now)).updatePositionVector lpv).2

/-- An update concerns the entry of its source only, which is made if there is none. -/
theorem stored_update (h : table.Linked) (now : Int) (lpv : LongPositionVector) :
  SoftStateMap.Linked (table.update now lpv) ∧ ∀ mac, stored (table.update now lpv) mac =
    if mac = lpv.gnAddr.mid then some (updated now lpv (table.stored mac))
    else table.stored mac := by
  have hr := (h.refresh now (.create now) lpv.gnAddr.mid).linked
  unfold update
  dsimp only
  split
  · next entry hent =>
    have hs := stored_of_getValuePtr h hent
    split
    · have hm := h.modify lpv.gnAddr.mid fun _ => (entry.updatePositionVector lpv).2
      split
      · refine ⟨(hm.refresh now _ _).linked, fun mac => ?_⟩
        rw [stored_refresh hm, stored_modify h]
        grind [updated]
      · refine ⟨hm, fun mac => ?_⟩
        rw [stored_modify h]
        grind [updated]
    · refine ⟨hr.modify _ _, fun mac => ?_⟩
      rw [stored_modify hr, stored_refresh h]
      grind [updated]
  · refine ⟨hr.modify _ _, fun mac => ?_⟩
    rw [stored_modify hr, stored_refresh h]
    grind [updated]

def updateAll (table : LocationTable) (received : List (Int × LongPositionVector)) :
  LocationTable :=
  received.foldl (fun table message => table.update message.1 message.2) table

variable (mac) (received : List (Int × LongPositionVector))

def sent : List LongPositionVector := (received.filter (·.2.gnAddr.mid = mac)).map Prod.snd

variable {mac}

theorem sent_cons (msg : Int × LongPositionVector) : sent mac (msg :: received) =
    if msg.2.gnAddr.mid = mac then msg.2 :: sent mac received else sent mac received := by
  simp only [sent, List.filter_cons, decide_eq_true_eq]
  split <;> rfl

theorem stored_updateAll (h : table.Linked) (hs : table.stored mac = some entry) :
  stored (table.updateAll received) mac = some (entry.updateAll (sent mac received)) := by
  induction received generalizing table entry with
  | nil => exact hs
  | cons msg rest ih =>
    obtain ⟨hl, hu⟩ := stored_update h msg.1 msg.2
    by_cases hm : msg.2.gnAddr.mid = mac
    · refine (ih hl ((hu mac).trans (if_pos hm.symm))).trans ?_
      rw [hs, sent_cons, if_pos hm]
      rfl
    · refine (ih hl ((hu mac).trans ((if_neg (Ne.symm hm)).trans hs))).trans ?_
      rw [sent_cons, if_neg hm]

theorem position_updateAll (h : table.Linked) (hn : table.stored mac = none)
  (hv : ∀ pv ∈ sent mac received, pv.isValid = true)
  (hw : ∀ pv ∈ sent mac received, Timestamp.InWindow start pv.timestamp) :
  (stored (table.updateAll received) mac).bind (·.positionVector) =
    (sent mac received).argmax fun pv => Timestamp.offset start pv.timestamp := by
  induction received generalizing table with
  | nil => exact congrArg (Option.bind · _) hn
  | cons msg rest ih =>
    obtain ⟨hl, hu⟩ := stored_update h msg.1 msg.2
    rw [sent_cons] at hv hw ⊢
    by_cases hm : msg.2.gnAddr.mid = mac
    · have ha := stored_updateAll rest hl ((hu mac).trans (if_pos hm.symm))
      rw [if_pos hm] at hv hw ⊢
      rw [hn] at ha
      exact (congrArg (Option.bind · _) ha).trans (LocationTableEntry.positionVector_updateAll msg.1 hv hw)
    · rw [if_neg hm] at hv hw ⊢
      exact ih hl ((hu mac).trans ((if_neg (Ne.symm hm)).trans hn)) hv hw

/-- However the packets of many stations come in, the table has for each station the newest of its
position vectors, if their timestamps are not further apart than half the range. -/
theorem newest_of_each_station (lifetime : Int) (start : Timestamp)
  (hv : ∀ msg ∈ received, msg.2.isValid = true)
  (hw : ∀ msg ∈ received, Timestamp.InWindow start msg.2.timestamp) (mac : MacAddress) :
  (stored (updateAll (.empty lifetime) received) mac).bind (·.positionVector) =
    (sent mac received).argmax fun pv => Timestamp.offset start pv.timestamp := by
  have hs : ∀ pv ∈ sent mac received, ∃ msg ∈ received, msg.2 = pv := by
    simp [sent]
    grind
  refine position_updateAll received (SoftStateMap.linked_empty lifetime) rfl (fun pv hpv => ?_)
    fun pv hpv => ?_
  · obtain ⟨msg, hm, rfl⟩ := hs pv hpv
    exact hv msg hm
  · obtain ⟨msg, hm, rfl⟩ := hs pv hpv
    exact hw msg hm

theorem newest_after_wrap :
  let old : LongPositionVector := { LongPositionVector.default with timestamp := ⟨0xffffffff⟩ }
  let new : LongPositionVector := { LongPositionVector.default with timestamp := ⟨5⟩ }
  (stored (updateAll (.empty 20) [(3, new), (7, old)]) new.gnAddr.mid).bind (·.positionVector) =
    some new :=
  (newest_of_each_station _ 20 ⟨0xfffffff0⟩ (by decide)
    (by decide : ∀ msg ∈ _, Timestamp.offset _ _ < 2 ^ 31) _).trans (by decide)

end LocationTable

end Vanetza.Geonet
