import Vanetza.Geonet.LocationTable
import Vanetza.Lib.Run

/-!
# What a duplicate packet list remembers

A sequence number is inserted when its check finds no duplicate; a duplicate does not renew its
place. So what is stored depends on the answers of all earlier checks.
-/

namespace Vanetza.Geonet

open Lib List

structure DuplicateCheck where
  sn : SequenceNumber
  duplicate : Bool

structure DuplicateUse where
  list : DuplicatePacketList
  log : List DuplicateCheck

namespace DuplicateUse

def create (elements : Nat) : DuplicateUse := ⟨⟨elements, []⟩, []⟩

def step (s : DuplicateUse) (sn : SequenceNumber) : DuplicateUse :=
  ⟨(s.list.check sn).2, ⟨sn, (s.list.check sn).1⟩ :: s.log⟩

def inserted (log : List DuplicateCheck) : List SequenceNumber :=
  (log.filter (!·.duplicate)).map (·.sn)

def checksSince (sn : SequenceNumber) : List DuplicateCheck → Nat
  | [] => 0
  | check :: earlier =>
    if check.sn = sn then if check.duplicate then checksSince sn earlier + 1 else 1
    else checksSince sn earlier

def listed (n : Nat) (log : List DuplicateCheck) : List (SequenceNumber × UInt32) :=
  ((inserted log).take n).reverse.map fun sn => (sn, .ofNat (checksSince sn log))

structure Sound (n : Nat) (s : DuplicateUse) : Prop where
  capacity : s.list.capacity = n
  elements : s.list.elements = listed n s.log
  nodup : ((inserted s.log).take n).Nodup

variable {n : Nat} {s : DuplicateUse} {sn : SequenceNumber}

section Count

variable {numbers : List SequenceNumber} {f : SequenceNumber → UInt32}

theorem count_of_notMem (h : sn ∉ numbers) :
  DuplicatePacketList.count sn (numbers.map fun k => (k, f k)) = none := by
  induction numbers with
  | nil => rfl
  | cons k rest ih =>
    obtain ⟨hne, hr⟩ := not_or.1 (mt mem_cons.2 h)
    simp [DuplicatePacketList.count, Ne.symm hne, ih hr]

theorem count_of_mem (hn : numbers.Nodup) (h : sn ∈ numbers) :
  DuplicatePacketList.count sn (numbers.map fun k => (k, f k)) =
    some (numbers.map fun k => (k, if k = sn then f k + 1 else f k)) := by
  induction numbers with
  | nil => cases h
  | cons k rest ih =>
    obtain ⟨hk, hr⟩ := nodup_cons.1 hn
    by_cases heq : k = sn
    · -- the numbers behind the first match are other ones
      subst heq
      have ho : ∀ j ∈ rest, j ≠ k := fun j hj => ne_of_mem_of_not_mem hj hk
      simp +contextual [DuplicatePacketList.count, ho]
    · have hm : sn ∈ rest := (mem_cons.1 h).resolve_left (Ne.symm heq)
      simp [DuplicatePacketList.count, heq, ih hr hm]

theorem find_listed (h : sn ∈ numbers) :
  (numbers.map fun k => (k, f k)).find? (fun elt => elt.1 = sn) = some (sn, f sn) := by
  induction numbers with
  | nil => cases h
  | cons k rest ih =>
    by_cases heq : k = sn
    · simp [heq]
    · simp [heq, ih ((mem_cons.1 h).resolve_left (Ne.symm heq))]

end Count

theorem reverse_take_cons (n : Nat) (sn : SequenceNumber) (numbers : List SequenceNumber) :
  ((sn :: numbers).take n).reverse = ((numbers.take n).reverse ++ [sn]).drop
    ((numbers.take n).length + 1 - n) := by
  rw [← reverse_cons, drop_reverse, length_cons, length_take]
  congr 1
  rcases Nat.lt_or_ge numbers.length n with hlt | hle
  · rw [take_of_length_le hlt.le, take_of_length_le (by simpa using hlt),
      take_of_length_le (by simp; omega)]
  have hl : min n numbers.length + 1 - (min n numbers.length + 1 - n) = n := by omega
  rw [hl]
  cases n with
  | zero => rfl
  | succ n => simp [take_take]

theorem Sound.check_of_mem (h : s.Sound n) (hm : sn ∈ (inserted s.log).take n) :
  s.list.check sn = (true, ⟨n, listed n (⟨sn, true⟩ :: s.log)⟩) := by
  have hc := count_of_mem (nodup_reverse.2 h.nodup) (mem_reverse.2 hm)
    (f := fun k => .ofNat (checksSince k s.log))
  have hl : listed n (⟨sn, true⟩ :: s.log) = ((inserted s.log).take n).reverse.map fun k =>
      (k, if k = sn then .ofNat (checksSince k s.log) + 1 else .ofNat (checksSince k s.log)) := by
    refine map_congr_left fun k _ => ?_
    by_cases hk : k = sn
    · simp [checksSince, hk, UInt32.ofNat_add]
    · simp [checksSince, hk, Ne.symm hk]
  rw [DuplicatePacketList.check, h.elements, listed, hc, ← hl, ← h.capacity]

theorem Sound.check_of_notMem (h : s.Sound n) (hm : sn ∉ (inserted s.log).take n) :
  s.list.check sn = (false, ⟨n, listed n (⟨sn, false⟩ :: s.log)⟩) := by
  have hc := count_of_notMem (f := fun k => .ofNat (checksSince k s.log)) (mt mem_reverse.1 hm)
  have hl : listed n (⟨sn, false⟩ :: s.log) =
      (listed n s.log ++ [(sn, 1)]).drop ((listed n s.log).length + 1 - n) := by
    have ho : ((inserted s.log).take n).reverse.map (fun k =>
        (k, UInt32.ofNat (checksSince k (⟨sn, false⟩ :: s.log)))) = listed n s.log := by
      refine map_congr_left fun k hk => ?_
      have hne : sn ≠ k := fun heq => hm (heq ▸ mem_reverse.1 hk)
      simp [checksSince, hne]
    rw [listed, show inserted (⟨sn, false⟩ :: s.log) = sn :: inserted s.log from rfl,
      reverse_take_cons, map_drop, map_append, ho]
    simp [listed, checksSince]
  rw [DuplicatePacketList.check, h.elements, listed, hc, DuplicatePacketList.push,
    h.capacity, h.elements, ← hl]

theorem Sound.step (h : s.Sound n) (sn : SequenceNumber) : (s.step sn).Sound n := by
  by_cases hm : sn ∈ (inserted s.log).take n
  · rw [DuplicateUse.step, h.check_of_mem hm]
    exact ⟨rfl, rfl, h.nodup⟩
  rw [DuplicateUse.step, h.check_of_notMem hm]
  refine ⟨rfl, rfl, ?_⟩
  show ((sn :: inserted s.log).take n).Nodup
  cases n with
  | zero => exact nodup_nil
  | succ n =>
    have hs : (inserted s.log).take n <+ (inserted s.log).take (n + 1) :=
      take_sublist_take_left n.le_succ
    exact nodup_cons.2 ⟨fun hin => hm (hs.subset hin), h.nodup.sublist hs⟩

theorem sound_run (n : Nat) (numbers : List SequenceNumber) :
  (run step (create n) numbers).Sound n :=
  Run.always (fun _ sn hs => hs.step sn) ⟨rfl, by simp [listed, inserted, create], by
    simp [inserted, create]⟩

theorem Sound.numbers (h : s.Sound n) :
  s.list.elements.map Prod.fst = ((inserted s.log).take n).reverse := by
  rw [h.elements, listed, map_map]
  exact map_id _

theorem Sound.counter (h : s.Sound n) (sn : SequenceNumber) :
  s.list.counter sn = if sn ∈ s.list.elements.map Prod.fst then
    .ofNat (checksSince sn s.log) else 0 := by
  rw [h.numbers, DuplicatePacketList.counter, h.elements, listed]
  by_cases hm : sn ∈ ((inserted s.log).take n).reverse
  · rw [find_listed hm, if_pos hm]
  rw [if_neg hm, find?_eq_none.2]
  intro elt helt
  obtain ⟨k, hk, rfl⟩ := mem_map.1 helt
  simpa using ne_of_mem_of_not_mem hk hm

/-- After any checks: a sequence number is a duplicate if it is among the latest
insertions, no number is stored twice, and a counter is the number of checks
since the insertion, as far as it fits an `unsigned`. -/
theorem duplicates_of_run (n : Nat) (numbers : List SequenceNumber) (sn : SequenceNumber) :
  let s := run step (create n) numbers
  ((s.list.check sn).1 = true ↔ sn ∈ (inserted s.log).take n) ∧
  (s.list.elements.map Prod.fst).Nodup ∧
  (s.list.counter sn).toNat = if sn ∈ s.list.elements.map Prod.fst then
    checksSince sn s.log % 2 ^ 32 else 0 := by
  intro s
  have h : s.Sound n := sound_run n numbers
  refine ⟨?_, ?_, ?_⟩
  · by_cases hm : sn ∈ (inserted s.log).take n
    · simp [h.check_of_mem hm, hm]
    · simp [h.check_of_notMem hm, hm]
  · rw [h.numbers]
    exact nodup_reverse.2 h.nodup
  rw [h.counter sn]
  split
  · exact UInt32.toNat_ofNat'
  · rfl

theorem checked_again (sn : SequenceNumber) (count : Nat) :
  let s := run step (create 1) (replicate (count + 1) sn)
  checksSince sn s.log = count + 1 ∧ inserted s.log = [sn] := by
  induction count with
  | zero => simp [run, step, create, DuplicatePacketList.check, DuplicatePacketList.count,
      checksSince, inserted]
  | succ count ih =>
    have hs := sound_run 1 (replicate (count + 1) sn)
    have ha : run step (create 1) (replicate (count + 1 + 1) sn) =
        step (run step (create 1) (replicate (count + 1) sn)) sn := by
      rw [replicate_succ', Run.append]
      rfl
    rw [ha]
    generalize run step (create 1) (replicate (count + 1) sn) = s at ih hs
    obtain ⟨hsin, hins⟩ := ih
    have hm : sn ∈ (inserted s.log).take 1 := by simp [hins]
    have hc := hs.check_of_mem hm
    rw [step, hc]
    exact ⟨by simp [checksSince, hsin], hins⟩

/-- A number that is checked 2^32 times in a row, and is stored all the time,
has the counter zero in the end. -/
theorem counter_starts_again :
  let s := run step (create 1) (replicate (2 ^ 32) ⟨30⟩)
  checksSince ⟨30⟩ s.log = 2 ^ 32 ∧ ⟨30⟩ ∈ s.list.elements.map Prod.fst ∧
    s.list.counter ⟨30⟩ = 0 := by
  obtain ⟨count, hc⟩ : ∃ count, 2 ^ 32 = count + 1 := ⟨2 ^ 32 - 1, rfl⟩
  have hs := sound_run 1 (replicate (2 ^ 32) ⟨30⟩)
  have hag := checked_again ⟨30⟩ count
  rw [← hc] at hag
  generalize run step (create 1) (replicate (2 ^ 32) ⟨30⟩) = s at hs hag
  have hm : ⟨30⟩ ∈ s.list.elements.map Prod.fst := by simp [hs.numbers, hag.2]
  refine ⟨hag.1, hm, ?_⟩
  rw [hs.counter, if_pos hm, hag.1]
  rfl

end DuplicateUse

end Vanetza.Geonet
