import Vanetza.Common.UnitInterval
import Vanetza.Geonet.LocationTable
import Vanetza.Lib.Run

/-!
# Aggregation of channel busy ratios

`CbrAggregator` collects the busy ratios neighbours have reported, in one pass
over the location table: their mean and the two largest ones. The order in which
the table is visited is left open. All numbers are exact.
-/

namespace Vanetza.Geonet

open Lib

abbrev ChannelLoad := UnitInterval

def DccMcoField.localCbr (field : DccMcoField) : ChannelLoad := .ofRat (field.cbrL0Hop.toNat / 255)

def DccMcoField.neighbourCbr (field : DccMcoField) : ChannelLoad :=
  .ofRat (field.cbrL1Hop.toNat / 255)

structure CbrAggregatorUnit where
  n : Nat
  average : ChannelLoad
  maximum : ChannelLoad × ChannelLoad

namespace CbrAggregatorUnit

def create : CbrAggregatorUnit := ⟨0, .ofRat 0, .ofRat 0, .ofRat 0⟩

def add (unit : CbrAggregatorUnit) (cbr : ChannelLoad) : CbrAggregatorUnit where
  average := .ofRat ((unit.average.value * unit.n + cbr.value) / (unit.n + 1))
  n := unit.n + 1
  maximum :=
    if cbr ≥ unit.maximum.1 then (cbr, unit.maximum.1)
    else if cbr > unit.maximum.2 then (unit.maximum.1, cbr)
    else unit.maximum

def result (unit : CbrAggregatorUnit) (target : ChannelLoad) : ChannelLoad :=
  if unit.average > target then unit.maximum.1 else unit.maximum.2

end CbrAggregatorUnit

/-- What `visit` goes through is any arrangement of what the table shows. -/
structure CbrCall where
  localCbr : ChannelLoad
  table : LocationTable
  now : Int
  visited : List (MacAddress × LocationTableEntry)
  visits : visited.Perm (table.entries now)
  lifetime : Timestamp
  target : ChannelLoad

structure CbrAggregator where
  localCbr : ChannelLoad × ChannelLoad
  oneHopCbr : ChannelLoad
  twoHopCbr : ChannelLoad
  globalCbr : ChannelLoad

namespace CbrAggregator

def create : CbrAggregator := ⟨(.ofRat 0, .ofRat 0), .ofRat 0, .ofRat 0, .ofRat 0⟩

def visit (lifetime : Timestamp) (ratio : DccMcoField → ChannelLoad) (unit : CbrAggregatorUnit)
  (entry : MacAddress × LocationTableEntry) : CbrAggregatorUnit :=
  match entry.2.loctexG5 with
  | some loctex =>
    if loctex.localUpdate.before lifetime then unit else unit.add (ratio loctex.dccMco)
  | none => unit

def aggregate (s : CbrAggregator) (call : CbrCall) : CbrAggregator :=
  let previous := s.localCbr.1
  let unit ratio := call.visited.foldl (visit call.lifetime ratio) .create
  let oneHop := (unit DccMcoField.localCbr).result call.target
  let twoHop := (unit DccMcoField.neighbourCbr).result call.target
  ⟨(call.localCbr, previous), oneHop, twoHop, max (max previous oneHop) twoHop⟩

end CbrAggregator

def ranked (ratios : Multiset ChannelLoad) : List ChannelLoad := ratios.sort (· ≥ ·)

def rank (ratios : Multiset ChannelLoad) (k : Nat) : ChannelLoad :=
  (ranked ratios)[k]?.getD (.ofRat 0)

def meanRatio (ratios : Multiset ChannelLoad) : ℚ :=
  (ratios.map UnitInterval.value).sum / ratios.card

def aggregated (ratios : Multiset ChannelLoad) (target : ChannelLoad) : ChannelLoad :=
  if target.value < meanRatio ratios then rank ratios 0 else rank ratios 1

def recentRatio (lifetime : Timestamp) (ratio : DccMcoField → ChannelLoad)
  (entry : MacAddress × LocationTableEntry) : Option ChannelLoad :=
  (entry.2.loctexG5.filter fun loctex => !loctex.localUpdate.before lifetime).map
    fun loctex => ratio loctex.dccMco

def CbrCall.ratios (call : CbrCall) (ratio : DccMcoField → ChannelLoad) : Multiset ChannelLoad :=
  ↑((call.table.entries call.now).filterMap (recentRatio call.lifetime ratio))

theorem ranked_cons (cbr : ChannelLoad) (ratios : Multiset ChannelLoad) :
  ranked (cbr ::ₘ ratios) = (ranked ratios).orderedInsert (· ≥ ·) cbr := by
  refine List.Perm.eq_of_pairwise' (Multiset.pairwise_sort _ _)
    ((Multiset.pairwise_sort _ _).orderedInsert _ _) ?_
  refine Multiset.coe_eq_coe.1 ?_
  have hins := Multiset.coe_eq_coe.2 ((ranked ratios).perm_orderedInsert (· ≥ ·) cbr)
  rw [hins, ← Multiset.cons_coe, ranked, ranked, Multiset.sort_eq, Multiset.sort_eq]

namespace CbrAggregatorUnit

structure Tallied (ratios : Multiset ChannelLoad) (unit : CbrAggregatorUnit) : Prop where
  n : unit.n = ratios.card
  average : unit.average.value = meanRatio ratios
  maximum : unit.maximum = (rank ratios 0, rank ratios 1)

variable {ratios : Multiset ChannelLoad} {unit : CbrAggregatorUnit}

theorem tallied_create : create.Tallied 0 :=
  ⟨rfl, by simp [create, meanRatio, UnitInterval.ofRat, UnitInterval.clamp],
    by simp [create, rank, ranked]⟩

theorem zero_le (cbr : ChannelLoad) : .ofRat 0 ≤ cbr := by
  show UnitInterval.clamp 0 ≤ cbr.value
  rw [UnitInterval.clamp_of_mem le_rfl zero_le_one]
  exact cbr.nonneg

theorem maximum_cons (cbr : ChannelLoad) (ratios : Multiset ChannelLoad) :
  (rank (cbr ::ₘ ratios) 0, rank (cbr ::ₘ ratios) 1) =
    if cbr ≥ rank ratios 0 then (cbr, rank ratios 0)
    else if cbr > rank ratios 1 then (rank ratios 0, cbr)
    else (rank ratios 0, rank ratios 1) := by
  have hz := zero_le cbr
  unfold rank
  rw [ranked_cons]
  match ranked ratios with
  | [] => simp [hz]
  | [first] =>
    by_cases hle : first ≤ cbr
    · simp [hle]
    · rcases hz.eq_or_lt with rfl | hlt
      · simp [hle]
      · simp [hle, hlt]
  | first :: second :: rest =>
    by_cases hle : first ≤ cbr
    · simp [hle]
    rcases lt_trichotomy second cbr with hlt | heq | hgt
    · simp [hle, hlt, hlt.le]
    · simp [hle, heq]
    · simp [hle, hgt.not_ge, hgt.not_gt]

theorem Tallied.add (h : unit.Tallied ratios) (cbr : ChannelLoad) :
  (unit.add cbr).Tallied (cbr ::ₘ ratios) := by
  refine ⟨by simp [CbrAggregatorUnit.add, h.n], ?_, ?_⟩
  · have ha := unit.average.le_one
    have hcbr := cbr.le_one
    have hn : unit.average.value * unit.n + cbr.value ≤ unit.n + 1 := by nlinarith
    have hnon := add_nonneg (mul_nonneg unit.average.nonneg (Nat.cast_nonneg unit.n)) cbr.nonneg
    have hs : unit.average.value * unit.n = (ratios.map UnitInterval.value).sum := by
      rw [h.average, h.n, meanRatio]
      refine div_mul_cancel_of_imp fun hc => ?_
      rw [Multiset.card_eq_zero.1 (Nat.cast_eq_zero.1 hc)]
      simp
    show UnitInterval.clamp _ = _
    rw [UnitInterval.clamp_of_mem (by positivity) ((div_le_one (by positivity)).2 hn), hs, h.n]
    simp [meanRatio, add_comm]
  · show (if cbr ≥ unit.maximum.1 then _ else _) = _
    rw [maximum_cons, h.maximum]

theorem Tallied.result (h : unit.Tallied ratios) (target : ChannelLoad) :
  unit.result target = aggregated ratios target := by
  unfold CbrAggregatorUnit.result aggregated
  rw [h.maximum, ← h.average]
  rfl

end CbrAggregatorUnit

namespace CbrAggregator

theorem tallied_visited (lifetime : Timestamp) (ratio : DccMcoField → ChannelLoad)
  (visited : List (MacAddress × LocationTableEntry)) {ratios : Multiset ChannelLoad}
  {unit : CbrAggregatorUnit} (h : unit.Tallied ratios) :
  (visited.foldl (visit lifetime ratio) unit).Tallied
    (↑(visited.filterMap (recentRatio lifetime ratio)) + ratios) := by
  induction visited generalizing unit ratios with
  | nil => simpa using h
  | cons entry rest ih =>
    rw [List.foldl_cons, visit]
    cases hent : entry.2.loctexG5 with
    | none => simpa [recentRatio, hent] using ih h
    | some loctex =>
      cases ho : loctex.localUpdate.before lifetime with
      | true => simpa [recentRatio, hent, ho] using ih h
      | false =>
        have hr := ih (h.add (ratio loctex.dccMco))
        rw [Multiset.add_cons, ← Multiset.cons_add, Multiset.cons_coe] at hr
        simpa [recentRatio, hent, ho] using hr

/-- After any sequence of calls, the last one with any table in any order. -/
theorem aggregate_spec (calls : List CbrCall) (call : CbrCall) :
  let s := run aggregate create (calls ++ [call])
  s.oneHopCbr = aggregated (call.ratios DccMcoField.localCbr) call.target ∧
  s.twoHopCbr = aggregated (call.ratios DccMcoField.neighbourCbr) call.target ∧
  s.globalCbr = max (max ((calls.getLast?.map (·.localCbr)).getD (.ofRat 0)) s.oneHopCbr)
    s.twoHopCbr := by
  have hu : ∀ ratio, (call.visited.foldl (visit call.lifetime ratio) .create).result
      call.target = aggregated (call.ratios ratio) call.target := by
    intro ratio
    have ht := tallied_visited call.lifetime ratio call.visited CbrAggregatorUnit.tallied_create
    rw [ht.result, add_zero, CbrCall.ratios, Multiset.coe_eq_coe.2 (call.visits.filterMap _)]
  have hp : (run aggregate create calls).localCbr.1 =
      (calls.getLast?.map (·.localCbr)).getD (.ofRat 0) := by
    rcases calls.eq_nil_or_concat with rfl | ⟨before, last, rfl⟩
    · rfl
    · rw [List.concat_eq_append, Run.append]
      simp [run, aggregate]
  intro s
  have hs : s = aggregate (run aggregate create calls) call := Run.append _ _ _ _
  rw [hs, ← hp]
  exact ⟨hu _, hu _, rfl⟩

end CbrAggregator

end Vanetza.Geonet
