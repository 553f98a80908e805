import Vanetza.Geonet.Headers
import Vanetza.Geonet.SoftStateMap

/-!
# Location table

The table has an entry for each station packets were received from, under its
link-layer address. Whoever asks for an entry gets a reference and may change the
entry through it; here `modify` stands for that.
-/

namespace Vanetza.Geonet

/-- `DuplicatePacketList`: the last sequence numbers, oldest first, and how
often they were seen. -/
structure DuplicatePacketList where
  capacity : Nat
  elements : List (SequenceNumber × UInt32)

namespace DuplicatePacketList

def push (dpl : DuplicatePacketList) (element : SequenceNumber × UInt32) : DuplicatePacketList :=
  let excess := dpl.elements.length + 1 - dpl.capacity
  ⟨dpl.capacity, (dpl.elements ++ [element]).drop excess⟩

def count (sn : SequenceNumber) :
  List (SequenceNumber × UInt32) → Option (List (SequenceNumber × UInt32))
  | [] => none
  | element :: rest =>
    if element.1 = sn then some ((element.1, element.2 + 1) :: rest)
    else (count sn rest).map (element :: ·)

def check (dpl : DuplicatePacketList) (sn : SequenceNumber) : Bool × DuplicatePacketList :=
  match count sn dpl.elements with
  | some elements => (true, { dpl with elements })
  | none => (false, dpl.push (sn, 1))

def counter (dpl : DuplicatePacketList) (sn : SequenceNumber) : UInt32 :=
  match dpl.elements.find? fun element => element.1 = sn with
  | some element => element.2
  | none => 0

end DuplicatePacketList

structure LocTexG5 where
  localUpdate : Timestamp
  sourceUpdate : Timestamp
  dccMco : DccMcoField

def timePointMin : Int := -2 ^ 63
def timePointMax : Int := 2 ^ 63 - 1

structure LocationTableEntry where
  neighbourUntil : Int
  positionVector : Option LongPositionVector
  pdr : Option ℚ
  pdrUpdate : Int
  duplicatePacketList : Option DuplicatePacketList
  loctexG5 : Option LocTexG5

namespace LocationTableEntry

def create (now : Int) : LocationTableEntry := ⟨timePointMin, none, none, now, none, none⟩

def linkLayerAddress (entry : LocationTableEntry) : MacAddress :=
  (entry.positionVector.getD .default).gnAddr.mid

def isNeighbour (entry : LocationTableEntry) (now : Int) : Bool := now < entry.neighbourUntil

/-- `update_pdr`; the rate is in octets per second. -/
def updatePdr (entry : LocationTableEntry) (now : Int) (packetSize : Nat)
  (beta : ℚ) : LocationTableEntry :=
  match entry.pdr with
  | none => { entry with pdr := some 0, pdrUpdate := now }
  | some pdr =>
    let timePeriod : ℚ := (now - entry.pdrUpdate) / 10 ^ 6
    if 0 < beta ∧ beta < 1 ∧ 0 < timePeriod then
      let instantPdr : ℚ := packetSize / timePeriod
      { entry with
        pdr := some (pdr * beta + (1 - beta) * instantPdr)
        pdrUpdate := now }
    else entry

def setPositionVector (entry : LocationTableEntry) (pv : LongPositionVector) :
  Bool × LocationTableEntry :=
  if pv.isValid then (true, { entry with positionVector := some pv })
  else (false, entry)

def updatePositionVector (entry : LocationTableEntry)
  (pv : LongPositionVector) : Bool × LocationTableEntry :=
  match entry.positionVector with
  | some old =>
    if old.timestamp.before pv.timestamp then entry.setPositionVector pv
    else (false, entry)
  | none => entry.setPositionVector pv

def setNeighbour (entry : LocationTableEntry) (flag : Bool) : LocationTableEntry :=
  { entry with neighbourUntil := if flag then timePointMax else timePointMin }

/-- `set_neighbour` with an expiry, which is ignored unless positive. -/
def setNeighbourFor (entry : LocationTableEntry) (now : Int) (flag : Bool)
  (expiry : Int) : LocationTableEntry :=
  if flag ∧ 0 < expiry then { entry with neighbourUntil := now + expiry }
  else entry.setNeighbour flag

def pdrExceeds (entry : LocationTableEntry) (limit : ℚ) : Bool :=
  entry.pdr.any fun pdr => limit < pdr

end LocationTableEntry

abbrev LocationTable := SoftStateMap MacAddress LocationTableEntry

namespace LocationTable

def hasEntry (table : LocationTable) (now : Int) (addr : Address) : Bool :=
  table.hasValue now addr.mid

def neighbours (table : LocationTable) (now : Int) : List LocationTableEntry :=
  ((table.entries now).map (·.2)).filter fun entry => entry.isNeighbour now

def hasNeighbours (table : LocationTable) (now : Int) : Bool :=
  (table.entries now).any fun entry => entry.2.isNeighbour now

def getPosition (table : LocationTable) (now : Int) (mac : MacAddress) :
  Option LongPositionVector :=
  (table.getValuePtr now mac).bind (·.positionVector)

def update (table : LocationTable) (now : Int) (lpv : LongPositionVector) : LocationTable :=
  let mac := lpv.gnAddr.mid
  match table.getValuePtr now mac with
  | some entry =>
    if entry.positionVector.isSome then
      let (updated, entry) := entry.updatePositionVector lpv
      let table := table.modify mac fun _ => entry
      if updated then table.refresh now (.create now) mac else table
    else
      (table.refresh now (.create now) mac).modify mac fun entry =>
        (entry.updatePositionVector lpv).2
  | none =>
    (table.refresh now (.create now) mac).modify mac fun entry =>
      (entry.updatePositionVector lpv).2

end LocationTable

end Vanetza.Geonet
