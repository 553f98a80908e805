import Mathlib.Algebra.Ring.Nat
import Mathlib.Data.Rat.Defs
import Vanetza.Common.ByteBuffer

/-!
# Addresses and position vectors

The parts most headers share. A GeoNetworking address wraps a link-layer
address; a position vector says where and when a station was, and carries its
address along.
-/

namespace Vanetza

abbrev MacAddress := Octets 6

def cBroadcastMacAddress : MacAddress := .replicate 6 0xff

namespace Geonet

open InputArchive

-- for numbers of 4, 5, 10 and 15 bits
instance neZero_16 : NeZero 16 := ⟨by decide⟩
instance neZero_32 : NeZero 32 := ⟨by decide⟩
instance neZero_1024 : NeZero 1024 := ⟨by decide⟩
instance neZero_32768 : NeZero 32768 := ⟨by decide⟩

/-- `Address`; a station type fits five bits. -/
structure Address where
  isManuallyConfigured : Bool
  stationType : Fin 32
  countryCode : Fin 1024
  mid : MacAddress
  deriving DecidableEq

namespace Address

def default : Address := ⟨false, 0, 0, .replicate 6 0⟩

def deserialize : Deserialize Address := do
  let tmp ← loadUInt16
  let mid ← loadOctets 6
  return { isManuallyConfigured := tmp &&& 0x8000 != 0
           stationType := Fin.ofNat 32 ((tmp &&& 0x7c00) >>> 10).toNat
           countryCode := Fin.ofNat 1024 (tmp &&& 0x03ff).toNat
           mid }

end Address

structure SequenceNumber where
  number : UInt16
  deriving DecidableEq

def SequenceNumber.deserialize : Deserialize SequenceNumber := SequenceNumber.mk <$> loadUInt16

structure Timestamp where
  raw : UInt32
  deriving DecidableEq

namespace Timestamp

def ofTimePoint (time : Int) : Timestamp := ⟨UInt32.ofNat (time.tdiv 1000 % 2 ^ 32).toNat⟩

def isGreater (lhs rhs : Timestamp) : Bool :=
  (rhs.raw < lhs.raw && lhs.raw - rhs.raw ≤ 0x7fffffff) ||
    (lhs.raw < rhs.raw && 0x7fffffff < rhs.raw - lhs.raw)

def before (lhs rhs : Timestamp) : Bool := !lhs.isGreater rhs && lhs != rhs

def deserialize : Deserialize Timestamp := Timestamp.mk <$> loadUInt32

end Timestamp

structure GeodeticPosition where
  latitude : ℚ
  longitude : ℚ
  deriving DecidableEq

/-- `geo_angle_i32t`: tenths of a microdegree. -/
def degrees (angle : Int32) : ℚ := angle.toInt / 10 ^ 7

def loadInt32 : Deserialize Int32 := UInt32.toInt32 <$> loadUInt32

/-- `LongPositionVector`; the speed is in centimetres per second, the heading
in tenths of a degree. -/
structure LongPositionVector where
  gnAddr : Address
  timestamp : Timestamp
  latitude : Int32
  longitude : Int32
  positionAccuracyIndicator : Bool
  speed : Fin 32768
  heading : UInt16
  deriving DecidableEq

namespace LongPositionVector

def lengthBytes : Nat := 24

def default : LongPositionVector := ⟨.default, ⟨0⟩, 0, 0, false, 0, 0⟩

def position (pv : LongPositionVector) : GeodeticPosition :=
  ⟨degrees pv.latitude, degrees pv.longitude⟩

def isEmpty (pv : LongPositionVector) : Bool := pv = .default

def isValid (pv : LongPositionVector) : Bool :=
  !pv.isEmpty && (-900000000 ≤ pv.latitude && pv.latitude ≤ 900000000) &&
    (-1800000000 ≤ pv.longitude && pv.longitude ≤ 1800000000) &&
    pv.heading ≤ 3600

def deserialize : Deserialize LongPositionVector := do
  let gnAddr ← Address.deserialize
  let timestamp ← Timestamp.deserialize
  let latitude ← loadInt32
  let longitude ← loadInt32
  let paiAndSpeed ← loadUInt16
  let heading ← loadUInt16
  return { gnAddr, timestamp, latitude, longitude, heading
           positionAccuracyIndicator := paiAndSpeed &&& 0x8000 != 0
           speed := Fin.ofNat 32768 paiAndSpeed.toNat }

end LongPositionVector

structure ShortPositionVector where
  gnAddr : Address
  timestamp : Timestamp
  latitude : Int32
  longitude : Int32
  deriving DecidableEq

def LongPositionVector.toShort (pv : LongPositionVector) : ShortPositionVector :=
  ⟨pv.gnAddr, pv.timestamp, pv.latitude, pv.longitude⟩

end Geonet

end Vanetza
