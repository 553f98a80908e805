import Vanetza.Geonet.PositionVector
import Vanetza.Security.V2.SecuredMessage
import Vanetza.Security.V3.SecuredMessage

/-!
# GeoNetworking headers

A packet starts with a basic header. Then there is either a common header with
an extended header, or a secured message that has these two inside. Lifetimes
are read in exact arithmetic.
-/

namespace Vanetza

inductive Security.SecuredMessage where
  | v2 (message : Security.V2.SecuredMessage)
  | v3 (message : Security.V3.SecuredMessage)

namespace Geonet

open InputArchive Security

/-- `Lifetime`: a multiplier of six bits and a base of two. -/
structure Lifetime where
  raw : UInt8
  deriving DecidableEq

namespace Lifetime

def zero : Lifetime := ⟨0⟩

def unit (base : UInt8) : ℚ :=
  match base with
  | 0 => 1 / 20
  | 1 => 1
  | 2 => 10
  | _ => 100

def decode (lifetime : Lifetime) : ℚ :=
  ((lifetime.raw &&& 0xfc) >>> 2).toNat * unit (lifetime.raw &&& 0x03)

/-- `set`; excessive bits of the multiplier are cut off. -/
def set (base : UInt8) (multiplier : Int) : Lifetime :=
  ⟨UInt8.ofNat (multiplier % 64).toNat <<< 2 ||| (base &&& 0x03)⟩

/-- `std::lround` of a number that is not negative. -/
def round (x : ℚ) : Int := (x + 1 / 2).floor

def encode (seconds : ℚ) : Lifetime :=
  if 630 ≤ seconds then set 3 (round (seconds / 100))
  else if 63 ≤ seconds then set 2 (round (seconds / 10))
  else if 63 / 20 ≤ seconds then set 1 (round seconds)
  else set 0 (round (seconds * 20))

end Lifetime

structure NextHeaderBasic where
  code : Fin 16
  deriving DecidableEq

namespace NextHeaderBasic

def any : NextHeaderBasic := ⟨0⟩
def common : NextHeaderBasic := ⟨1⟩
def secured : NextHeaderBasic := ⟨2⟩

end NextHeaderBasic

structure BasicHeader where
  version : Fin 16
  nextHeader : NextHeaderBasic
  reserved : UInt8
  lifetime : Lifetime
  hopLimit : UInt8
  deriving DecidableEq

namespace BasicHeader

def lengthBytes : Nat := 4

def default : BasicHeader := ⟨0, .any, 0, .zero, 0⟩

def deserialize : Deserialize BasicHeader := do
  let versionAndNextHeader ← loadByte
  let reserved ← loadByte
  let lifetime ← loadByte
  let hopLimit ← loadByte
  return { version := Fin.ofNat 16 (versionAndNextHeader >>> 4).toNat
           nextHeader := ⟨Fin.ofNat 16 (versionAndNextHeader &&& 0x0f).toNat⟩
           reserved, lifetime := ⟨lifetime⟩, hopLimit }

end BasicHeader

structure NextHeaderCommon where
  code : Fin 16
  deriving DecidableEq

namespace NextHeaderCommon

def any : NextHeaderCommon := ⟨0⟩
def btpA : NextHeaderCommon := ⟨1⟩
def btpB : NextHeaderCommon := ⟨2⟩
def ipv6 : NextHeaderCommon := ⟨3⟩

end NextHeaderCommon

structure HeaderType where
  code : UInt8
  deriving DecidableEq

namespace HeaderType

def any : HeaderType := ⟨0x00⟩
def beacon : HeaderType := ⟨0x10⟩
def geoBroadcastCircle : HeaderType := ⟨0x40⟩
def geoBroadcastRect : HeaderType := ⟨0x41⟩
def geoBroadcastElip : HeaderType := ⟨0x42⟩
def tsbSingleHop : HeaderType := ⟨0x50⟩
def tsbMultiHop : HeaderType := ⟨0x51⟩

end HeaderType

structure TrafficClass where
  raw : UInt8
  deriving DecidableEq

def TrafficClass.storeCarryForward (tc : TrafficClass) : Bool := tc.raw &&& 0x80 != 0

def TrafficClass.tcId (tc : TrafficClass) : UInt8 := tc.raw &&& 0x3f

structure CommonHeader where
  nextHeader : NextHeaderCommon
  reserved1 : Fin 16
  headerType : HeaderType
  trafficClass : TrafficClass
  flags : UInt8
  payload : UInt16
  maximumHopLimit : UInt8
  reserved2 : UInt8
  deriving DecidableEq

namespace CommonHeader

def lengthBytes : Nat := 8

def default : CommonHeader := ⟨.any, 0, .any, ⟨0⟩, 0, 0, 0, 0⟩

def deserialize : Deserialize CommonHeader := do
  let nextHeaderAndReserved ← loadByte
  let headerType ← loadByte
  let trafficClass ← loadByte
  let flags ← loadByte
  let payload ← loadUInt16
  let maximumHopLimit ← loadByte
  let reserved2 ← loadByte
  return { nextHeader := ⟨Fin.ofNat 16 (nextHeaderAndReserved >>> 4).toNat⟩
           reserved1 := Fin.ofNat 16 (nextHeaderAndReserved &&& 0x0f).toNat
           headerType := ⟨headerType⟩, trafficClass := ⟨trafficClass⟩
           flags, payload, maximumHopLimit, reserved2 }

end CommonHeader

structure BeaconHeader where
  sourcePosition : LongPositionVector
  deriving DecidableEq

structure DccMcoField where
  cbrL0Hop : UInt8
  cbrL1Hop : UInt8
  outputPower : Fin 32
  deriving DecidableEq

def DccMcoField.ofRaw (field : UInt32) : DccMcoField :=
  ⟨(field >>> 24).toUInt8, (field >>> 16).toUInt8,
    ⟨(field >>> 11).toNat % 32, Nat.mod_lt _ (Nat.succ_pos 31)⟩⟩

inductive DccField where
  | mco (field : DccMcoField)
  | raw (field : UInt32)
  deriving DecidableEq

/-- `get_dcc_mco`, which never fails for the two kinds of fields there are. -/
def DccField.getDccMco : DccField → Option DccMcoField
  | .mco field => some field
  | .raw field => some (.ofRaw field)

structure ShbHeader where
  sourcePosition : LongPositionVector
  dcc : DccField
  deriving DecidableEq

structure TsbHeader where
  sequenceNumber : SequenceNumber
  reserved : UInt16
  sourcePosition : LongPositionVector
  deriving DecidableEq

structure GeoBroadcastHeader where
  sequenceNumber : SequenceNumber
  reserved1 : UInt16
  sourcePosition : LongPositionVector
  geoAreaPosLatitude : Int32
  geoAreaPosLongitude : Int32
  distanceA : UInt16
  distanceB : UInt16
  angle : UInt16
  reserved2 : UInt16
  deriving DecidableEq

def BeaconHeader.deserialize : Deserialize BeaconHeader :=
  BeaconHeader.mk <$> LongPositionVector.deserialize

def ShbHeader.deserialize : Deserialize ShbHeader := do
  let sourcePosition ← LongPositionVector.deserialize
  let dcc ← loadUInt32
  return ⟨sourcePosition, .raw dcc⟩

def TsbHeader.deserialize : Deserialize TsbHeader := do
  let sequenceNumber ← SequenceNumber.deserialize
  let reserved ← loadUInt16
  let sourcePosition ← LongPositionVector.deserialize
  return { sequenceNumber, reserved, sourcePosition }

def GeoBroadcastHeader.deserialize : Deserialize GeoBroadcastHeader := do
  let sequenceNumber ← SequenceNumber.deserialize
  let reserved1 ← loadUInt16
  let sourcePosition ← LongPositionVector.deserialize
  let geoAreaPosLatitude ← loadInt32
  let geoAreaPosLongitude ← loadInt32
  let distanceA ← loadUInt16
  let distanceB ← loadUInt16
  let angle ← loadUInt16
  let reserved2 ← loadUInt16
  return { sequenceNumber, reserved1, sourcePosition, geoAreaPosLatitude
           geoAreaPosLongitude, distanceA, distanceB, angle, reserved2 }

inductive Shape where
  | rectangle (a b : ℚ)
  | ellipse (a b : ℚ)
  | circle (r : ℚ)
  deriving DecidableEq

/-- `Area`; the angle is in degrees. -/
structure Area where
  shape : Shape
  position : GeodeticPosition
  angle : ℚ
  deriving DecidableEq

namespace GeoBroadcastHeader

def position (gbc : GeoBroadcastHeader) : GeodeticPosition :=
  ⟨degrees gbc.geoAreaPosLatitude, degrees gbc.geoAreaPosLongitude⟩

def destination (gbc : GeoBroadcastHeader) (ht : HeaderType) : Except Exception Area :=
  let a : ℚ := gbc.distanceA.toNat
  let b : ℚ := gbc.distanceB.toNat
  if ht = .geoBroadcastCircle then
    return ⟨.circle a, gbc.position, gbc.angle.toNat⟩
  else if ht = .geoBroadcastRect then
    return ⟨.rectangle a b, gbc.position, gbc.angle.toNat⟩
  else if ht = .geoBroadcastElip then
    return ⟨.ellipse a b, gbc.position, gbc.angle.toNat⟩
  else throw (.runtimeError "Invalid GBC header type")

end GeoBroadcastHeader

inductive HeaderVariant where
  | beacon (header : BeaconHeader)
  | gbc (header : GeoBroadcastHeader)
  | shb (header : ShbHeader)
  | tsb (header : TsbHeader)
  deriving DecidableEq

def HeaderVariant.getLength : HeaderVariant → Nat
  | .beacon _ => LongPositionVector.lengthBytes
  | .gbc _ => 20 + LongPositionVector.lengthBytes
  | .shb _ => 4 + LongPositionVector.lengthBytes
  | .tsb _ => 4 + LongPositionVector.lengthBytes

/-- `ExtendedPdu`, over the type of its extended header. -/
structure ExtendedPdu (H : Type) where
  basic : BasicHeader
  common : CommonHeader
  extended : H
  secured : Option SecuredMessage

abbrev Pdu := ExtendedPdu HeaderVariant

abbrev ShbPdu := ExtendedPdu ShbHeader
abbrev TsbPdu := ExtendedPdu TsbHeader
abbrev GbcPdu := ExtendedPdu GeoBroadcastHeader

structure Codec where
  decodeOer : ByteBuffer → Option V3.SecuredMessage
  sizeOer : V3.SecuredMessage → Nat

def Codec.getSize (codec : Codec) : SecuredMessage → Nat
  | .v2 message => message.getSize
  | .v3 message => codec.sizeOer message

namespace ExtendedPdu

variable {H : Type}

def withExtended {H' : Type} (pdu : ExtendedPdu H) (extended : H') : ExtendedPdu H' :=
  { pdu with extended }

/-- `get_length`; of a secured PDU, common and extended header do not count. -/
def getLength (codec : Codec) (pdu : Pdu) : Nat :=
  match pdu.secured with
  | some message => BasicHeader.lengthBytes + codec.getSize message
  | none => BasicHeader.lengthBytes + CommonHeader.lengthBytes + pdu.extended.getLength

end ExtendedPdu

end Geonet

end Vanetza
