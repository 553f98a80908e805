import Vanetza.Security.V2.PublicKey

/-!
# Regions

Geographic regions, how they are written, and when one lies in another. Most
combinations of regions are not implemented in the source, which answers that
the inner one is not within the outer.
-/

namespace Vanetza.Security.V2

open InputArchive

/-- Tenths of a micro degree, `geo_angle_i32t`. -/
structure TwoDLocation where
  latitude : Int32
  longitude : Int32
  deriving DecidableEq

structure ThreeDLocation where
  latitude : Int32
  longitude : Int32
  elevation : Octets 2
  deriving DecidableEq

def ThreeDLocation.toTwoD (location : ThreeDLocation) : TwoDLocation :=
  ⟨location.latitude, location.longitude⟩

structure CircularRegion where
  center : TwoDLocation
  radius : UInt16
  deriving DecidableEq

structure RectangularRegion where
  northwest : TwoDLocation
  southeast : TwoDLocation
  deriving DecidableEq

structure RegionDictionary where
  raw : UInt8
  deriving DecidableEq

structure IdentifiedRegion where
  regionDictionary : RegionDictionary
  regionIdentifier : Int16
  localRegion : IntX
  deriving DecidableEq

inductive GeographicRegion where
  | none
  | circle (region : CircularRegion)
  | rectangle (list : List RectangularRegion)
  | polygon (points : List TwoDLocation)
  | id (region : IdentifiedRegion)
  deriving DecidableEq

inductive RegionType where
  | none
  | circle
  | rectangle
  | polygon
  | id
  deriving DecidableEq

namespace RegionType

def code : RegionType → UInt8
  | .none => 0
  | .circle => 1
  | .rectangle => 2
  | .polygon => 3
  | .id => 4

def ofCode : UInt8 → Option RegionType := findCode [none, circle, rectangle, polygon, id] code

end RegionType

def GeographicRegion.getType : GeographicRegion → RegionType
  | .none => .none
  | .circle _ => .circle
  | .rectangle _ => .rectangle
  | .polygon _ => .polygon
  | .id _ => .id

def TwoDLocation.serialize (location : TwoDLocation) : ByteBuffer :=
  toBigEndian 4 location.latitude.toUInt32.toNat ++ toBigEndian 4 location.longitude.toUInt32.toNat

def ThreeDLocation.serialize (location : ThreeDLocation) : ByteBuffer :=
  toBigEndian 4 location.latitude.toUInt32.toNat ++
    toBigEndian 4 location.longitude.toUInt32.toNat ++
    location.elevation.toList

def ThreeDLocation.getSize (_ : ThreeDLocation) : Nat := 4 + 4 + 2

def TwoDLocation.getSize (_ : TwoDLocation) : Nat := 4 + 4

def RectangularRegion.getSize (region : RectangularRegion) : Nat :=
  region.northwest.getSize + region.southeast.getSize

def IdentifiedRegion.getSize (region : IdentifiedRegion) : Nat := 1 + 2 + region.localRegion.getSize

def CircularRegion.getSize (region : CircularRegion) : Nat := region.center.getSize + 2

namespace GeographicRegion

def getSize : GeographicRegion → Nat
  | .none => 1 + 0
  | .circle region => 1 + region.getSize
  | .rectangle list =>
    let size := getSizeList RectangularRegion.getSize list
    1 + (size + lengthCodingSize size)
  | .polygon points =>
    let size := getSizeList TwoDLocation.getSize points
    1 + (size + lengthCodingSize size)
  | .id region => 1 + region.getSize

def serialize (region : GeographicRegion) : ByteBuffer :=
  region.getType.code :: match region with
    | .none => []
    | .circle region => region.center.serialize ++ toBigEndian 2 region.radius.toNat
    | .rectangle list =>
      encodeLength (getSizeList RectangularRegion.getSize list) ++ list.flatMap fun rectangle =>
          rectangle.northwest.serialize ++ rectangle.southeast.serialize
    | .polygon points =>
      encodeLength (getSizeList TwoDLocation.getSize points) ++
        points.flatMap TwoDLocation.serialize
    | .id region =>
      region.regionDictionary.raw :: (toBigEndian 2 region.regionIdentifier.toUInt16.toNat ++
          region.localRegion.serialize)

end GeographicRegion

def TwoDLocation.deserialize : Deserialize (TwoDLocation × Nat) := do
  let location : TwoDLocation := ⟨(← loadUInt32).toInt32, (← loadUInt32).toInt32⟩
  return (location, location.getSize)

def ThreeDLocation.deserialize : Deserialize (ThreeDLocation × Nat) := do
  let location : ThreeDLocation := ⟨(← loadUInt32).toInt32, (← loadUInt32).toInt32, ← loadOctets 2⟩
  return (location, location.getSize)

def RectangularRegion.deserialize : Deserialize (RectangularRegion × Nat) := do
  let (northwest, size) ← TwoDLocation.deserialize
  let (southeast, size') ← TwoDLocation.deserialize
  return (⟨northwest, southeast⟩, size + size')

def deserializeCountdown {α : Type} (deserialize : Deserialize (α × Nat)) :
  Nat → Nat → Deserialize (List α)
  | 0, _ => return []
  | fuel + 1, size => do
      if size = 0 then return []
      let (element, elementSize) ← deserialize
      -- the subtraction wraps around
      return element :: (← deserializeCountdown deserialize fuel
        ((size + 2 ^ 64 - elementSize) % 2 ^ 64))

def deserializeRegionList {α : Type} (deserialize : Deserialize (α × Nat)) :
  Deserialize (List α × Nat) := do
  let size ← deserializeLength
  let octets ← Lib.Decoder.remaining
  return (← deserializeCountdown deserialize (octets + 1) size, size)

def CircularRegion.deserialize : Deserialize (CircularRegion × Nat) := do
  let (center, size) ← TwoDLocation.deserialize
  return (⟨center, ← loadUInt16⟩, size + 2)

def IdentifiedRegion.deserialize : Deserialize (IdentifiedRegion × Nat) := do
  let dictionary ← loadByte
  let identifier ← loadUInt16
  let (localRegion, size) ← IntX.deserialize
  return (⟨⟨dictionary⟩, identifier.toInt16, localRegion⟩, 1 + 2 + size)

def GeographicRegion.deserialize : Deserialize (GeographicRegion × Nat) := do
  match RegionType.ofCode (← loadByte) with
  | some .none => return (.none, 1)
  | some .circle =>
    let (region, size) ← CircularRegion.deserialize
    return (.circle region, 1 + size)
  | some .rectangle =>
    let (list, size) ← deserializeRegionList RectangularRegion.deserialize
    return (.rectangle list, 1 + size + lengthCodingSize (1 + size))
  | some .polygon =>
    let (points, size) ← deserializeRegionList TwoDLocation.deserialize
    return (.polygon points, 1 + size + lengthCodingSize (1 + size))
  | some .id =>
    let (region, size) ← IdentifiedRegion.deserialize
    return (.id region, 1 + size)
  | .none => throw (.deserializationError "Unknown RegionType")

abbrev Distance := TwoDLocation → TwoDLocation → ℚ

def RectangularRegion.contains (rectangle : RectangularRegion) (position : TwoDLocation) : Bool :=
  if rectangle.northwest.latitude ≤ rectangle.southeast.latitude then false
  else if rectangle.northwest.longitude ≥ rectangle.southeast.longitude then
    false
  else if rectangle.northwest.latitude < position.latitude then false
  else if rectangle.northwest.longitude > position.longitude then false
  else if rectangle.southeast.latitude > position.latitude then false
  else if rectangle.southeast.longitude < position.longitude then false
  else true

def GeographicRegion.contains (distance : Distance) (region : GeographicRegion)
  (position : TwoDLocation) : Bool :=
  match region with
  | .none => true
  | .circle region => distance position region.center ≤ region.radius.toNat
  | .rectangle list =>
    if 6 < list.length then false
    else list.any fun rectangle => rectangle.contains position
  | .polygon _ => false
  | .id _ => false

def GeographicRegion.isWithin (distance : Distance) (inner outer : GeographicRegion) : Bool :=
  match outer with
  | .none => true
  | .circle outer =>
    match inner with
    | .circle inner =>
      inner = outer || distance inner.center outer.center + inner.radius.toNat ≤ outer.radius.toNat
    | _ => false
  | .rectangle outer =>
    match inner with
    | .rectangle inner => inner = outer
    | _ => false
  | .polygon _ => false
  | .id _ => false

end Vanetza.Security.V2
