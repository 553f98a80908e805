import Vanetza.Common.Serialization

/-!
# Country data files

A version, then one entry after the other: a country code, the size of a WKB geometry and the
geometry, a polygon or several of them with a byte order each.
-/

namespace Vanetza.Geodesy

open List

def readWord (n : Nat) (littleEndian : Bool) (data : ByteBuffer) : Nat :=
  if littleEndian then ofBigEndian (data.take n).reverse else ofBigEndian (data.take n)

/-- Coordinates are kept as the bits of a double. -/
structure Point where
  lon : UInt64
  lat : UInt64

structure Polygon where
  outer : List Point
  inners : List (List Point)

structure ReaderFailure where
  message : String
  position : Nat

def ReaderFailure.addOffset (f : ReaderFailure) (offset : Nat) : ReaderFailure :=
  { f with position := f.position + offset }

/-- What was read and the position after it, or where reading failed. -/
inductive Reading (α : Type) where
  | ok (value : α) (position : Nat)
  | failure (f : ReaderFailure)

namespace Reading

variable {α β : Type}

def position : Reading α → Nat
  | .ok _ position => position
  | .failure f => f.position

def map (g : α → β) : Reading α → Reading β
  | .ok value position => .ok (g value) position
  | .failure f => .failure f

def addOffset (offset : Nat) : Reading α → Reading α
  | .ok value position => .ok value (position + offset)
  | .failure f => .failure (f.addOffset offset)

theorem position_map (g : α → β) (r : Reading α) : (r.map g).position = r.position := by
  cases r <;> rfl

theorem position_addOffset (offset : Nat) (r : Reading α) :
  (r.addOffset offset).position = r.position + offset := by
  cases r <;> rfl

end Reading

def readPoints (le : Bool) : Nat → ByteBuffer → List Point
  | 0, _ => []
  | n + 1, data =>
    ⟨UInt64.ofNat (readWord 8 le data), UInt64.ofNat (readWord 8 le (data.drop 8))⟩ ::
      readPoints le n (data.drop 16)

def parseRings (le : Bool) : Nat → Nat → ByteBuffer → Reading (List (List Point))
  | 0, offset, _ => .ok [] offset
  | rings + 1, offset, data =>
    if data.length < 4 then .failure ⟨"truncated polygon: missing point count", offset⟩
    else
      let numPoints := readWord 4 le data
      let body := data.drop 4
      if body.length < numPoints * 16 then
        .failure ⟨"truncated polygon: missinsg point data", offset + 4⟩
      else
        (parseRings le rings (offset + 4 + numPoints * 16) (body.drop (numPoints * 16))).map
          (readPoints le numPoints body :: ·)

def ofRings : List (List Point) → Polygon
  | [] => ⟨[], []⟩
  | outer :: inners => ⟨outer, inners⟩

def parsePolygonBody (le : Bool) (data : ByteBuffer) : Reading Polygon :=
  if data.length < 4 then .failure ⟨"truncated polygon: missing ring count", 0⟩
  else (parseRings le (readWord 4 le data) 4 (data.drop 4)).map ofRings

def parsePolygons : Nat → Nat → ByteBuffer → Reading (List Polygon)
  | 0, offset, _ => .ok [] offset
  | polygons + 1, offset, data =>
    if data.length < 5 then
      .failure ⟨"truncated multi-polygon: missing polygon header", offset⟩
    else
      let le := data.headD 0 == 1
      if readWord 4 le (data.drop 1) ≠ 3 then
        .failure ⟨"unexpected geometry type inside multi-polygon", offset + 1⟩
      else
        match parsePolygonBody le (data.drop 5) with
        | .failure f => .failure (f.addOffset (offset + 5))
        | .ok polygon used =>
          (parsePolygons polygons (offset + 5 + used) (data.drop (5 + used))).map (polygon :: ·)

def parseWkb (data : ByteBuffer) : Reading (List Polygon) :=
  if data.length < 5 then .failure ⟨"WKB too short for header", 0⟩
  else
    let le := data.headD 0 == 1
    let type := readWord 4 le (data.drop 1)
    if type = 3 then ((parsePolygonBody le (data.drop 5)).map ([·])).addOffset 5
    else if type = 6 then
      if data.length < 9 then
        .failure ⟨"truncated multi-polygon: missing polygon count", 5⟩
      else parsePolygons (readWord 4 le (data.drop 5)) 9 (data.drop 9)
    else .failure ⟨"unsupported WKB geometry type", 1⟩

inductive CountryReaderResult where
  | success (position : Nat)
  | failure (f : ReaderFailure)

def CountryReaderResult.position : CountryReaderResult → Nat
  | .success position => position
  | .failure f => f.position

def readEntries (offset : Nat) (data : ByteBuffer) :
  CountryReaderResult × List (UInt16 × List Polygon) :=
  if data.length = 0 then (.success offset, [])
  else if data.length < 6 then (.failure ⟨"truncated entry header", offset⟩, [])
  else
    let wkbSize := readWord 4 true (data.drop 2)
    if (data.drop 6).length < wkbSize then
      (.failure ⟨"invalid WKB payload size exceeding remaining data", offset + 6⟩, [])
    else
      match parseWkb ((data.drop 6).take wkbSize) with
      | .failure f => (.failure (f.addOffset (offset + 6)), [])
      | .ok polygons _ =>
        let rest := readEntries (offset + 6 + wkbSize) (data.drop (6 + wkbSize))
        (rest.1, (UInt16.ofNat (readWord 2 true data), polygons) :: rest.2)
termination_by data.length
decreasing_by simp; omega

def readCountryData (data : ByteBuffer) : CountryReaderResult × List (UInt16 × List Polygon) :=
  if data.length < 2 then
    (.failure ⟨"truncated file header: missing version field", 0⟩, [])
  else if readWord 2 true data ≠ 1 then
    (.failure ⟨"unsupported country data format version", 0⟩, [])
  else readEntries 2 (data.drop 2)

theorem parseRings_position (le : Bool) (rings offset : Nat) (data : ByteBuffer) :
  (parseRings le rings offset data).position ≤ offset + data.length := by
  induction rings generalizing offset data with
  | zero => exact Nat.le_add_right _ _
  | succ rings ih =>
    rw [parseRings]
    split
    · exact Nat.le_add_right _ _
    dsimp only
    split
    · show offset + 4 ≤ _
      omega
    next hb =>
    have hr := ih (offset + 4 + readWord 4 le data * 16)
      ((data.drop 4).drop (readWord 4 le data * 16))
    rw [length_drop] at hb hr
    rw [length_drop] at hr
    rw [Reading.position_map]
    omega

theorem parsePolygonBody_position (le : Bool) (data : ByteBuffer) :
  (parsePolygonBody le data).position ≤ data.length := by
  rw [parsePolygonBody]
  split
  · exact Nat.zero_le _
  have hr := parseRings_position le (readWord 4 le data) 4 (data.drop 4)
  rw [length_drop] at hr
  rw [Reading.position_map]
  omega

theorem parsePolygons_position (polygons offset : Nat) (data : ByteBuffer) :
  (parsePolygons polygons offset data).position ≤ offset + data.length := by
  induction polygons generalizing offset data with
  | zero => exact Nat.le_add_right _ _
  | succ polygons ih =>
    rw [parsePolygons]
    split
    · exact Nat.le_add_right _ _
    dsimp only
    split
    · show offset + 1 ≤ _
      omega
    have hb := parsePolygonBody_position (data.headD 0 == 1) (data.drop 5)
    rw [length_drop] at hb
    split
    · next f hr =>
      rw [hr] at hb
      show f.position + (offset + 5) ≤ _
      have hle : f.position ≤ _ := hb
      omega
    · next polygon used hr =>
      rw [hr] at hb
      have hu : used ≤ _ := hb
      have hre := ih (offset + 5 + used) (data.drop (5 + used))
      rw [length_drop] at hre
      rw [Reading.position_map]
      omega

theorem parseWkb_position (data : ByteBuffer) : (parseWkb data).position ≤ data.length := by
  rw [parseWkb]
  split
  · exact Nat.zero_le _
  dsimp only
  split
  · have hb := parsePolygonBody_position (data.headD 0 == 1) (data.drop 5)
    rw [length_drop] at hb
    rw [Reading.position_addOffset, Reading.position_map]
    omega
  split
  · split
    · show 5 ≤ _
      omega
    · have ha := parsePolygons_position (readWord 4 (data.headD 0 == 1) (data.drop 5)) 9
        (data.drop 9)
      rw [length_drop] at ha
      omega
  · show 1 ≤ _
    omega

theorem readEntries_position (offset : Nat) (data : ByteBuffer) :
  (readEntries offset data).1.position ≤ offset + data.length := by
  induction hlen : data.length using Nat.strong_induction_on generalizing offset data with
  | h n ih =>
    subst hlen
    rw [readEntries]
    split
    · exact Nat.le_add_right _ _
    split
    · exact Nat.le_add_right _ _
    dsimp only
    split
    · show offset + 6 ≤ _
      omega
    next hs =>
    rw [length_drop] at hs
    split
    · next f hr =>
      have hw := parseWkb_position ((data.drop 6).take (readWord 4 true (data.drop 2)))
      rw [hr, length_take, length_drop] at hw
      show f.position + (offset + 6) ≤ _
      have hle : f.position ≤ _ := hw
      omega
    · have hre := ih (data.drop (6 + readWord 4 true (data.drop 2))).length
        (by rw [length_drop]; omega) (offset + 6 + readWord 4 true (data.drop 2))
        (data.drop (6 + readWord 4 true (data.drop 2))) rfl
      rw [length_drop] at hre
      show (readEntries _ _).1.position ≤ _
      omega

theorem readCountryData_position (data : ByteBuffer) :
  (readCountryData data).1.position ≤ data.length := by
  rw [readCountryData]
  split
  · exact Nat.zero_le _
  split
  · exact Nat.zero_le _
  · have hen := readEntries_position 2 (data.drop 2)
    rw [length_drop] at hen
    omega

def writeWord (n : Nat) (littleEndian : Bool) (value : Nat) : ByteBuffer :=
  if littleEndian then (toBigEndian n value).reverse else toBigEndian n value

def writePoint (le : Bool) (point : Point) : ByteBuffer :=
  writeWord 8 le point.lon.toNat ++ writeWord 8 le point.lat.toNat

def writeRing (le : Bool) (ring : List Point) : ByteBuffer :=
  writeWord 4 le ring.length ++ ring.flatMap (writePoint le)

def writeHeader (le : Bool) (type : Nat) : ByteBuffer :=
  (if le then 1 else 0) :: writeWord 4 le type

def writePolygon (part : Bool × Polygon) : ByteBuffer :=
  writeHeader part.1 3 ++ (writeWord 4 part.1 (part.2.inners.length + 1) ++
    (part.2.outer :: part.2.inners).flatMap (writeRing part.1))

inductive Geometry where
  | polygon (part : Bool × Polygon)
  | multiPolygon (le : Bool) (parts : List (Bool × Polygon))

namespace Geometry

def polygons : Geometry → List Polygon
  | .polygon part => [part.2]
  | .multiPolygon _ parts => parts.map (·.2)

def wkb : Geometry → ByteBuffer
  | .polygon part => writePolygon part
  | .multiPolygon le parts =>
    writeHeader le 6 ++ (writeWord 4 le parts.length ++ parts.flatMap writePolygon)

end Geometry

structure CountryEntry where
  code : UInt16
  geometry : Geometry

namespace CountryEntry

def content (entry : CountryEntry) : UInt16 × List Polygon := (entry.code, entry.geometry.polygons)

def write (entry : CountryEntry) : ByteBuffer :=
  writeWord 2 true entry.code.toNat ++
    (writeWord 4 true entry.geometry.wkb.length ++ entry.geometry.wkb)

end CountryEntry

def Polygon.Fits (polygon : Polygon) : Prop :=
  polygon.inners.length + 1 < 256 ^ 4 ∧
    ∀ ring ∈ polygon.outer :: polygon.inners, ring.length < 256 ^ 4

def CountryEntry.Fits (entry : CountryEntry) : Prop :=
  entry.geometry.wkb.length < 256 ^ 4 ∧ entry.geometry.polygons.length < 256 ^ 4 ∧
    ∀ polygon ∈ entry.geometry.polygons, polygon.Fits

def writeFile (entries : List CountryEntry) : ByteBuffer :=
  writeWord 2 true 1 ++ entries.flatMap CountryEntry.write

@[simp] theorem length_writeWord (n : Nat) (le : Bool) (value : Nat) :
  (writeWord n le value).length = n := by
  cases le <;> simp [writeWord]

theorem readWord_writeWord {n value : Nat} (h : value < 256 ^ n) (le : Bool) (rest : ByteBuffer) :
  readWord n le (writeWord n le value ++ rest) = value := by
  have ht : (writeWord n le value ++ rest).take n = writeWord n le value :=
    take_left' (length_writeWord n le value)
  rw [readWord, ht]
  cases le <;> simp [writeWord, ofBigEndian_toBigEndian, Nat.mod_eq_of_lt h]

theorem drop_writeWord {n : Nat} (le : Bool) (value : Nat) (rest : ByteBuffer) :
  (writeWord n le value ++ rest).drop n = rest :=
  drop_left' (length_writeWord n le value)

theorem readPoints_write (le : Bool) (ring : List Point) (rest : ByteBuffer) :
  readPoints le ring.length (ring.flatMap (writePoint le) ++ rest) = ring := by
  induction ring with
  | nil => rfl
  | cons point ring ih =>
    have hlon : point.lon.toNat < 256 ^ 8 := point.lon.toNat_lt
    have hl : point.lat.toNat < 256 ^ 8 := point.lat.toNat_lt
    rw [length_cons, readPoints, flatMap_cons, writePoint]
    simp only [append_assoc]
    rw [readWord_writeWord hlon, drop_writeWord, readWord_writeWord hl,
      show 16 = 8 + 8 from rfl, ← drop_drop, drop_writeWord, drop_writeWord, ih]
    simp

theorem length_writePoints (le : Bool) (ring : List Point) :
  (ring.flatMap (writePoint le)).length = ring.length * 16 := by
  simp [length_flatMap, writePoint]

theorem parseRings_write (le : Bool) {rings : List (List Point)}
  (h : ∀ ring ∈ rings, ring.length < 256 ^ 4) (offset : Nat) (rest : ByteBuffer) :
  parseRings le rings.length offset (rings.flatMap (writeRing le) ++ rest) =
    .ok rings (offset + (rings.flatMap (writeRing le)).length) := by
  induction rings generalizing offset with
  | nil => rfl
  | cons ring rings ih =>
    obtain ⟨hr, hrin⟩ := forall_mem_cons.1 h
    have hp := length_writePoints le ring
    rw [length_cons, parseRings, flatMap_cons, writeRing]
    simp only [append_assoc]
    rw [if_neg (by simp), readWord_writeWord hr, drop_writeWord,
      if_neg (by simp [hp]), readPoints_write, drop_left' hp, ih hrin]
    simp only [Reading.map, length_append, length_writeWord, hp]
    congr 1
    omega

theorem parsePolygonBody_write {polygon : Polygon} (h : polygon.Fits) (le : Bool)
  (rest : ByteBuffer) :
  parsePolygonBody le (writeWord 4 le (polygon.inners.length + 1) ++
    ((polygon.outer :: polygon.inners).flatMap (writeRing le) ++ rest)) =
    .ok polygon (4 + ((polygon.outer :: polygon.inners).flatMap (writeRing le)).length) := by
  have hr := parseRings_write le h.2 4 rest
  rw [length_cons] at hr
  rw [parsePolygonBody, if_neg (by simp), readWord_writeWord h.1, drop_writeWord, hr]
  rfl

theorem head_writeHeader (le : Bool) (type : Nat) (rest : ByteBuffer) :
  ((writeHeader le type ++ rest).headD 0 == 1) = le := by
  cases le <;> rfl

theorem length_writePolygon (part : Bool × Polygon) : (writePolygon part).length =
  5 + (4 + ((part.2.outer :: part.2.inners).flatMap (writeRing part.1)).length) := by
  simp only [writePolygon, writeHeader, length_append, length_cons, length_writeWord]

theorem readWord_writeHeader (le : Bool) {type : Nat} (h : type < 256 ^ 4) (rest : ByteBuffer) :
  readWord 4 le ((writeHeader le type ++ rest).drop 1) = type :=
  readWord_writeWord h le rest

theorem drop_writeHeader (le : Bool) (type : Nat) (rest : ByteBuffer) :
  (writeHeader le type ++ rest).drop 5 = rest :=
  drop_left' (by simp [writeHeader])

theorem parsePolygons_write {parts : List (Bool × Polygon)} (h : ∀ part ∈ parts, part.2.Fits)
  (offset : Nat) (rest : ByteBuffer) :
  parsePolygons parts.length offset (parts.flatMap writePolygon ++ rest) =
    .ok (parts.map (·.2)) (offset + (parts.flatMap writePolygon).length) := by
  induction parts generalizing offset with
  | nil => rfl
  | cons part parts ih =>
    obtain ⟨hp, hpar⟩ := forall_mem_cons.1 h
    have hl := length_writePolygon part
    have hb := parsePolygonBody_write hp part.1 (parts.flatMap writePolygon ++ rest)
    have ha : (part :: parts).flatMap writePolygon ++ rest = writeHeader part.1 3 ++
        (writeWord 4 part.1 (part.2.inners.length + 1) ++
          ((part.2.outer :: part.2.inners).flatMap (writeRing part.1) ++
            (parts.flatMap writePolygon ++ rest))) := by
      simp only [flatMap_cons, writePolygon, append_assoc]
    have hd : ((part :: parts).flatMap writePolygon ++ rest).drop (writePolygon part).length =
        parts.flatMap writePolygon ++ rest := by
      rw [flatMap_cons, append_assoc, drop_left]
    rw [hl] at hd
    rw [ha] at hd ⊢
    rw [length_cons, parsePolygons, if_neg (by simp [writeHeader])]
    dsimp only
    rw [head_writeHeader, readWord_writeHeader _ (by norm_num), if_neg (by simp),
      drop_writeHeader, hb]
    dsimp only
    rw [hd, ih hpar, Reading.map]
    have hend : ((part :: parts).flatMap writePolygon).length =
        (writePolygon part).length + (parts.flatMap writePolygon).length := length_append
    rw [hend, hl]
    refine congrArg (Reading.ok _) ?_
    omega

theorem parseWkb_write {entry : CountryEntry} (h : entry.Fits) :
  parseWkb entry.geometry.wkb = .ok entry.geometry.polygons entry.geometry.wkb.length := by
  obtain ⟨-, hc, hpol⟩ := h
  cases hg : entry.geometry with
  | polygon part =>
    rw [hg] at hpol
    have hb := parsePolygonBody_write (hpol part.2 (mem_singleton.2 rfl)) part.1 []
    rw [append_nil] at hb
    rw [Geometry.wkb, length_writePolygon, writePolygon, parseWkb, if_neg (by simp [writeHeader])]
    dsimp only
    rw [head_writeHeader, readWord_writeHeader _ (by norm_num), if_pos rfl, drop_writeHeader, hb]
    simp only [Reading.map, Reading.addOffset, Geometry.polygons]
    congr 1
    omega
  | multiPolygon le parts =>
    rw [hg] at hc hpol
    have hl : parts.length < 256 ^ 4 := by simpa [Geometry.polygons] using hc
    have hf : ∀ part ∈ parts, part.2.Fits := fun part hp => hpol part.2 (mem_map_of_mem hp)
    have hpar := parsePolygons_write hf 9 []
    rw [append_nil] at hpar
    have hd : (writeHeader le 6 ++ (writeWord 4 le parts.length ++
        parts.flatMap writePolygon)).drop 9 = parts.flatMap writePolygon := by
      rw [show 9 = 5 + 4 from rfl, ← drop_drop, drop_writeHeader, drop_writeWord]
    rw [Geometry.wkb, parseWkb, if_neg (by simp [writeHeader])]
    dsimp only
    rw [head_writeHeader, readWord_writeHeader _ (by norm_num), if_neg (by simp), if_pos rfl,
      if_neg (by simp [writeHeader]; omega), drop_writeHeader, readWord_writeWord hl, hd, hpar]
    simp only [Geometry.polygons, writeHeader, length_append, length_cons, length_writeWord]
    congr 1
    omega

theorem length_write (entry : CountryEntry) :
  entry.write.length = 6 + entry.geometry.wkb.length := by
  simp only [CountryEntry.write, length_append, length_writeWord]
  omega

theorem readEntries_write {entry : CountryEntry} (h : entry.Fits) (offset : Nat)
  (rest : ByteBuffer) : readEntries offset (entry.write ++ rest) =
    ((readEntries (offset + entry.write.length) rest).1,
      entry.content :: (readEntries (offset + entry.write.length) rest).2) := by
  have hl := length_write entry
  have hc : entry.code.toNat < 256 ^ 2 := entry.code.toNat_lt
  have ha : entry.write ++ rest = writeWord 2 true entry.code.toNat ++
      (writeWord 4 true entry.geometry.wkb.length ++ (entry.geometry.wkb ++ rest)) := by
    simp only [CountryEntry.write, append_assoc]
  have hs : readWord 4 true ((entry.write ++ rest).drop 2) = entry.geometry.wkb.length := by
    rw [ha, drop_writeWord, readWord_writeWord h.1]
  have hd : (entry.write ++ rest).drop 6 = entry.geometry.wkb ++ rest := by
    rw [ha, show 6 = 2 + 4 from rfl, ← drop_drop, drop_writeWord, drop_writeWord]
  have hr : (entry.write ++ rest).drop (6 + entry.geometry.wkb.length) = rest := by
    rw [← hl, drop_left]
  have hf : readWord 2 true (entry.write ++ rest) = entry.code.toNat := by
    rw [ha, readWord_writeWord hc]
  rw [readEntries, if_neg (by rw [length_append]; omega), if_neg (by rw [length_append]; omega)]
  dsimp only
  rw [hs, hd, if_neg (by simp), take_left, parseWkb_write h]
  dsimp only
  rw [hr, hf, hl, ← Nat.add_assoc]
  simp [CountryEntry.content]

theorem readEntries_writeAll {entries : List CountryEntry} (h : ∀ entry ∈ entries, entry.Fits)
  (offset : Nat) : readEntries offset (entries.flatMap CountryEntry.write) =
    (.success (offset + (entries.flatMap CountryEntry.write).length),
      entries.map CountryEntry.content) := by
  induction entries generalizing offset with
  | nil => rw [flatMap_nil, readEntries, if_pos length_nil]; rfl
  | cons entry rest ih =>
    obtain ⟨hent, hr⟩ := forall_mem_cons.1 h
    rw [flatMap_cons, readEntries_write hent, ih hr, length_append, Nat.add_assoc]
    rfl

theorem readEntries_cut {entry : CountryEntry} (h : entry.Fits) (offset : Nat)
  {data : ByteBuffer} (hd : data <+: entry.write) (hso : data ≠ [])
  (hsht : data.length < entry.write.length) :
  ∃ f, readEntries offset data = (.failure f, []) := by
  have hp : data.length ≠ 0 := fun hz => hso (length_eq_zero_iff.1 hz)
  rw [readEntries, if_neg hp]
  split
  · exact ⟨_, rfl⟩
  next hh =>
  have hl := length_write entry
  -- the first octets are those of the whole entry
  have hsi : readWord 4 true (data.drop 2) = entry.geometry.wkb.length := by
    obtain ⟨rest, hr⟩ := hd
    have hs : (data.drop 2).take 4 = (entry.write.drop 2).take 4 := by
      rw [← hr, drop_append_of_le_length (by omega),
        take_append_of_le_length (by rw [length_drop]; omega)]
    have hw : readWord 4 true (entry.write.drop 2) = entry.geometry.wkb.length := by
      rw [CountryEntry.write, drop_writeWord, readWord_writeWord h.1]
    rw [← hw, readWord, readWord, hs]
  dsimp only
  rw [hsi, if_pos (by rw [length_drop]; omega)]
  exact ⟨_, rfl⟩

theorem readEntries_inside {entries : List CountryEntry} (h : ∀ entry ∈ entries, entry.Fits)
  (offset : Nat) {data : ByteBuffer} (hd : data <+: entries.flatMap CountryEntry.write)
  (hins : ∀ k, data ≠ (entries.take k).flatMap CountryEntry.write) :
  ∃ f k, readEntries offset data = (.failure f, (entries.take k).map CountryEntry.content) ∧
    ∀ j ≤ entries.length, (entries.take j).flatMap CountryEntry.write <+: data ↔ j ≤ k := by
  induction entries generalizing offset data with
  | nil => exact absurd (prefix_nil.1 hd) (hins 0)
  | cons entry rest ih =>
    obtain ⟨hent, hre⟩ := forall_mem_cons.1 h
    rw [flatMap_cons] at hd
    rcases lt_or_ge data.length entry.write.length with hsht | hl
    · obtain ⟨f, hf⟩ := readEntries_cut hent offset
        (prefix_of_prefix_length_le hd (prefix_append _ _) hsht.le) (hins 0) hsht
      refine ⟨f, 0, hf, fun j _ => ?_⟩
      cases j with
      | zero => simp
      | succ j =>
        refine ⟨fun hs => ?_, fun hle => absurd hle (by omega)⟩
        have hle := hs.length_le
        rw [take_succ_cons, flatMap_cons, length_append] at hle
        omega
    · obtain ⟨later, rfl⟩ := prefix_of_prefix_length_le (prefix_append _ _) hd hl
      obtain ⟨f, k, hr, hw⟩ := ih hre (offset + entry.write.length)
        ((prefix_append_right_inj _).1 hd) fun k heq => hins (k + 1) (by
          rw [take_succ_cons, flatMap_cons, heq])
      refine ⟨f, k + 1, ?_, fun j hj => ?_⟩
      · rw [readEntries_write hent, hr]
        rfl
      cases j with
      | zero => simp
      | succ j =>
        rw [take_succ_cons, flatMap_cons, prefix_append_right_inj,
          hw j (Nat.le_of_succ_le_succ hj), Nat.succ_le_succ_iff]

/-- A file is read as it was written; a file that ends inside an entry is read up to
that entry, and fails; no position is beyond the end of the data. -/
theorem read_country_data_spec : (∀ entries : List CountryEntry, (∀ entry ∈ entries, entry.Fits) →
    readCountryData (writeFile entries) =
        (.success (writeFile entries).length, entries.map CountryEntry.content) ∧
    ∀ data, data <+: writeFile entries → (∀ k, data ≠ writeFile (entries.take k)) →
      ∃ f k, readCountryData data = (.failure f, (entries.take k).map CountryEntry.content) ∧
        f.position ≤ data.length ∧
        ∀ j ≤ entries.length, 0 < j → (writeFile (entries.take j) <+: data ↔ j ≤ k)) ∧
  ∀ data, (readCountryData data).1.position ≤ data.length := by
  refine ⟨fun entries hf => ⟨?_, fun data hd hins => ?_⟩, readCountryData_position⟩
  · rw [writeFile, readCountryData, if_neg (by simp; omega), readWord_writeWord (by norm_num),
      if_neg (by simp), drop_writeWord, readEntries_writeAll hf, length_append, length_writeWord]
  have hp := readCountryData_position data
  rcases lt_or_ge data.length 2 with hsht | hl
  · refine ⟨_, 0, if_pos hsht, Nat.zero_le _, fun j _ hpos => ?_⟩
    refine ⟨fun hs => ?_, fun hle => absurd hle (by omega)⟩
    have hle := hs.length_le
    rw [writeFile, length_append, length_writeWord] at hle
    omega
  · have hv : writeWord 2 true 1 <+: data :=
      prefix_of_prefix_length_le (prefix_append _ _) hd (by simpa using hl)
    obtain ⟨later, rfl⟩ := hv
    obtain ⟨f, k, hr, hw⟩ := readEntries_inside hf 2
      ((prefix_append_right_inj _).1 hd) fun k heq => hins k (by rw [heq]; rfl)
    have ha : readCountryData (writeWord 2 true 1 ++ later) =
        (.failure f, (entries.take k).map CountryEntry.content) := by
      rw [readCountryData, if_neg (by omega), readWord_writeWord (by norm_num),
        if_neg (by simp), drop_writeWord, hr]
    rw [ha] at hp
    refine ⟨f, k, ha, hp, fun j hj _ => ?_⟩
    rw [writeFile, prefix_append_right_inj, hw j hj]

end Vanetza.Geodesy
