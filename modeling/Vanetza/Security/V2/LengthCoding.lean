import Mathlib
import Vanetza.Common.ByteBuffer

/-!
# Length coding

Lengths and the integers `IntX` are written with as many leading one bits as octets follow the
first.
-/

namespace Vanetza.Security.V2

open InputArchive

def countOnes : Nat → UInt8 → Nat
  | 0, _ => 0
  | n + 1, v => if v &&& 0x80 ≠ 0 then countOnes n (v <<< 1) + 1 else 0

def countLeadingOnes (v : UInt8) : Nat := countOnes 8 v

/-- `length_coding_size`: one more for each seven bits beyond the first. A
64-bit length has no more than ten such groups. -/
def lengthCodingSize (length : Nat) : Nat := groups 10 length
where
  groups : Nat → Nat → Nat
    | 0, _ => 1
    | n + 1, length => if 128 ≤ length then groups n (length / 128) + 1 else 1

def lengthInfo : Nat → Nat → ByteBuffer → ByteBuffer
  | 0, _, info => info
  | n + 1, length, info =>
    if length ≠ 0 then lengthInfo n (length / 256) (UInt8.ofNat length :: info)
    else info

def encodeLength (length : Nat) : ByteBuffer :=
  match lengthInfo 8 length [] with
  | [] => [0x00]
  | front :: rest =>
    let prefixLength := rest.length + 1
    let prefixMask : UInt8 := ~~~((1 <<< UInt8.ofNat (8 - prefixLength)) - 1)
    let info :=
      if front &&& ~~~prefixMask ≠ front then
        -- additional byte needed for prefix
        prefixMask :: front :: rest
      else
        -- enough free bits available for prefix
        (front ||| prefixMask <<< 1) :: rest
    List.replicate (prefixLength / 8) 0xff ++ info

def decodeLength : ByteBuffer → Nat × Nat
  | [] => (0, 0)
  | front :: rest =>
    let additionalPrefix := countLeadingOnes front
    if 8 ≤ additionalPrefix then
      -- encoded length is wider than uintmax_t
      (0, 0)
    else if additionalPrefix ≤ rest.length then
      let prefixMask := UInt8.ofNat (2 ^ (8 - additionalPrefix) - 1)
      (additionalPrefix + 1, (rest.take additionalPrefix).foldl
          (fun length byte => length * 256 + byte.toNat)
          (front &&& prefixMask).toNat)
    else (rest.length + 1, 0)

def deserializeLength : Deserialize Nat := do
  let first ← loadByte
  let more ← loadBinary (countLeadingOnes first)
  let decoded := decodeLength (first :: more)
  if decoded.1 ≠ 0 then return decoded.2
  else
    fail .constraintViolation
    return 0

abbrev IntX := UInt64

namespace IntX

def encode (x : IntX) : ByteBuffer := encodeLength x.toNat

def decode (buffer : ByteBuffer) : Option IntX :=
  let decoded := decodeLength buffer
  if decoded.1 ≠ 0 then some (UInt64.ofNat decoded.2) else none

def getSize (x : IntX) : Nat := lengthCodingSize x.toNat

def serialize (x : IntX) : ByteBuffer := encodeLength x.toNat

def deserialize : Deserialize (IntX × Nat) := do
  let x := UInt64.ofNat (← deserializeLength)
  return (x, getSize x)

end IntX

/-! ## Lists

A list is written as the size of its elements and the elements. -/

section List

variable {α : Type}

def getSizeList (getSize : α → Nat) (list : List α) : Nat := (list.map getSize).sum

/-- Elements until `remainder` octets are used up. An element that is longer
than that, or that leaves the archive in a bad state, is dropped and ends the
list. -/
def deserializeElements (deserialize : Deserialize (α × Nat)) : Nat → Nat → Deserialize (List α)
  | 0, _ => return []
  | fuel + 1, remainder => do
      if remainder = 0 then return []
      let (element, size) ← deserialize
      if size ≤ remainder ∧ (← isGood) then
        return element :: (← deserializeElements deserialize fuel (remainder - size))
      else
        fail .constraintViolation
        return []

def deserializeList (deserialize : Deserialize (α × Nat)) : Deserialize (List α × Nat) := do
  let length ← deserializeLength
  if length ≤ 4096 then
    return (← deserializeElements deserialize length length, length)
  else
    fail .excessiveLength
    return ([], length)

end List

end Vanetza.Security.V2
