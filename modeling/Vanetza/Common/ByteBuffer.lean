import Vanetza.Lib.Decoder

/-!
# Octet buffers and archives

`InputArchive` reads from a buffer. Reading beyond its end throws; `fail` only records an error code
and lets the reader go on, and it never replaces a code that is already there.
-/

namespace Vanetza

abbrev ByteBuffer := List UInt8

/-- An octet array of fixed size, `std::array<uint8_t, n>`. -/
abbrev Octets (n : Nat) := List.Vector UInt8 n

inductive Exception where
  | archive (what : String)
  | deserializationError (what : String)
  | serializationError (what : String)
  | runtimeError (what : String)
  /-- `boost::bad_get`, from reading a variant as what it is not. -/
  | badGet
  deriving DecidableEq

namespace InputArchive

inductive ErrorCode where
  | incompleteData
  | excessiveLength
  | constraintViolation
  deriving DecidableEq

end InputArchive

abbrev Deserialize (α : Type) := Lib.Decoder Exception InputArchive.ErrorCode α

namespace InputArchive

def fail (code : ErrorCode) : Deserialize Unit := Lib.Decoder.note code

def isGood : Deserialize Bool := Lib.Decoder.isGood

def loadOctets (n : Nat) : Deserialize (Octets n) :=
  Lib.Decoder.octets (.archive "incomplete read") n

def loadBinary (n : Nat) : Deserialize ByteBuffer := List.Vector.toList <$> loadOctets n

def loadByte : Deserialize UInt8 := List.Vector.head <$> loadOctets 1

end InputArchive

def ofBigEndian (bytes : ByteBuffer) : Nat := bytes.foldl (fun n byte => n * 256 + byte.toNat) 0

/-- The low `n` octets of a number, most significant first. -/
def toBigEndian : Nat → Nat → ByteBuffer
  | 0, _ => []
  | n + 1, value => toBigEndian n (value / 256) ++ [UInt8.ofNat value]

namespace InputArchive

def loadUInt16 : Deserialize UInt16 :=
  (fun bytes => UInt16.ofNat (ofBigEndian bytes)) <$> loadBinary 2

def loadUInt32 : Deserialize UInt32 :=
  (fun bytes => UInt32.ofNat (ofBigEndian bytes)) <$> loadBinary 4

def loadUInt64 : Deserialize UInt64 :=
  (fun bytes => UInt64.ofNat (ofBigEndian bytes)) <$> loadBinary 8

end InputArchive

end Vanetza
