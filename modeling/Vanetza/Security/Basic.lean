import Vanetza.Common.ByteBuffer

/-!
# Keys, digests and the cryptographic backends

The vocabulary every part of the security entity shares: hashed identifiers,
ECC keys and signatures, and the backends that hash and verify.
-/

namespace Vanetza.Security

abbrev HashedId8 := Octets 8
abbrev HashedId3 := Octets 3
abbrev Sha256Digest := Octets 32
abbrev Sha384Digest := Octets 48

/-- `uint32_t` in the source, narrower than the PSIDs of certificates. -/
abbrev ItsAid := UInt32

def createHashedId8OfSha256 (digest : Sha256Digest) : HashedId8 := digest.drop 24

def createHashedId8OfSha384 (digest : Sha384Digest) : HashedId8 := digest.drop 40

def truncate (id : HashedId8) : HashedId3 := id.drop 5

inductive KeyType where
  | unspecified
  | nistP256
  | brainpoolP256r1
  | brainpoolP384r1
  deriving DecidableEq

inductive HashAlgorithm where
  | unspecified
  | sha256
  | sha384
  deriving DecidableEq

inductive KeyCompression where
  | noCompression
  | y0
  | y1
  deriving DecidableEq

structure PublicKey where
  x : ByteBuffer
  y : ByteBuffer
  type : KeyType
  compression : KeyCompression
  deriving DecidableEq

structure Signature where
  r : ByteBuffer
  s : ByteBuffer
  type : KeyType
  deriving DecidableEq

/-- `specified_hash_algorithm`: the hash that goes with a key type. -/
def specifiedHashAlgorithm : KeyType → HashAlgorithm
  | .nistP256 => .sha256
  | .brainpoolP256r1 => .sha256
  | .brainpoolP384r1 => .sha384
  | .unspecified => .unspecified

/-- The part of the ECC `Backend` the verification paths call. -/
structure Backend where
  calculateHash : HashAlgorithm → ByteBuffer → Option ByteBuffer
  verifyDigest : PublicKey → ByteBuffer → Signature → Option Bool

/-- `H(H(data) ‖ H(signer))`, the construction every signature covers. -/
def Backend.layeredHash (backend : Backend) (algorithm : HashAlgorithm)
  (data signer : ByteBuffer) : Option ByteBuffer := do
  let dataHash ← backend.calculateHash algorithm data
  let signerHash ← backend.calculateHash algorithm signer
  backend.calculateHash algorithm (dataHash ++ signerHash)

namespace Pqc

structure PublicKey where
  bytes : ByteBuffer
  deriving DecidableEq

structure Signature where
  bytes : ByteBuffer
  deriving DecidableEq

structure Backend where
  verify : PublicKey → ByteBuffer → Signature → Option Bool

def fndsa512PublicKeySize : Nat := 897
def fndsa512SignatureSize : Nat := 666

end Pqc

end Vanetza.Security
