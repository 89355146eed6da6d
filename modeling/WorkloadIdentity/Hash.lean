/-
# Hashes

The three hashes that signatures are made over.

Key definitions: `Hash`, `Hash.digest`, `Hash.size`.
-/
import WorkloadIdentity.Hash.Sha256
import WorkloadIdentity.Hash.Sha512

namespace WorkloadIdentity

/-- A hash by its length in bits. -/
inductive Hash where
  | sha256
  | sha384
  | sha512
  deriving DecidableEq, Repr

namespace Hash

/-- The hash of a text. -/
def digest : Hash → Bytes → Bytes
  | sha256 => Sha256.digest
  | sha384 => Sha512.digest384
  | sha512 => Sha512.digest

/-- Octets of the hash. -/
def size : Hash → Nat
  | sha256 => 32
  | sha384 => 48
  | sha512 => 64

end Hash
end WorkloadIdentity
