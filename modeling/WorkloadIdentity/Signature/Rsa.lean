/-
# RSA signatures

A key is an odd modulus of 2048 to 8192 bits (a modulus is as long as its
octets) and an odd exponent from 3 on of at most 33 bits, both written without
zeros in front. A signature is as long as the modulus and, taken as a number,
below it and not zero; raised to the exponent it gives the padded hash of the
text, in one of two paddings. Probabilistic padding has a salt as long as the
hash.

Key definitions: `RsaKey`, `RsaKey.ofOctets?`, `RsaKey.verifyFixed`,
`RsaKey.verifySalted`.
-/
import WorkloadIdentity.Hash
import WorkloadIdentity.Number.Octets

namespace WorkloadIdentity

/-- A public key. -/
structure RsaKey where
  modulus : Nat
  exponent : Nat
  deriving DecidableEq, Repr

namespace RsaKey

/-- The key of a modulus and an exponent as octets. -/
def ofOctets? (modulus exponent : Bytes) : Option RsaKey :=
  let n := natOfOctets modulus
  let e := natOfOctets exponent
  if modulus.head?.getD 0 == 0 || exponent.head?.getD 0 == 0 then none
  else if modulus.length < 256 || 8192 < bitLength n || n % 2 == 0 then none
  else if e < 3 || Nat.pow 2 33 ≤ e || e % 2 == 0 then none
  else some ⟨n, e⟩

/-- Octets of the modulus. -/
def size (key : RsaKey) : Nat := (bitLength key.modulus + 7) / 8

/-- The number under a signature. -/
def open? (key : RsaKey) (signature : Bytes) : Option Nat :=
  let s := natOfOctets signature
  if signature.length == key.size && s < key.modulus && s != 0 then
    some (powMod key.modulus s key.exponent)
  else none

/-- What says which hash follows: a sequence of the hash's name and an octet
string, up to the octets of the hash. -/
def hashPrefix : Hash → Bytes
  | .sha256 => [0x30, 0x31, 0x30, 0x0d, 0x06, 0x09, 0x60, 0x86, 0x48, 0x01, 0x65, 0x03, 0x04, 0x02,
      0x01, 0x05, 0x00, 0x04, 0x20]
  | .sha384 => [0x30, 0x41, 0x30, 0x0d, 0x06, 0x09, 0x60, 0x86, 0x48, 0x01, 0x65, 0x03, 0x04, 0x02,
      0x02, 0x05, 0x00, 0x04, 0x30]
  | .sha512 => [0x30, 0x51, 0x30, 0x0d, 0x06, 0x09, 0x60, 0x86, 0x48, 0x01, 0x65, 0x03, 0x04, 0x02,
      0x03, 0x05, 0x00, 0x04, 0x40]

/-- The fixed padding of a text: octets of ones between zero, one and zero,
then the hash under its name. -/
def padFixed (hash : Hash) (size : Nat) (message : Bytes) : Bytes :=
  let tail := hashPrefix hash ++ hash.digest message
  0x00 :: 0x01 :: List.replicate (size - 3 - tail.length) 0xff ++ 0x00 :: tail

/-- Does the signature give the text in fixed padding? -/
def verifyFixed (key : RsaKey) (hash : Hash) (message signature : Bytes) : Bool :=
  key.open? signature == some (natOfOctets (padFixed hash key.size message))

/-- The mask of `size` octets from a seed: hashes of the seed and a counter. -/
def mask (hash : Hash) (seed : Bytes) (size : Nat) : Bytes :=
  ((List.range ((size + hash.size - 1) / hash.size)).flatMap fun i =>
    hash.digest (seed ++ octetsOfNat 4 i)).take size

/-- Do the octets carry the hash in probabilistic padding of `bits` bits? -/
def isSalted (hash : Hash) (bits : Nat) (digest padded : Bytes) : Bool :=
  let size := (bits + 7) / 8
  let maskedSize := size - hash.size - 1
  let masked := padded.take maskedSize
  let inner := (padded.drop maskedSize).take hash.size
  let clear := 8 * size - bits
  let unmasked := List.zipWith (· ^^^ ·) masked (mask hash inner maskedSize)
  let unmasked := match unmasked with
    | first :: rest => (first &&& UInt8.ofNat (255 / Nat.pow 2 clear)) :: rest
    | [] => []
  let zeros := maskedSize - hash.size - 1
  let salt := unmasked.drop (zeros + 1)
  2 * hash.size + 2 ≤ size && padded.length == size && padded.getLast? == some 0xbc &&
    (masked.headD 0).toNat < Nat.pow 2 (8 - clear) &&
    (unmasked.take zeros).all (· == 0) && unmasked.getD zeros 0 == 0x01 &&
    hash.digest (List.replicate 8 0 ++ digest ++ salt) == inner

/-- Does the signature give the text in probabilistic padding? -/
def verifySalted (key : RsaKey) (hash : Hash) (message signature : Bytes) : Bool :=
  let bits := bitLength key.modulus - 1
  let size := (bits + 7) / 8
  match key.open? signature with
  | some m => m < Nat.pow 256 size && isSalted hash bits (hash.digest message) (octetsOfNat size m)
  | none => false

end RsaKey
end WorkloadIdentity
