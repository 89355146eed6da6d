/-
# ECDSA signatures

A public key is a point in uncompressed form: an octet 4 and the two
coordinates, each below the field's size, on the curve. A signature is two
numbers from one to the order of the generator. Of a hash longer than the order
the first bits count.

Key definitions: `EcKey`, `EcKey.ofOctets?`, `EcKey.verify`, `EcKey.fixed?`.
-/
import WorkloadIdentity.Hash
import WorkloadIdentity.Signature.Curve

namespace WorkloadIdentity

/-- A public key on a curve. -/
structure EcKey where
  curve : Curve
  x : Nat
  y : Nat

namespace EcKey

/-- The key of a point in uncompressed form. -/
def ofOctets? (curve : Curve) (octets : Bytes) : Option EcKey :=
  let x := natOfOctets ((octets.drop 1).take curve.size)
  let y := natOfOctets (octets.drop (1 + curve.size))
  if octets.head? == some 4 && octets.length == 1 + 2 * curve.size && curve.contains x y then
    some ⟨curve, x, y⟩
  else none

/-- The number that a hash stands for: its first bits, as many as the order
has. -/
def numberOf (curve : Curve) (digest : Bytes) : Nat :=
  natOfOctets digest / Nat.pow 2 (8 * digest.length - bitLength curve.n)

/-- Does the pair sign the number? -/
def verifyNumber (key : EcKey) (e r s : Nat) : Bool :=
  let curve := key.curve
  let n := curve.n
  if r == 0 || n ≤ r || s == 0 || n ≤ s then false
  else
    let w := powMod n s (n - 2)
    let point := curve.combine curve.generator ⟨key.x, key.y, 1⟩
      (e * w % n) (r * w % n) (bitLength n)
    let zz := point.z * point.z % curve.p
    point.z != 0 && (r * zz % curve.p == point.x ||
      (r + n < curve.p && (r + n) * zz % curve.p == point.x))

/-- Does the pair sign the text? -/
def verify (key : EcKey) (hash : Hash) (message : Bytes) (r s : Nat) : Bool :=
  key.verifyNumber (numberOf key.curve (hash.digest message)) r s

/-- The two numbers of a signature of fixed length. -/
def fixed? (curve : Curve) (signature : Bytes) : Option (Nat × Nat) :=
  if signature.length == 2 * curve.size then
    some (natOfOctets (signature.take curve.size), natOfOctets (signature.drop curve.size))
  else none

/-- Does the signature of fixed length sign the text? -/
def verifyFixed (key : EcKey) (hash : Hash) (message signature : Bytes) : Bool :=
  match fixed? key.curve signature with
  | some (r, s) => key.verify hash message r s
  | none => false

end EcKey
end WorkloadIdentity
