/-
# Signatures on the Edwards curve

The curve `-x² + y² = 1 + d x² y²` over the field of `2²⁵⁵ - 19` elements. A
point is written as the octets of `y`, the least significant first, with the
sign of `x` in the last bit; a `y` that is too large stands for its remainder.
A signature is a point and a number below the order of the generator; it is
good if the point, as it is written, is the one that the number, the key and the
hash of all three give.

Key definitions: `Edwards.Point`, `Edwards.decode?`, `Edwards.encode`,
`Edwards.verify`.
-/
import WorkloadIdentity.Hash
import WorkloadIdentity.Number.Octets

namespace WorkloadIdentity
namespace Edwards

/-- The size of the field. -/
def p : Nat := Nat.pow 2 255 - 19

/-- The order of the generator. -/
def order : Nat := Nat.pow 2 252 + 27742317777372353535851937790883648493

/-- The curve's constant. -/
def d : Nat := 37095705934669439343138083508754565189542113879843219016388785533085940283555

/-- A square root of -1. -/
def rootOfMinusOne : Nat := 19681161376707505956807079304988542015446066515923890162744021073123829784752

/-- A point in projective coordinates: `x / z`, `y / z` and `t / z`, the product
of the two. -/
structure Point where
  x : Nat
  y : Nat
  z : Nat
  t : Nat
  deriving DecidableEq, Repr

/-- A difference in the field. -/
def sub (a b : Nat) : Nat := (a + p - b) % p

/-- The point with these coordinates. -/
def ofAffine (x y : Nat) : Point := ⟨x, y, 1, x * y % p⟩

/-- The neutral point. -/
def neutral : Point := ⟨0, 1, 1, 0⟩

/-- The generator. -/
def generator : Point := ofAffine
  15112221349535400772501151409588531511454012693041857206046113283949847762202
  46316835694926478169428394003475163141307993866256225615783033603165251855960

/-- The sum of two points, which may be the same. -/
def add (a b : Point) : Point :=
  let s := sub a.y a.x * sub b.y b.x % p
  let u := (a.y + a.x) * (b.y + b.x) % p
  let c := 2 * a.t * b.t % p * d % p
  let w := 2 * a.z * b.z % p
  let e := sub u s
  let f := sub w c
  let g := (w + c) % p
  let h := (u + s) % p
  ⟨e * f % p, g * h % p, f * g % p, e * h % p⟩

/-- The opposite point. -/
def negate (a : Point) : Point := ⟨sub 0 a.x, a.y, a.z, sub 0 a.t⟩

/-- `u` times the first point and `v` times the second, from the bit `bits`
down. -/
def combine (a b : Point) (u v : Nat) : Nat → Point
  | 0 => neutral
  | bits + 1 =>
    let high := combine a b (u / 2) (v / 2) bits
    let twice := add high high
    let withA := if u % 2 == 1 then add twice a else twice
    if v % 2 == 1 then add withA b else withA

/-- The number of octets with the least significant first. -/
def number (octets : Bytes) : Nat := natOfOctets octets.reverse

/-- The point that 32 octets stand for, if there is one. -/
def decode? (octets : Bytes) : Option Point :=
  let n := number octets
  let y := n % Nat.pow 2 255 % p
  let yy := y * y % p
  let u := sub yy 1
  let v := (d * yy + 1) % p
  let vvv := v * v % p * v % p
  let x := u * vvv % p * powMod p (u * vvv % p * vvv % p * v % p) ((p - 5) / 8) % p
  let square := v * (x * x % p) % p
  let root :=
    if square == u then some x
    else if square == sub 0 u then some (x * rootOfMinusOne % p)
    else none
  if octets.length == 32 then
    root.map fun x => ofAffine (if x % 2 == n / Nat.pow 2 255 then x else sub 0 x) y
  else none

/-- The octets of a point. -/
def encode (a : Point) : Bytes :=
  let inverse := powMod p a.z (p - 2)
  let x := a.x * inverse % p
  let y := a.y * inverse % p
  (octetsOfNat 32 (y + x % 2 * Nat.pow 2 255)).reverse

/-- Does the key sign the text so? -/
def verify (key message signature : Bytes) : Bool :=
  let r := signature.take 32
  let s := number (signature.drop 32)
  match decode? key with
  | some a =>
    let h := number (Hash.sha512.digest (r ++ key ++ message)) % order
    signature.length == 64 && s < order && encode (combine generator (negate a) s h 253) == r
  | none => false

end Edwards
end WorkloadIdentity
