/-
# Curves in Weierstrass form

The curves P-256, P-384 and P-521 over their prime fields. Points are computed
in projective coordinates: `(x, y, z)` stands for the point with coordinates
`x / z²` and `y / z³`, and `z = 0` for the one at infinity.

Key definitions: `Curve`, `Curve.Point`, `Curve.add`, `Curve.combine`.
-/
import WorkloadIdentity.Number.Octets

namespace WorkloadIdentity

/-- A curve `y² = x³ - 3 x + b` over the field of `p` elements, with a
generator of prime order `n`. -/
structure Curve where
  p : Nat
  b : Nat
  n : Nat
  generatorX : Nat
  generatorY : Nat
  /-- Octets of a coordinate. -/
  size : Nat

namespace Curve

def p256 : Curve where
  p := 0xffffffff00000001000000000000000000000000ffffffffffffffffffffffff
  b := 0x5ac635d8aa3a93e7b3ebbd55769886bc651d06b0cc53b0f63bce3c3e27d2604b
  n := 0xffffffff00000000ffffffffffffffffbce6faada7179e84f3b9cac2fc632551
  generatorX := 0x6b17d1f2e12c4247f8bce6e563a440f277037d812deb33a0f4a13945d898c296
  generatorY := 0x4fe342e2fe1a7f9b8ee7eb4a7c0f9e162bce33576b315ececbb6406837bf51f5
  size := 32

def p384 : Curve where
  p := 0xfffffffffffffffffffffffffffffffffffffffffffffffffffffffffffffffeffffffff0000000000000000ffffffff
  b := 0xb3312fa7e23ee7e4988e056be3f82d19181d9c6efe8141120314088f5013875ac656398d8a2ed19d2a85c8edd3ec2aef
  n := 0xffffffffffffffffffffffffffffffffffffffffffffffffc7634d81f4372ddf581a0db248b0a77aecec196accc52973
  generatorX := 0xaa87ca22be8b05378eb1c71ef320ad746e1d3b628ba79b9859f741e082542a385502f25dbf55296c3a545e3872760ab7
  generatorY := 0x3617de4a96262c6f5d9e98bf9292dc29f8f41dbd289a147ce9da3113b5f0b8c00a60b1ce1d7e819d7a431d7c90ea0e5f
  size := 48

def p521 : Curve where
  p := Nat.pow 2 521 - 1
  b := 0x0051953eb9618e1c9a1f929a21a0b68540eea2da725b99b315f3b8b489918ef109e156193951ec7e937b1652c0bd3bb1bf073573df883d2c34f1ef451fd46b503f00
  n := 0x01fffffffffffffffffffffffffffffffffffffffffffffffffffffffffffffffffa51868783bf2f966b7fcc0148f709a5d03bb5c9b8899c47aebb6fb71e91386409
  generatorX := 0x00c6858e06b70404e9cd9e3ecb662395b4429c648139053fb521f828af606b4d3dbaa14b5e77efe75928fe1dc127a2ffa8de3348b3c1856a429bf97e7e31c2e5bd66
  generatorY := 0x011839296a789a3bc0045c8a5fb42c7d1bd998f54449579b446817afbd17273e662c97ee72995ef42640c550b9013fad0761353c7086a272c24088be94769fd16650
  size := 66

/-- A point in projective coordinates. -/
structure Point where
  x : Nat
  y : Nat
  z : Nat
  deriving DecidableEq, Repr

/-- The point at infinity. -/
def infinity : Point := ⟨1, 1, 0⟩

variable (curve : Curve)

/-- A difference in the field. -/
def sub (a b : Nat) : Nat := (a + curve.p - b) % curve.p

/-- The generator. -/
def generator : Point := ⟨curve.generatorX, curve.generatorY, 1⟩

/-- Does the curve go through the point with these coordinates? -/
def contains (x y : Nat) : Bool :=
  x < curve.p && y < curve.p &&
    y * y % curve.p == (x * x % curve.p * x + 3 * (curve.p - x) + curve.b) % curve.p

/-- The point twice. -/
def double (a : Point) : Point :=
  if a.z == 0 || a.y == 0 then infinity
  else
    let p := curve.p
    let yy := a.y * a.y % p
    let s := 4 * a.x * yy % p
    let zz := a.z * a.z % p
    let m := 3 * curve.sub a.x zz * (a.x + zz) % p
    let x := curve.sub (m * m % p) (2 * s % p)
    ⟨x, curve.sub (m * curve.sub s x % p) (8 * yy * yy % p), 2 * a.y * a.z % p⟩

/-- The sum of two points. -/
def add (a b : Point) : Point :=
  if a.z == 0 then b
  else if b.z == 0 then a
  else
    let p := curve.p
    let azz := a.z * a.z % p
    let bzz := b.z * b.z % p
    let u := a.x * bzz % p
    let s := a.y * b.z % p * bzz % p
    let h := curve.sub (b.x * azz % p) u
    let r := curve.sub (b.y * a.z % p * azz % p) s
    if h == 0 then
      if r == 0 then curve.double a else infinity
    else
      let hh := h * h % p
      let hhh := hh * h % p
      let v := u * hh % p
      let x := curve.sub (r * r % p) ((hhh + 2 * v) % p)
      ⟨x, curve.sub (r * curve.sub v x % p) (s * hhh % p), h * a.z % p * b.z % p⟩

/-- `u` times the first point and `v` times the second, from the bit `bits`
down. -/
def combine (a b : Point) (u v : Nat) : Nat → Point
  | 0 => infinity
  | bits + 1 =>
    let high := combine a b (u / 2) (v / 2) bits
    let twice := curve.double high
    let withA := if u % 2 == 1 then curve.add twice a else twice
    if v % 2 == 1 then curve.add withA b else withA

end Curve
end WorkloadIdentity
