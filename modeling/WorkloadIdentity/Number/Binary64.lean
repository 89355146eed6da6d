/-
# Binary fractions of 64 bits

The numbers that a double-precision word can hold, as exact values: a sign, a
mantissa below `2 ^ 53` and an exponent, standing for the mantissa times that
power of two. A ratio of two naturals is rounded to the nearest of them, of two
equally near ones to the one with an even mantissa; one that is too large has
no rounding.

Key definitions: `Binary64`, `Binary64.ofRatio`, `Binary64.mul?`,
`Binary64.div?`, `Binary64.truncate`.
-/

namespace WorkloadIdentity

/-- A number that a double-precision word can hold. -/
structure Binary64 where
  /-- Zero has a sign too. -/
  negative : Bool
  /-- At least `2 ^ 52` unless the exponent is the least one. -/
  mantissa : Nat
  exponent : Int
  deriving DecidableEq, Repr

namespace Binary64

/-- The least exponent. -/
def minExponent : Int := -1074

/-- The greatest exponent. -/
def maxExponent : Int := 971

/-- Zero with a sign. -/
def zero (negative : Bool) : Binary64 := ⟨negative, 0, minExponent⟩

/-- Is the value zero? -/
def isZero (x : Binary64) : Bool := x.mantissa == 0

/-- The value with its sign turned. -/
def neg (x : Binary64) : Binary64 := { x with negative := !x.negative }

/-- The magnitude as a ratio of naturals. -/
def ratio (x : Binary64) : Nat × Nat :=
  (x.mantissa * Nat.pow 2 x.exponent.toNat, Nat.pow 2 (-x.exponent).toNat)

/-- `p / q` to the nearest natural, a half to the even one. -/
def roundHalfEven (p q : Nat) : Nat :=
  let n := p / q
  let r := p % q
  if 2 * r < q then n
  else if q < 2 * r then n + 1
  else if n % 2 = 0 then n else n + 1

/-- `p / q` with the binary point moved by `e` places. -/
def scaled (p q : Nat) (e : Int) : Nat × Nat := (p * Nat.pow 2 (-e).toNat, q * Nat.pow 2 e.toNat)

/-- The exponent under which `p / q` has a mantissa of 53 bits, or the least
one if that is greater. -/
def exponentFor (p q : Nat) : Int :=
  let e : Int := (p.log2 : Int) - (q.log2 : Int) - 53
  let (a, b) := scaled p q e
  max (if a / b < Nat.pow 2 53 then e else e + 1) minExponent

/-- The nearest number to `p / q`, for a positive `q`. -/
def ofRatio (negative : Bool) (p q : Nat) : Option Binary64 :=
  if p = 0 then some (zero negative)
  else
    let e := exponentFor p q
    let (a, b) := scaled p q e
    let m := roundHalfEven a b
    let (m, e) := if m < Nat.pow 2 53 then (m, e) else (m / 2, e + 1)
    if maxExponent < e then none else some ⟨negative, m, e⟩

/-- The nearest number to a natural below `2 ^ 64`, which is in range. -/
def ofNat (n : Nat) : Binary64 := (ofRatio false n 1).getD (zero false)

/-- The nearest number to a product. -/
def mul? (x y : Binary64) : Option Binary64 :=
  let (a, b) := x.ratio
  let (c, d) := y.ratio
  ofRatio (x.negative != y.negative) (a * c) (b * d)

/-- The nearest number to a quotient by a number other than zero. -/
def div? (x y : Binary64) : Option Binary64 :=
  let (a, b) := x.ratio
  let (c, d) := y.ratio
  ofRatio (x.negative != y.negative) (a * d) (b * c)

/-- The nearest number to a power of ten. -/
def powerOfTen (k : Nat) : Binary64 := (ofRatio false (Nat.pow 10 k) 1).getD (zero false)

/-- The whole part, toward zero. -/
def truncate (x : Binary64) : Int :=
  let (a, b) := x.ratio
  if x.negative then -((a / b : Nat) : Int) else ((a / b : Nat) : Int)

end Binary64
end WorkloadIdentity
