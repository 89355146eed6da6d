/-
# The fewest digits that read back

A number of double precision is written with the fewest decimal digits that
round to it again; of several such decimals the one nearest to the number is
taken, and of two equally near ones the one with an even last digit.

The search goes through grids of one, two, … seventeen digits. On each it looks
at the number's two neighbours; the first grid with a neighbour in the interval
of reals that round to the number gives the answer.

Key definitions: `Shortest.digits`, `Shortest.text`.
-/
import WorkloadIdentity.Number.Binary64

namespace WorkloadIdentity
namespace Shortest

/-- A positive number `mid / scale` and the interval of reals that round to
it, over the same denominator; the ends belong to it if `closed`. -/
structure Interval where
  low : Nat
  mid : Nat
  high : Nat
  scale : Nat
  closed : Bool

/-- The interval of a positive number: half way to each neighbour. Below a
power of two the neighbour is half as far. -/
def interval (x : Binary64) : Interval :=
  let (p, q) := x.ratio
  let ulp := Nat.pow 2 x.exponent.toNat
  let isPower := x.mantissa == Nat.pow 2 52 && x.exponent != Binary64.minExponent
  ⟨4 * p - (if isPower then ulp else 2 * ulp), 4 * p, 4 * p + 2 * ulp, 4 * q, x.mantissa % 2 == 0⟩

/-- The least `k` with `p / q < 10 ^ k`, if `p / q` is at least one. -/
def magnitudeUp (p q : Nat) : Nat → Nat → Nat
  | 0, k => k
  | fuel + 1, k => if p < q * Nat.pow 10 k then k else magnitudeUp p q fuel (k + 1)

/-- The number of powers of ten that `p / q` is below one tenth. -/
def magnitudeDown (p q : Nat) : Nat → Nat → Nat
  | 0, k => k
  | fuel + 1, k => if q ≤ p * Nat.pow 10 (k + 1) then k else magnitudeDown p q fuel (k + 1)

/-- The exponent `k` for which `p / q` is at least `10 ^ (k - 1)` and below
`10 ^ k`. -/
def magnitude (p q : Nat) : Int :=
  if q ≤ p then (magnitudeUp p q 400 0 : Int) else -(magnitudeDown p q 400 0 : Int)

/-- Does `d * 10 ^ k` lie in the interval? -/
def Interval.holds (i : Interval) (d : Nat) (k : Int) : Bool :=
  let v := d * Nat.pow 10 k.toNat * i.scale
  let low := i.low * Nat.pow 10 (-k).toNat
  let high := i.high * Nat.pow 10 (-k).toNat
  if i.closed then low ≤ v && v ≤ high else low < v && v < high

/-- The decimal with `n` digits at power `k` that is in the interval and
nearest to its number. -/
def Interval.onGrid (i : Interval) (k : Int) : Option Nat :=
  let p := i.mid * Nat.pow 10 (-k).toNat
  let q := i.scale * Nat.pow 10 k.toNat
  let below := p / q
  let above := below + 1
  let twiceRest := 2 * (p % q)
  let preferBelow := twiceRest < q || (twiceRest == q && below % 2 == 0)
  match below != 0 && i.holds below k, i.holds above k with
  | true, true => some (if preferBelow then below else above)
  | true, false => some below
  | false, true => some above
  | false, false => none

/-- The first grid with a decimal in the interval, from `n` digits on. -/
def Interval.search (i : Interval) (top : Int) : Nat → Nat → Nat × Int
  | 0, n => (i.mid / i.scale, top - n)
  | fuel + 1, n =>
    let k := top - n
    match i.onGrid k with
    | some d => (d, k)
    | none => i.search top fuel (n + 1)

/-- Takes zeros off the end of a decimal. -/
def dropZeros : Nat → Nat → Int → Nat × Int
  | 0, d, k => (d, k)
  | fuel + 1, d, k => if d % 10 == 0 && d != 0 then dropZeros fuel (d / 10) (k + 1) else (d, k)

/-- The digits `d` and the power `k` of the shortest decimal `d * 10 ^ k` that
reads back as the magnitude of a number other than zero. -/
def digits (x : Binary64) : Nat × Int :=
  let i := interval x
  let (d, k) := i.search (magnitude i.mid i.scale) 17 1
  dropZeros 20 d k

/-- How a format writes a decimal. -/
structure Style where
  /-- The least power of ten of a leading digit that is written in place. -/
  leastInPlace : Int
  /-- The least power of ten of a leading digit that is written with an
  exponent again. -/
  leastLarge : Int

/-- A decimal in place: zeros to fill up, a point, and at least one digit on
either side of it. -/
def inPlace (ds : List Char) (k : Int) : List Char :=
  let point : Int := ds.length + k
  if 0 ≤ k then ds ++ List.replicate k.toNat '0' ++ ['.', '0']
  else if 0 < point then ds.take point.toNat ++ '.' :: ds.drop point.toNat
  else '0' :: '.' :: List.replicate (-point).toNat '0' ++ ds

/-- A decimal with an exponent: one digit before the point, and a sign in
front of the exponent. -/
def withExponent (ds : List Char) (k : Int) : List Char :=
  let e : Int := (ds.length : Int) - 1 + k
  let fraction := if ds.length ≤ 1 then [] else '.' :: ds.drop 1
  ds.take 1 ++ fraction ++ 'e' :: (if e < 0 then '-' else '+') :: Nat.toDigits 10 e.natAbs

/-- A number in a style. -/
def text (style : Style) (x : Binary64) : List Char :=
  let sign := if x.negative then ['-'] else []
  if x.isZero then sign ++ "0.0".toList
  else
    let (d, k) := digits x
    let ds := Nat.toDigits 10 d
    let lead : Int := (ds.length : Int) - 1 + k
    sign ++ (if style.leastInPlace ≤ lead && lead < style.leastLarge then inPlace ds k
      else withExponent ds k)

end Shortest
end WorkloadIdentity
