/-
# Reading JSON numbers

An integer is kept exactly if it fits 64 bits. Any other number becomes one of
double precision in two roundings: its digits, as many as a word of 64 bits can
hold, make a significand that is rounded first; the result times or over the
rounded power of ten is rounded again. A result out of range is an error, and
minus zero is a double.

Key definitions: `Json.Numeral`, `Json.Numeral.value?`, `Json.readNumeral`.
-/
import WorkloadIdentity.Json.Basic

namespace WorkloadIdentity
namespace Json

/-- The parts of a number as written. -/
structure Numeral where
  negative : Bool
  /-- The digits before the point. -/
  whole : List Nat
  /-- The digits after the point, if there is one. -/
  fraction : Option (List Nat)
  /-- Is the exponent negative, and its digits, if there is one. -/
  exponent : Option (Bool × List Nat)
  deriving DecidableEq, Repr

/-- Reads digits into a word of 64 bits: the significand, and how many digits
did not fit. -/
def takeDigits : Nat → List Nat → Nat × Nat
  | significand, [] => (significand, 0)
  | significand, d :: rest =>
    if significand * 10 + d < Nat.pow 2 64 then takeDigits (significand * 10 + d) rest
    else (significand, rest.length + 1)

/-- The greatest exponent of the table of powers of ten. -/
def tableEnd : Nat := 308

/-- Takes steps of the table's greatest power off an exponent below its range.
A significand of 64 bits is zero after three of them. -/
def lower : Nat → Binary64 → Int → Option (Binary64 × Int)
  | 0, x, e => some (x, e)
  | steps + 1, x, e =>
    if e < -(tableEnd : Int) then do
      let y ← x.div? (Binary64.powerOfTen tableEnd)
      lower steps y (e + tableEnd)
    else some (x, e)

/-- A rounded significand times a power of ten. -/
def scale (x : Binary64) (e : Int) : Option Binary64 := do
  let (x, e) ← lower 3 x e
  if x.isZero then some x
  else if (tableEnd : Int) < e then none
  else if 0 ≤ e then x.mul? (Binary64.powerOfTen e.toNat)
  else x.div? (Binary64.powerOfTen (-e).toNat)

/-- The power of ten that an exponent's digits give, if 31 bits can hold it. -/
def power? (digits : List Nat) : Option Nat :=
  let n := digits.foldl (fun n d => if Nat.pow 2 31 ≤ n then n else n * 10 + d) 0
  if n < Nat.pow 2 31 then some n else none

/-- The double that the parts give. -/
def Numeral.real? (t : Numeral) : Option Binary64 := do
  let (significand, dropped) := takeDigits 0 t.whole
  let fraction := t.fraction.getD []
  let (significand, left) := takeDigits significand fraction
  let start : Int := (dropped : Int) - ((fraction.length - left : Nat) : Int)
  let magnitude ← match t.exponent with
    | none => scale (Binary64.ofNat significand) start
    | some (isNegative, digits) =>
      match power? digits with
      | some e => scale (Binary64.ofNat significand) (if isNegative then start - e else start + e)
      | none => if significand ≠ 0 ∧ !isNegative then none else some (Binary64.zero false)
  pure (if t.negative then magnitude.neg else magnitude)

/-- The number that the parts give. -/
def Numeral.value? (t : Numeral) : Option Number :=
  let (significand, dropped) := takeDigits 0 t.whole
  if t.fraction.isNone && t.exponent.isNone && dropped == 0 then
    if !t.negative then some (.integer significand)
    else if significand = 0 then some (.real (Binary64.zero true))
    else if significand ≤ Nat.pow 2 63 then some (.integer (-significand))
    else some (.real (Binary64.ofNat significand).neg)
  else t.real?.map .real

/-- The values of the digits that a text starts with, and the rest. -/
def splitDigits (s : List Char) : List Nat × List Char :=
  ((s.takeWhile Char.isDigit).map fun c => c.toNat - '0'.toNat, s.dropWhile Char.isDigit)

/-- Reads the point and the digits after it, if there is one. -/
def readFraction : List Char → Option (Option (List Nat) × List Char)
  | '.' :: rest =>
    match splitDigits rest with
    | ([], _) => none
    | (digits, rest) => some (some digits, rest)
  | rest => some (none, rest)

/-- Reads the digits of an exponent; there has to be one. -/
def readPower (isNegative : Bool) (s : List Char) : Option (Option (Bool × List Nat) × List Char) :=
  match splitDigits s with
  | ([], _) => none
  | (digits, rest) => some (some (isNegative, digits), rest)

/-- Reads an exponent, if there is one. -/
def readExponent : List Char → Option (Option (Bool × List Nat) × List Char)
  | c :: rest =>
    if c = 'e' ∨ c = 'E' then
      match rest with
      | '-' :: digits => readPower true digits
      | '+' :: digits => readPower false digits
      | digits => readPower false digits
    else some (none, c :: rest)
  | [] => some (none, [])

/-- Reads the parts of a number from the front of a text: no zero in front of
other digits, and a digit on each side of a point. -/
def readNumeral (s : List Char) : Option (Numeral × List Char) := do
  let (negative, s) : Bool × List Char := match s with
    | '-' :: rest => (true, rest)
    | _ => (false, s)
  let (whole, rest) := splitDigits s
  if whole.isEmpty || (whole.head? == some 0 && 1 < whole.length) then none
  else
    let (fraction, rest) ← readFraction rest
    let (exponent, rest) ← readExponent rest
    pure (⟨negative, whole, fraction, exponent⟩, rest)

end Json
end WorkloadIdentity
