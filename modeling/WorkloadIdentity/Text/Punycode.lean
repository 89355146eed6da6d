/-
# Punycode

The ASCII form of a label outside ASCII: its ASCII characters and a dash, then
one number per other character, in order of the characters' code points. A
number says how far the next insertion is from the last one, and is written in
digits of base 36 with thresholds that adapt to the numbers before.

Key definitions: `Punycode.encode`, `Punycode.decode`.
-/

namespace WorkloadIdentity
namespace Punycode

/-- The digits' base. -/
def base : Nat := 36

/-- The threshold of the digit at position `k` (a multiple of the base). -/
def threshold (bias k : Nat) : Nat :=
  if k ≤ bias + 1 then 1 else if bias + 26 ≤ k then 26 else k - bias

/-- The steps of halving that bring a number into one digit's range. -/
def adaptSteps (delta k : Nat) : Nat × Nat :=
  if _h : delta > 455 then adaptSteps (delta / 35) (k + base) else (delta, k)
termination_by delta
decreasing_by omega

/-- The bias after a number `delta`, with `count` characters placed. -/
def adapt (delta count : Nat) (isFirst : Bool) : Nat :=
  let delta := if isFirst then delta / 700 else delta / 2
  let (delta, k) := adaptSteps (delta + delta / count) 0
  k + 36 * delta / (delta + 38)

/-- The digit for a value below the base. -/
def digit (v : Nat) : Char :=
  if v < 26 then Char.ofNat ('a'.toNat + v) else Char.ofNat ('0'.toNat + v - 26)

/-- The value of a digit. -/
def value? (c : Char) : Option Nat :=
  if c.isLower then some (c.toNat - 'a'.toNat)
  else if c.isUpper then some (c.toNat - 'A'.toNat)
  else if c.isDigit then some (c.toNat - '0'.toNat + 26)
  else none

/-- The digits of a number, from position `k`. -/
def number (bias q k : Nat) : List Char :=
  if _h : threshold bias k ≤ q ∧ 0 < threshold bias k then
    digit (threshold bias k + (q - threshold bias k) % (base - threshold bias k)) ::
      number bias ((q - threshold bias k) / (base - threshold bias k)) (k + base)
  else [digit q]
termination_by q
decreasing_by
  have := Nat.div_le_self (q - threshold bias k) (base - threshold bias k)
  omega

/-- Where the encoder stands: the next code point, the distance so far, the
bias, and how many characters it has placed. -/
structure State where
  code : Nat
  delta : Nat
  bias : Nat
  placed : Nat

/-- One pass over the text for the code point `m`: the numbers written in it,
and the state after it. -/
def pass (basics m : Nat) : List Nat → State → List Char × State
  | [], s => ([], s)
  | c :: rest, s =>
    if c < m then pass basics m rest { s with delta := s.delta + 1 }
    else if c = m then
      let written := number s.bias s.delta base
      let s := { s with
        bias := adapt s.delta (s.placed + 1) (s.placed == basics)
        delta := 0
        placed := s.placed + 1 }
      let (more, s) := pass basics m rest s
      (written ++ more, s)
    else pass basics m rest s

/-- The passes still to make, each for the least code point not yet placed;
`fuel` is at least the number of different ones. -/
def passes (basics : Nat) (codes : List Nat) : Nat → State → List Char
  | 0, _ => []
  | fuel + 1, s =>
    match (codes.filter (s.code ≤ ·)).min? with
    | none => []
    | some m =>
      let s := { s with delta := s.delta + (m - s.code) * (s.placed + 1) }
      let (written, s) := pass basics m codes s
      written ++ passes basics codes fuel { s with delta := s.delta + 1, code := m + 1 }

/-- The ASCII form of a label, without the mark in front of it. -/
def encode (label : List Char) : List Char :=
  let codes := label.map Char.toNat
  let ascii := label.filter (·.toNat < 0x80)
  let start := if ascii.isEmpty then [] else ascii ++ ['-']
  start ++ passes ascii.length codes codes.length ⟨0x80, 0, 72, ascii.length⟩

/-- Reads one number from position `k` with weight `w`: its value on top of
`i`, and the digits after it. -/
def readNumber (bias : Nat) : List Char → Nat → Nat → Nat → Option (Nat × List Char)
  | [], _, _, _ => none
  | c :: rest, i, w, k => do
    let v ← value? c
    let i := i + v * w
    if Nat.pow 2 32 ≤ i then none
    else
      let t := threshold bias k
      if v < t then some (i, rest) else readNumber bias rest i (w * (base - t)) (k + base)

/-- Reads the numbers and puts each character in its place; `fuel` is at least
the number of digits left. -/
def insertions : Nat → List Char → List Nat → Nat → Nat → Nat → Option (List Nat)
  | _, [], codes, _, _, _ => some codes
  | 0, _ :: _, _, _, _, _ => none
  | fuel + 1, digits, codes, n, i, bias => do
    let (j, rest) ← readNumber bias digits i 1 base
    let size := codes.length + 1
    let n := n + j / size
    let place := j % size
    if n < 0x110000 && !(0xd800 ≤ n && n < 0xe000) then
      insertions fuel rest (codes.take place ++ n :: codes.drop place) n (place + 1)
        (adapt (j - i) size (i == 0))
    else none

/-- The label that an ASCII form stands for. -/
def decode (form : List Char) : Option (List Char) :=
  let digits := (form.reverse.takeWhile (· != '-')).reverse
  let ascii := (form.take (form.length - digits.length)).dropLast
  if ascii.any (0x80 ≤ ·.toNat) then none
  else do
    let codes ← insertions (digits.length + 1) digits (ascii.map Char.toNat) 0x80 0 72
    pure (codes.map Char.ofNat)

end Punycode
end WorkloadIdentity
