/-
# Spans of time

A `Duration` is whole seconds in a 64-bit word and nanoseconds below one second,
so a product may not fit. In messages it is a number in the largest unit that
gives it a whole part, with the decimals it needs.

Key definitions: `Duration`, `Duration.checkedMul`, `Duration.ceilMillis`,
`Duration.text`.
-/

namespace WorkloadIdentity

/-- Nanoseconds in a second. -/
def nanosPerSecond : Nat := 1000000000

/-- A span of time: seconds, and nanoseconds below one second. -/
structure Duration where
  secs : Nat
  nanos : Nat
  deriving DecidableEq, Repr

namespace Duration

/-- The longest number of seconds a duration can have. -/
def maxSecs : Nat := Nat.pow 2 64 - 1

/-- The span in nanoseconds. -/
def toNanos (d : Duration) : Nat := d.secs * nanosPerSecond + d.nanos

/-- The span of so many nanoseconds. -/
def ofNanos (n : Nat) : Duration := ⟨n / nanosPerSecond, n % nanosPerSecond⟩

/-- The span of so many milliseconds. -/
def ofMillis (n : Nat) : Duration := ofNanos (n * 1000000)

/-- The span of so many microseconds. -/
def ofMicros (n : Nat) : Duration := ofNanos (n * 1000)

/-- The span in milliseconds, a fraction counted as a whole one: timers have
a resolution of one millisecond and never fire early. -/
def ceilMillis (d : Duration) : Nat := (d.toNanos + 999999) / 1000000

/-- `k` times the span, if its seconds fit their word. -/
def checkedMul (d : Duration) (k : Nat) : Option Duration :=
  let product := ofNanos (d.toNanos * k)
  if product.secs ≤ maxSecs then some product else none

/-- The shorter of two spans. -/
def min (a b : Duration) : Duration := if a.toNanos ≤ b.toNanos then a else b

/-- Digits after the point: so many, without the zeros at the end. -/
def fraction (width n : Nat) : List Char :=
  let digits := (List.range width).map fun i => Nat.digitChar (n / Nat.pow 10 (width - 1 - i) % 10)
  match (digits.reverse.dropWhile (· = '0')).reverse with
  | [] => []
  | digits => '.' :: digits

/-- The span as messages show it. -/
def text (d : Duration) : String :=
  let (whole, width, rest, unit) :=
    if d.secs ≠ 0 then (d.secs, 9, d.nanos, "s")
    else if 1000000 ≤ d.nanos then (d.nanos / 1000000, 6, d.nanos % 1000000, "ms")
    else if 1000 ≤ d.nanos then (d.nanos / 1000, 3, d.nanos % 1000, "µs")
    else (d.nanos, 0, 0, "ns")
  String.ofList (Nat.toDigits 10 whole ++ fraction width rest) ++ unit

end Duration
end WorkloadIdentity
