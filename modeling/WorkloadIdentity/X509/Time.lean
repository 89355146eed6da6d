/-
# Times in certificates

A time is written in digits, with the year in two (from 1950 to 2049) or in
four. Read tolerantly, a time may leave its seconds out, a two-digit one may
name an offset, and a four-digit one may leave its minutes out and have a
fraction of up to three digits. Read strictly, it has seconds and ends in a
`Z`, and is not before 1970.

Key definitions: `CalendarTime`, `CalendarTime.unixSeconds`,
`CalendarTime.isTolerated`, `CalendarTime.ofStrict?`.
-/
import WorkloadIdentity.Der.Reader

namespace WorkloadIdentity

/-- A second as the calendar shows it. -/
structure CalendarTime where
  year : Nat
  month : Nat
  day : Nat
  hour : Nat
  minute : Nat
  second : Nat
  deriving DecidableEq, Repr

namespace CalendarTime

/-- Does February have 29 days? -/
def isLeap (year : Nat) : Bool := year % 4 == 0 && (year % 100 != 0 || year % 400 == 0)

/-- The days of a month; none for a month that there is not. -/
def daysInMonth (year month : Nat) : Nat :=
  match month with
  | 2 => if isLeap year then 29 else 28
  | 4 | 6 | 9 | 11 => 30
  | 1 | 3 | 5 | 7 | 8 | 10 | 12 => 31
  | _ => 0

/-- Is there such a second? -/
def exists? (t : CalendarTime) : Bool :=
  1 ≤ t.day && t.day ≤ daysInMonth t.year t.month && t.hour ≤ 23 && t.minute ≤ 59 && t.second ≤ 59

/-- The days from the first of January of the year 0 to that of another. -/
def daysBeforeYear (year : Nat) : Nat :=
  365 * year + (year + 3) / 4 + (year + 399) / 400 - (year + 99) / 100

/-- The days of a year before the first of a month. -/
def daysBeforeMonth (year month : Nat) : Nat :=
  (List.range (month - 1)).foldl (fun days m => days + daysInMonth year (m + 1)) 0

/-- Seconds since the year 1970 began. -/
def unixSeconds (t : CalendarTime) : Nat :=
  let days :=
    daysBeforeYear t.year - daysBeforeYear 1970 + daysBeforeMonth t.year t.month + t.day - 1
  days * 86400 + t.hour * 3600 + t.minute * 60 + t.second

/-- Two digits. -/
def readPair : Der.Reader Nat
  | a :: b :: rest =>
    if 48 ≤ a ∧ a ≤ 57 ∧ 48 ≤ b ∧ b ≤ 57 then some ((a.toNat - 48) * 10 + (b.toNat - 48), rest)
    else none
  | _ => none

/-- Two digits, or zero where a single octet is left. -/
def readPairUnlessLast : Der.Reader Nat
  | [] => none
  | [z] => some (0, [z])
  | octets => readPair octets

/-- The year that two digits stand for. -/
def centuryOf (year : Nat) : Nat := if year < 50 then 2000 + year else 1900 + year

/-- The year, in two digits or in four. -/
def readYear (short : Bool) : Der.Reader Nat := do
  let first ← readPair
  if short then pure (centuryOf first)
  else do
    let second ← readPair
    pure (first * 100 + second)

/-- Is this all of a time zone: a `Z`, or a sign, up to 25 hours and up to 59
minutes? -/
def isZone : Bytes → Bool
  | [zone] => zone == 90
  | sign :: digits => (sign == 43 || sign == 45) &&
    (match (do pure (← readPair, ← readPair) : Der.Reader (Nat × Nat)) digits with
      | some ((hours, minutes), []) => hours ≤ 25 && minutes ≤ 59
      | _ => false)
  | [] => false

/-- What follows a fraction of at most three digits. -/
def dropFraction : Bytes → Option Bytes
  | 46 :: rest =>
    let digits := rest.takeWhile fun b => 48 ≤ b ∧ b ≤ 57
    if digits.length ≤ 3 then some (rest.drop digits.length) else none
  | octets => some octets

/-- The time with a year in two digits, up to its time zone. -/
def readShort : Der.Reader CalendarTime := do
  let year ← readYear true
  let month ← readPair
  let day ← readPair
  let hour ← readPair
  let minute ← readPair
  let second ← readPairUnlessLast
  pure ⟨year, month, day, hour, minute, second⟩

/-- The time with a year in four digits, up to its fraction. -/
def readLong : Der.Reader CalendarTime := do
  let year ← readYear false
  let month ← readPair
  let day ← readPair
  let hour ← readPair
  let minute ← readPairUnlessLast
  let second ← readPairUnlessLast
  pure ⟨year, month, day, hour, minute, second⟩

/-- Is the content of a time with a two-digit year tolerated? -/
def isToleratedShort (content : Bytes) : Bool :=
  match readShort content with
  | some (t, zone) => t.exists? && isZone zone
  | none => false

/-- Is the content of a time with a four-digit year tolerated? It has to end in
a `Z`. -/
def isToleratedLong (content : Bytes) : Bool :=
  match readLong content with
  | some (t, rest) => t.exists? && dropFraction rest == some [90]
  | none => false

/-- Is the element a time that is tolerated? -/
def isTolerated (e : Der.Element) : Bool :=
  (e.tag.number == 23 && isToleratedShort e.content) ||
    (e.tag.number == 24 && isToleratedLong e.content)

/-- The time in an element, read strictly. -/
def ofStrict? (e : Der.Element) : Option CalendarTime :=
  if e.tag = .utcTime ∨ e.tag = .generalizedTime then
    let reader : Der.Reader CalendarTime := do
      let year ← readYear (e.tag = .utcTime)
      pure ⟨year, ← readPair, ← readPair, ← readPair, ← readPair, ← readPair⟩
    match reader e.content with
    | some (t, [90]) => if t.exists? && 1970 ≤ t.year then some t else none
    | _ => none
  else none

end CalendarTime
end WorkloadIdentity
