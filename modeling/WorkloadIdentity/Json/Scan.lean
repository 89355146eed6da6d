/-
# Passing over JSON

A reader that wants only some members of an object passes over the values of
the others. What it passes over has to have the form of JSON, but nothing in it
is read: numbers of any size, any nesting, and strings whose octets or escapes
stand for no text are all passed.

The scanner goes octet by octet, with the arrays and objects it is inside of on
a stack.

Key definitions: `Json.Scan.skip`, `Json.splitValue`, `Json.splitMembers`,
`Json.splitItems`.
-/
import WorkloadIdentity.Text.Hex

namespace WorkloadIdentity
namespace Json
namespace Scan

/-- What the scanner is inside of. -/
inductive Frame where
  | array
  | object
  deriving DecidableEq, Repr

/-- Where the scanner stands. -/
inductive Mode where
  /-- A value has to follow. -/
  | value
  /-- A value or the end of the array has to follow. -/
  | firstItem
  /-- A name or the end of the object has to follow. -/
  | firstName
  /-- A name has to follow. -/
  | name
  /-- A colon has to follow. -/
  | colon
  /-- A comma or the end of what it is inside of has to follow. -/
  | after
  /-- Inside a string, which may be a name. -/
  | string (isName : Bool)
  /-- After a backslash. -/
  | escape (isName : Bool)
  /-- Inside an escape, with so many digits to come. -/
  | hex (isName : Bool) (left : Nat)
  /-- Inside a word, with these letters to come. -/
  | word (left : Bytes)
  /-- After a minus. -/
  | minus
  /-- After a zero in front. -/
  | zero
  /-- Inside the digits before a point. -/
  | whole
  /-- After a point. -/
  | point
  /-- Inside the digits after a point. -/
  | fraction
  /-- After the mark of an exponent. -/
  | mark
  /-- After the sign of an exponent. -/
  | sign
  /-- Inside the digits of an exponent. -/
  | exponent
  deriving DecidableEq, Repr

/-- What an octet does. -/
inductive Outcome where
  /-- The value ends with it. -/
  | ends
  /-- The value ended before it. -/
  | ended
  /-- The value goes on. -/
  | next (stack : List Frame) (mode : Mode)
  /-- This is no JSON. -/
  | fails

/-- The octet of an ASCII character. -/
def octet (c : Char) : UInt8 := UInt8.ofNat c.toNat

/-- The octets of an ASCII word. -/
def octets (s : String) : Bytes := s.toList.map octet

/-- Blanks between tokens. -/
def isBlank (b : UInt8) : Bool :=
  b == octet ' ' || b == octet '\n' || b == octet '\t' || b == octet '\r'

/-- Is the octet a decimal digit? -/
def isDigit (b : UInt8) : Bool := octet '0' ≤ b && b ≤ octet '9'

/-- A value is complete with this octet. -/
def complete : List Frame → Outcome
  | [] => .ends
  | stack => .next stack .after

/-- The first octet of a value. -/
def startValue (stack : List Frame) (b : UInt8) : Outcome :=
  if b == octet '"' then .next stack (.string false)
  else if b == octet '[' then .next (.array :: stack) .firstItem
  else if b == octet '\x7b' then .next (.object :: stack) .firstName
  else if b == octet '-' then .next stack .minus
  else if b == octet '0' then .next stack .zero
  else if isDigit b then .next stack .whole
  else if b == octet 'n' then .next stack (.word (octets "ull"))
  else if b == octet 't' then .next stack (.word (octets "rue"))
  else if b == octet 'f' then .next stack (.word (octets "alse"))
  else .fails

/-- An octet after a value inside an array or an object. -/
def afterValue (stack : List Frame) (b : UInt8) : Outcome :=
  if isBlank b then .next stack .after
  else match stack with
    | .array :: outer =>
      if b == octet ',' then .next stack .value
      else if b == octet ']' then complete outer
      else .fails
    | .object :: outer =>
      if b == octet ',' then .next stack .name
      else if b == octet '\x7d' then complete outer
      else .fails
    | [] => .fails

/-- An octet that cannot belong to the number before it. -/
def afterNumber (stack : List Frame) (b : UInt8) : Outcome :=
  if stack.isEmpty then .ended else afterValue stack b

/-- The octet that starts a name. -/
def startName (stack : List Frame) (b : UInt8) : Outcome :=
  if b == octet '"' then .next stack (.string true) else .fails

/-- What an octet does where the scanner stands. -/
def step (stack : List Frame) (mode : Mode) (b : UInt8) : Outcome :=
  match mode with
  | .value => if isBlank b then .next stack .value else startValue stack b
  | .firstItem =>
    if isBlank b then .next stack .firstItem
    else if b == octet ']' then complete (stack.drop 1)
    else startValue stack b
  | .firstName =>
    if isBlank b then .next stack .firstName
    else if b == octet '\x7d' then complete (stack.drop 1)
    else startName stack b
  | .name => if isBlank b then .next stack .name else startName stack b
  | .colon =>
    if isBlank b then .next stack .colon
    else if b == octet ':' then .next stack .value
    else .fails
  | .after => afterValue stack b
  | .string isName =>
    if b == octet '"' then if isName then .next stack .colon else complete stack
    else if b == octet '\\' then .next stack (.escape isName)
    else if b < 0x20 then .fails
    else .next stack (.string isName)
  | .escape isName =>
    if b == octet 'u' then .next stack (.hex isName 4)
    else if (octets "\"\\/bfnrt").contains b then .next stack (.string isName)
    else .fails
  | .hex isName left =>
    if (Hex.value? (Char.ofNat b.toNat)).isNone then .fails
    else if left ≤ 1 then .next stack (.string isName)
    else .next stack (.hex isName (left - 1))
  | .word [last] => if b == last then complete stack else .fails
  | .word (c :: left) => if b == c then .next stack (.word left) else .fails
  | .word [] => .fails
  | .minus =>
    if b == octet '0' then .next stack .zero
    else if isDigit b then .next stack .whole
    else .fails
  | .zero =>
    if isDigit b then .fails
    else if b == octet '.' then .next stack .point
    else if b == octet 'e' || b == octet 'E' then .next stack .mark
    else afterNumber stack b
  | .whole =>
    if isDigit b then .next stack .whole
    else if b == octet '.' then .next stack .point
    else if b == octet 'e' || b == octet 'E' then .next stack .mark
    else afterNumber stack b
  | .point => if isDigit b then .next stack .fraction else .fails
  | .fraction =>
    if isDigit b then .next stack .fraction
    else if b == octet 'e' || b == octet 'E' then .next stack .mark
    else afterNumber stack b
  | .mark =>
    if b == octet '+' || b == octet '-' then .next stack .sign
    else if isDigit b then .next stack .exponent
    else .fails
  | .sign => if isDigit b then .next stack .exponent else .fails
  | .exponent => if isDigit b then .next stack .exponent else afterNumber stack b

/-- Can a value end where the scanner stands, with nothing more to come? -/
def canEnd (stack : List Frame) (mode : Mode) : Bool :=
  stack.isEmpty && (mode = .zero || mode = .whole || mode = .fraction || mode = .exponent)

/-- What follows the value that the scanner is in. -/
def skip : List Frame → Mode → Bytes → Option Bytes
  | stack, mode, [] => if canEnd stack mode then some [] else none
  | stack, mode, b :: rest =>
    match step stack mode b with
    | .ends => some rest
    | .ended => some (b :: rest)
    | .next stack mode => skip stack mode rest
    | .fails => none

end Scan

/-- The octets of the value a text starts with, and those after it. -/
def splitValue (s : Bytes) : Option (Bytes × Bytes) := do
  let s := s.dropWhile Scan.isBlank
  let rest ← Scan.skip [] .value s
  pure (s.take (s.length - rest.length), rest)

/-- What follows an octet that has to come next. -/
def expect (c : Char) (s : Bytes) : Option Bytes :=
  match s.dropWhile Scan.isBlank with
  | b :: rest => if b == Scan.octet c then some rest else none
  | [] => none

/-- The octets of the items up to the end of an array; `fuel` is at least the
length of the text. -/
def splitItemsFrom : Nat → Bytes → Option (List Bytes × Bytes)
  | 0, _ => none
  | fuel + 1, s => do
    let (item, rest) ← splitValue s
    match expect ',' rest with
    | some rest =>
      let (items, rest) ← splitItemsFrom fuel rest
      pure (item :: items, rest)
    | none => pure ([item], ← expect ']' rest)

/-- The octets of the names and values up to the end of an object; `fuel` is
at least the length of the text. -/
def splitMembersFrom : Nat → Bytes → Option (List (Bytes × Bytes) × Bytes)
  | 0, _ => none
  | fuel + 1, s => do
    let (name, rest) ← splitValue s
    let rest ← expect ':' rest
    let (value, rest) ← splitValue rest
    match expect ',' rest with
    | some rest =>
      let (members, rest) ← splitMembersFrom fuel rest
      pure ((name, value) :: members, rest)
    | none => pure ([(name, value)], ← expect '\x7d' rest)

/-- The octets of the items of a text that is an array. -/
def splitItems (s : Bytes) : Option (List Bytes) := do
  let s ← expect '[' s
  let (items, rest) ← match expect ']' s with
    | some rest => pure ([], rest)
    | none => splitItemsFrom s.length s
  if (rest.dropWhile Scan.isBlank).isEmpty then some items else none

/-- The octets of the names and values of a text that is an object. -/
def splitMembers (s : Bytes) : Option (List (Bytes × Bytes)) := do
  let s ← expect '\x7b' s
  let (members, rest) ← match expect '\x7d' s with
    | some rest => pure ([], rest)
    | none => splitMembersFrom s.length s
  if (rest.dropWhile Scan.isBlank).isEmpty then some members else none

end Json
end WorkloadIdentity
