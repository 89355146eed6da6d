/-
# Writing JSON

The compact writing: no blanks, members in the order of their names, only
quotes, backslashes and controls escaped, and doubles with the fewest digits
that read back, in place from `1e-5` up to below `1e16`.

Key definitions: `Json.text`, `Json.bytes`, `Json.numberStyle`.
-/
import WorkloadIdentity.Json.Basic
import WorkloadIdentity.Text.Utf8

namespace WorkloadIdentity
namespace Json

/-- Doubles from `1e-5` up to below `1e16` are written in place. -/
def numberStyle : Shortest.Style := ⟨-5, 16⟩

/-- A character between the quotes of a string. -/
def escaped (c : Char) : List Char :=
  if c = '"' then ['\\', '"']
  else if c = '\\' then ['\\', '\\']
  else if 0x20 ≤ c.toNat then [c]
  else if c.toNat = 8 then ['\\', 'b']
  else if c.toNat = 9 then ['\\', 't']
  else if c.toNat = 10 then ['\\', 'n']
  else if c.toNat = 12 then ['\\', 'f']
  else if c.toNat = 13 then ['\\', 'r']
  else '\\' :: 'u' :: '0' :: '0' :: Hex.octet Hex.lowerDigits (UInt8.ofNat c.toNat)

/-- A string in writing. -/
def stringText (s : String) : List Char := '"' :: s.toList.flatMap escaped ++ ['"']

/-- A number in writing. -/
def numberText : Number → List Char
  | .integer n => (if n < 0 then ['-'] else []) ++ Nat.toDigits 10 n.natAbs
  | .real x => Shortest.text numberStyle x

mutual

/-- A value in writing. -/
def chars : Json → List Char
  | null => "null".toList
  | bool true => "true".toList
  | bool false => "false".toList
  | number n => numberText n
  | string s => stringText s
  | array items => '[' :: itemsChars items ++ [']']
  | object members => '\x7b' :: membersChars members ++ ['\x7d']

/-- Items with commas between them. -/
def itemsChars : List Json → List Char
  | [] => []
  | [item] => chars item
  | item :: rest => chars item ++ ',' :: itemsChars rest

/-- Members with commas between them. -/
def membersChars : List (String × Json) → List Char
  | [] => []
  | [(name, value)] => stringText name ++ ':' :: chars value
  | (name, value) :: rest => stringText name ++ ':' :: chars value ++ ',' :: membersChars rest

end

/-- A value as text. -/
def text (value : Json) : String := String.ofList value.chars

/-- A value as octets. -/
def bytes (value : Json) : Bytes := Utf8.encode value.text

end Json
end WorkloadIdentity
