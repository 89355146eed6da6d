/-
# Reading JSON

`Json.parse` reads a text of one value with blanks around it. Arrays and
objects may be nested up to 127 deep; of two members with one name the last
stays; an escaped surrogate has to be one of a pair.

The functions carry a measure of the text left, `fuel`, that each step
decreases; the text's length is enough.

Key definitions: `Json.parse`, `Json.parseText`, `Json.maxDepth`.
-/
import WorkloadIdentity.Json.Number
import WorkloadIdentity.Text.Utf8

namespace WorkloadIdentity
namespace Json

/-- How deep arrays and objects may be nested. -/
def maxDepth : Nat := 127

/-- Blanks between tokens. -/
def isBlank (c : Char) : Bool := c == ' ' || c == '\n' || c == '\t' || c == '\r'

/-- The text after blanks. -/
def skipBlanks (s : List Char) : List Char := s.dropWhile isBlank

/-- The value of four hexadecimal digits. -/
def hex4? (a b c d : Char) : Option Nat := do
  let a ← Hex.value? a
  let b ← Hex.value? b
  let c ← Hex.value? c
  let d ← Hex.value? d
  pure (((a * 16 + b) * 16 + c) * 16 + d)

/-- The character that one letter after a backslash stands for. -/
def escape? (c : Char) : Option Char :=
  if c = '"' ∨ c = '\\' ∨ c = '/' then some c
  else if c = 'b' then some (Char.ofNat 8)
  else if c = 'f' then some (Char.ofNat 12)
  else if c = 'n' then some '\n'
  else if c = 'r' then some '\r'
  else if c = 't' then some '\t'
  else none

/-- Reads the rest of a string after its quote; `read` are the characters so
far, the last one first. -/
def readString (read : List Char) : List Char → Option (String × List Char)
  | [] => none
  | '"' :: rest => some (String.ofList read.reverse, rest)
  | '\\' :: 'u' :: a :: b :: c :: d :: rest =>
    match hex4? a b c d with
    | none => none
    | some high =>
      if 0xd800 ≤ high ∧ high < 0xdc00 then
        match rest with
        | '\\' :: 'u' :: e :: f :: g :: h :: rest =>
          match hex4? e f g h with
          | none => none
          | some low =>
            if 0xdc00 ≤ low ∧ low < 0xe000 then
              let code := 0x10000 + (high - 0xd800) * 0x400 + (low - 0xdc00)
              readString (Char.ofNat code :: read) rest
            else none
        | _ => none
      else if 0xdc00 ≤ high ∧ high < 0xe000 then none
      else readString (Char.ofNat high :: read) rest
  | '\\' :: c :: rest =>
    match escape? c with
    | some e => readString (e :: read) rest
    | none => none
  | c :: rest => if c = '\\' ∨ c.toNat < 0x20 then none else readString (c :: read) rest

mutual

/-- Reads a value; `depth` more arrays and objects may be nested. -/
def readValue : Nat → Nat → List Char → Option (Json × List Char)
  | 0, _, _ => none
  | fuel + 1, depth, s =>
    match skipBlanks s with
    | 'n' :: 'u' :: 'l' :: 'l' :: rest => some (null, rest)
    | 't' :: 'r' :: 'u' :: 'e' :: rest => some (bool true, rest)
    | 'f' :: 'a' :: 'l' :: 's' :: 'e' :: rest => some (bool false, rest)
    | '"' :: rest => (readString [] rest).map fun (s, rest) => (string s, rest)
    | '[' :: rest =>
      match depth with
      | 0 => none
      | depth + 1 =>
        match skipBlanks rest with
        | ']' :: rest => some (array [], rest)
        | _ => readItems fuel depth [] rest
    | '\x7b' :: rest =>
      match depth with
      | 0 => none
      | depth + 1 =>
        match skipBlanks rest with
        | '\x7d' :: rest => some (object [], rest)
        | _ => readMembers fuel depth [] rest
    | s => do
      let (numeral, rest) ← readNumeral s
      let n ← numeral.value?
      pure (number n, rest)

/-- Reads the items of an array, of which there is at least one more. -/
def readItems : Nat → Nat → List Json → List Char → Option (Json × List Char)
  | 0, _, _, _ => none
  | fuel + 1, depth, items, s =>
    match readValue fuel depth s with
    | none => none
    | some (item, rest) =>
      match skipBlanks rest with
      | ',' :: rest => readItems fuel depth (item :: items) rest
      | ']' :: rest => some (array (item :: items).reverse, rest)
      | _ => none

/-- Reads the members of an object, of which there is at least one more. -/
def readMembers : Nat → Nat → Keyed Json → List Char → Option (Json × List Char)
  | 0, _, _, _ => none
  | fuel + 1, depth, members, s =>
    match skipBlanks s with
    | '"' :: rest =>
      match readString [] rest with
      | none => none
      | some (name, rest) =>
        match skipBlanks rest with
        | ':' :: rest =>
          match readValue fuel depth rest with
          | none => none
          | some (value, rest) =>
            let members := Keyed.insert name value members
            match skipBlanks rest with
            | ',' :: rest => readMembers fuel depth members rest
            | '\x7d' :: rest => some (object members, rest)
            | _ => none
        | _ => none
    | _ => none

end

/-- Reads a text of one value. -/
def parseText (s : List Char) : Option Json :=
  match readValue (s.length + 1) maxDepth s with
  | some (value, rest) => if (skipBlanks rest).isEmpty then some value else none
  | none => none

/-- Reads the octets of a text of one value. -/
def parse (bytes : Bytes) : Option Json := do parseText (← Utf8.decode bytes).toList

end Json
end WorkloadIdentity
