/-
# Quoted text

A text between quotes as messages show it: a quote, a backslash, a tab, a line
end and a null are escaped with a backslash, and a character that has no
printed form of its own (a control, an unassigned one, a combining mark) is
written by its code point. An apostrophe stays as it is.

Key definitions: `Quoted.text`, `Quoted.list`.
-/
import WorkloadIdentity.Text.Class.Extending

namespace WorkloadIdentity
namespace Quoted

/-- Has the character no printed form of its own? -/
def isHidden (c : Char) : Bool :=
  if c.toNat < 0x80 then c.toNat < 0x20 || c.toNat == 0x7f
  else CharClass.contains CharClass.extending c.toNat ||
    CharClass.contains CharClass.unprintable c.toNat

/-- One character between quotes. -/
def char (c : Char) : List Char :=
  if c = '"' then ['\\', '"']
  else if c = '\\' then ['\\', '\\']
  else if c = '\n' then ['\\', 'n']
  else if c = '\r' then ['\\', 'r']
  else if c = '\t' then ['\\', 't']
  else if c.toNat = 0 then ['\\', '0']
  else if isHidden c then "\\u\x7b".toList ++ Nat.toDigits 16 c.toNat ++ ['\x7d']
  else [c]

/-- A text between quotes. -/
def text (s : String) : String :=
  String.ofList ('"' :: s.toList.flatMap char ++ ['"'])

/-- Texts between quotes, in brackets. -/
def list (items : List String) : String :=
  "[" ++ ", ".intercalate (items.map text) ++ "]"

end Quoted
end WorkloadIdentity
