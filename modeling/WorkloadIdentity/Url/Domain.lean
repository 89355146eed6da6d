/-
# Domain names in ASCII

A domain name is compared and resolved in its ASCII form: letters of ASCII, of
Latin-1 and full-width ones in lower case, full-width forms and ideographic stops
replaced by their plain ones, invisible characters dropped, and a label that is
not ASCII written in Punycode after the mark `xn--`. A name has no such form if it
holds a character that no domain can hold, a character without a printed form, a
label that starts with a combining mark, or a marked label that is no Punycode.

This is not the whole mapping of international names: capitals of other alphabets,
such as Σ, are kept as they are, and so are the forms that stand for several
characters. Of names with such characters the ASCII form is another one.

Key definitions: `Domain.plain`, `Domain.toAscii`.
-/
import WorkloadIdentity.Text.Class.Extending
import WorkloadIdentity.Text.Punycode
import WorkloadIdentity.Url.Percent

namespace WorkloadIdentity
namespace Domain

/-- The ASCII characters that no domain name can hold. -/
def isForbidden (c : Char) : Bool :=
  c.toNat ≤ 0x20 || c.toNat == 0x7f || "%#/:<>?@[\\]^|".toList.contains c

/-- Characters that are left out of a name. -/
def isDropped (c : Char) : Bool :=
  [0xad, 0x200b, 0x2060, 0x2064, 0xfeff].contains c.toNat ||
    (0xfe00 ≤ c.toNat && c.toNat ≤ 0xfe0f)

/-- The plain form of a character; capitals outside ASCII, Latin-1 and the full-width
forms are kept. -/
def plain (c : Char) : Char :=
  if 0xff01 ≤ c.toNat && c.toNat ≤ 0xff5e then (Char.ofNat (c.toNat - 0xfee0)).toLower
  else if [0x3002, 0xff61].contains c.toNat then '.'
  else if 0xc0 ≤ c.toNat && c.toNat ≤ 0xde && c.toNat != 0xd7 then Char.ofNat (c.toNat + 0x20)
  else c.toLower

/-- Can the character stand in a name? -/
def isAllowed (c : Char) : Bool :=
  if c.toNat < 0x80 then !isForbidden c else !CharClass.contains CharClass.unprintable c.toNat

/-- Can a label start with the character? -/
def canStart (c : Char) : Bool :=
  c.toNat < 0x80 || !CharClass.contains CharClass.extending c.toNat

/-- The ASCII form of one label. -/
def label? (label : List Char) : Option (List Char) :=
  match label with
  | 'x' :: 'n' :: '-' :: '-' :: form => do
    let read ← Punycode.decode form
    if read.all isAllowed && read.any (0x80 ≤ ·.toNat) && (read.head?.all canStart) &&
        Punycode.encode read == form then some label else none
  | _ =>
    if label.all (·.toNat < 0x80) then some label
    else if label.head?.all canStart then
      some ("xn--".toList ++ Punycode.encode label)
    else none

/-- The ASCII form of a name given by its octets. -/
def toAscii (octets : Bytes) : Option (List Char) := do
  let name ← Utf8.decode octets
  let name := (name.toList.filter (!isDropped ·)).map plain
  if name.all isAllowed then
    let labels ← (name.splitOn '.').mapM label?
    some (['.'].intercalate labels)
  else none

end Domain
end WorkloadIdentity
