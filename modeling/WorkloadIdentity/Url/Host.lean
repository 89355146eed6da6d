/-
# Hosts of URLs

The host of a special scheme (`http` and its like) is an address or a domain
name: the text is unescaped and put into its ASCII form, and if its last label
is a number it has to be a version 4 address in one of the forms of one to four
numbers, each decimal, octal or hexadecimal. The host of any other scheme is
an escaped text. Brackets hold a version 6 address under every scheme.

Key definitions: `Host.parseSpecial`, `Host.parsePlain`, `Host.endsInNumber`.
-/
import WorkloadIdentity.Url.Basic
import WorkloadIdentity.Url.Domain

namespace WorkloadIdentity
namespace Url
namespace Host

/-- The version 6 address between brackets. -/
def parseBracketed (s : List Char) : Except UrlError Host :=
  if s.getLast? == some ']' then
    match Ipv6.parse (s.drop 1).dropLast with
    | some x => .ok (.v6 x)
    | none => .error .invalidIpv6
  else .error .invalidIpv6

/-- What no host of any scheme can hold. -/
def isForbidden (c : Char) : Bool :=
  c.toNat == 0 || "\t\n\r #/:<>?@[\\]^|".toList.contains c

/-- The host of a scheme that is not special. -/
def parsePlain (s : List Char) : Except UrlError Host :=
  if s.head? == some '[' then parseBracketed s
  else if s.any isForbidden then .error .invalidHostCharacter
  else if s.isEmpty then .ok .absent
  else .ok (.domain (Percent.encode Percent.controlSet s))

/-- A number of an address in decimal, octal (after a zero) or hexadecimal
(after a zero and an x). A number that 32 bits cannot hold is `some none`. -/
def number? (s : List Char) : Option (Option Nat) :=
  let (base, digits) : Nat × List Char := match s with
    | '0' :: 'x' :: rest => (16, rest)
    | '0' :: 'X' :: rest => (16, rest)
    | '0' :: c :: rest => (8, c :: rest)
    | _ => (10, s)
  if s.isEmpty then none
  else match digits.mapM Hex.value? with
    | some values =>
      if values.all (· < base) then
        let n := values.foldl (fun n v => n * base + v) 0
        some (if n < Nat.pow 2 32 then some n else none)
      else none
    | none => none

/-- Is the last label (the one before it, if the name ends with a dot) a
number? -/
def endsInNumber (name : List Char) : Bool :=
  let isNumber (label : List Char) : Bool :=
    (!label.isEmpty && label.all Char.isDigit) || (number? label).isSome
  match (name.splitOn '.').reverse with
  | [] :: label :: _ => isNumber label
  | [] :: [] => false
  | label :: _ => isNumber label
  | [] => false

/-- The address that one to four numbers give: each but the last is an octet,
the last one fills the rest. -/
def ofNumbers? (numbers : List Nat) : Option Ipv4 :=
  match numbers.reverse with
  | [] => none
  | last :: before =>
    let octets := before.reverse
    if 4 < numbers.length || octets.any (255 < ·) then none
    else if Nat.pow 256 (4 - octets.length) ≤ last then none
    else
      let high := octets.foldl (· * 256 + ·) 0
      some (Ipv4.ofNat (high * Nat.pow 256 (4 - octets.length) + last))

/-- The version 4 address that a name ending in a number has to be. -/
def parseIpv4 (name : List Char) : Except UrlError Host :=
  let labels := name.splitOn '.'
  let labels := if labels.getLast? == some [] then labels.dropLast else labels
  match labels.mapM fun label => (number? label).join with
  | some numbers =>
    match ofNumbers? numbers with
    | some x => .ok (.v4 x)
    | none => .error .invalidIpv4
  | none => .error .invalidIpv4

/-- The host of a special scheme. -/
def parseSpecial (s : List Char) : Except UrlError Host :=
  if s.head? == some '[' then parseBracketed s
  else match Domain.toAscii (Percent.decode s) with
    | none => .error .invalidDomain
    | some name =>
      if name.isEmpty then .error .emptyHost
      else if endsInNumber name then parseIpv4 name
      else .ok (.domain name)

end Host
end Url
end WorkloadIdentity
