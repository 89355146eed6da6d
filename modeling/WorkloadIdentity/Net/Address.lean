/-
# Internet addresses

Addresses of both families and their one canonical writing. A version 4
address is four decimal octets with dots. A version 6 address is eight groups
in hexadecimal without leading zeros, of which the longest run of two or more
zero groups (the first of several) is left out between two colons; an address
that maps a version 4 one is written with that one at the end.

Key definitions: `Ipv4`, `Ipv6`, `IpAddress`, `Ipv4.text`, `Ipv6.text`,
`Ipv4.parse`, `Ipv6.parse`.
-/
import WorkloadIdentity.Text.Hex

namespace WorkloadIdentity

/-- A version 4 address, by its octets from the left. -/
structure Ipv4 where
  a : UInt8
  b : UInt8
  c : UInt8
  d : UInt8
  deriving DecidableEq, Repr

/-- A version 6 address, by its eight groups from the left. -/
structure Ipv6 where
  groups : List UInt16
  length_groups : groups.length = 8
  deriving DecidableEq, Repr

/-- An address of either family. -/
inductive IpAddress where
  | v4 (address : Ipv4)
  | v6 (address : Ipv6)
  deriving DecidableEq, Repr

/-- A number written in decimal digits. -/
def decimal (n : Nat) : List Char := Nat.toDigits 10 n

namespace Ipv4

/-- Four decimal octets with dots. -/
def text (x : Ipv4) : List Char :=
  decimal x.a.toNat ++ '.' :: decimal x.b.toNat ++ '.' :: decimal x.c.toNat ++
    '.' :: decimal x.d.toNat

/-- A decimal octet: at most 255, at most three digits, no leading zero. -/
def octet? (digits : List Char) : Option UInt8 :=
  if digits.isEmpty || 3 < digits.length || !digits.all Char.isDigit then none
  else if 1 < digits.length && digits.head? == some '0' then none
  else
    let n := digits.foldl (fun n c => n * 10 + (c.toNat - '0'.toNat)) 0
    if n ≤ 255 then some (UInt8.ofNat n) else none

/-- Reads four decimal octets with dots and nothing else. -/
def parse (s : List Char) : Option Ipv4 :=
  match s.splitOn '.' with
  | [a, b, c, d] => do pure ⟨← octet? a, ← octet? b, ← octet? c, ← octet? d⟩
  | _ => none

/-- The address as one number of 32 bits. -/
def ofNat (n : Nat) : Ipv4 :=
  ⟨UInt8.ofNat (n / 16777216), UInt8.ofNat (n / 65536), UInt8.ofNat (n / 256), UInt8.ofNat n⟩

/-- The two groups that hold the address at the end of a version 6 one. -/
def groups (x : Ipv4) : List UInt16 :=
  [UInt16.ofNat (x.a.toNat * 256 + x.b.toNat), UInt16.ofNat (x.c.toNat * 256 + x.d.toNat)]

end Ipv4

namespace Ipv6

/-- A group in hexadecimal, without leading zeros. -/
def groupText (g : UInt16) : List Char := Nat.toDigits 16 g.toNat

/-- Groups with colons between them. -/
def groupsText (groups : List UInt16) : List Char :=
  [':'].intercalate (groups.map groupText)

/-- How many zero groups the list starts with. -/
def zerosAt (groups : List UInt16) : Nat := (groups.takeWhile (· == 0)).length

/-- Where the longest run of zero groups starts and how long it is, the first
one of several; `(0, 0)` if there is no zero group. -/
def longestZeros : List UInt16 → Nat × Nat
  | [] => (0, 0)
  | g :: rest =>
    let here := zerosAt (g :: rest)
    let later := longestZeros rest
    if later.2 ≤ here then (0, here) else (later.1 + 1, later.2)

/-- The version 4 address that the groups map, if they do. -/
def mapped? : List UInt16 → Option Ipv4
  | [0, 0, 0, 0, 0, 0xffff, x, y] =>
    some ⟨UInt8.ofNat (x.toNat / 256), UInt8.ofNat x.toNat,
      UInt8.ofNat (y.toNat / 256), UInt8.ofNat y.toNat⟩
  | _ => none

/-- The canonical writing. -/
def text (x : Ipv6) : List Char :=
  match mapped? x.groups with
  | some v4 => "::ffff:".toList ++ v4.text
  | none =>
    let (start, count) := longestZeros x.groups
    if 1 < count then
      groupsText (x.groups.take start) ++ ':' :: ':' ::
        groupsText (x.groups.drop (start + count))
    else groupsText x.groups

/-- A group is one to four hexadecimal digits. -/
def group? (digits : List Char) : Option UInt16 :=
  if digits.isEmpty || 4 < digits.length then none
  else do
    let values ← digits.mapM Hex.value?
    pure (UInt16.ofNat (values.foldl (· * 16 + ·) 0))

/-- The groups of the pieces between colons; at the end a version 4 address
may stand for two. -/
def groups? (v4AtEnd : Bool) : List (List Char) → Option (List UInt16)
  | [] => some []
  | [last] =>
    match group? last with
    | some g => some [g]
    | none => if v4AtEnd then (Ipv4.parse last).map Ipv4.groups else none
  | piece :: rest => do
    let g ← group? piece
    let gs ← groups? v4AtEnd rest
    pure (g :: gs)

/-- The groups of a text between colons; an empty text has none. -/
def run? (v4AtEnd : Bool) (s : List Char) : Option (List UInt16) :=
  if s.isEmpty then some [] else groups? v4AtEnd (s.splitOn ':')

/-- What stands before and after the first two colons in a row. -/
def splitAtDoubleColon : List Char → Option (List Char × List Char)
  | [] => none
  | c :: rest =>
    if c == ':' && rest.head? == some ':' then some ([], rest.drop 1)
    else (splitAtDoubleColon rest).map fun (before, after) => (c :: before, after)

/-- An address of these groups, if there are eight. -/
def ofGroups? (groups : List UInt16) : Option Ipv6 :=
  if h : groups.length = 8 then some ⟨groups, h⟩ else none

/-- Reads an address: eight groups, or up to seven with two colons where zero
groups are left out. -/
def parse (s : List Char) : Option Ipv6 :=
  match splitAtDoubleColon s with
  | none => do ofGroups? (← run? true s)
  | some (before, after) => do
    let left ← run? false before
    let right ← run? true after
    if left.length + right.length ≤ 7 then
      ofGroups? (left ++ List.replicate (8 - left.length - right.length) 0 ++ right)
    else none

end Ipv6

namespace IpAddress

/-- The canonical writing. -/
def text : IpAddress → List Char
  | v4 x => x.text
  | v6 x => x.text

end IpAddress

end WorkloadIdentity
