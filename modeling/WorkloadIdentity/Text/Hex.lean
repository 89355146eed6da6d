/-
# Octets in hexadecimal

Octet strings are lists of `UInt8`, called `Bytes` here, and are written as two
lower case hexadecimal digits an octet.

Key definitions: `Bytes`, `Hex.encode`, `Hex.decode`.
-/

namespace WorkloadIdentity

/-- A string of octets. -/
abbrev Bytes := List UInt8

namespace Hex

/-- The digits in order. -/
def lowerDigits : List Char := "0123456789abcdef".toList

/-- The digits in order, letters in upper case. -/
def upperDigits : List Char := "0123456789ABCDEF".toList

/-- The value of a hexadecimal digit of either case. -/
def value? (c : Char) : Option Nat :=
  if c.isDigit then some (c.toNat - '0'.toNat)
  else if 'a' ≤ c ∧ c ≤ 'f' then some (c.toNat - 'a'.toNat + 10)
  else if 'A' ≤ c ∧ c ≤ 'F' then some (c.toNat - 'A'.toNat + 10)
  else none

/-- The two digits of an octet. -/
def octet (digits : List Char) (b : UInt8) : List Char :=
  [digits.getD (b.toNat / 16) '0', digits.getD (b.toNat % 16) '0']

/-- Writes octets in lower case. -/
def encode (bytes : Bytes) : String :=
  String.ofList (bytes.flatMap (octet lowerDigits))

/-- Reads pairs of digits, putting the octets read so far in front. -/
def decodeOnto : Bytes → List Char → Option Bytes
  | read, [] => some read.reverse
  | read, a :: b :: rest => do
    let high ← value? a
    let low ← value? b
    decodeOnto (UInt8.ofNat (high * 16 + low) :: read) rest
  | _, [_] => none

/-- Reads an even number of digits of either case. -/
def decode (s : String) : Option Bytes := decodeOnto [] s.toList

end Hex

end WorkloadIdentity
