/-
# Percent-encoding

Each part of a URL has a set of ASCII characters that are written as percent
signs and octets; characters outside ASCII always are. Reading back gives
octets, since they need not be UTF-8, and leaves a percent sign that no two
digits follow as it is.

Key definitions: `Percent.encode`, `Percent.decode`, `Percent.pathSet`.
-/
import WorkloadIdentity.Text.Utf8

namespace WorkloadIdentity
namespace Percent

/-- Controls, the set that every other one contains. -/
def controlSet (c : Char) : Bool := c.toNat < 0x20 || c.toNat == 0x7f

/-- What a query escapes. -/
def querySet (c : Char) : Bool := controlSet c || " \"#<>".toList.contains c

/-- What the query of a special scheme escapes. -/
def specialQuerySet (c : Char) : Bool := querySet c || c == '\''

/-- What a fragment escapes. -/
def fragmentSet (c : Char) : Bool := controlSet c || " \"<>`".toList.contains c

/-- What a path escapes. -/
def pathSet (c : Char) : Bool := fragmentSet c || "#?\x7b\x7d".toList.contains c

/-- What a user name and a password escape. -/
def userSet (c : Char) : Bool := pathSet c || "/:;=@[\\]^|".toList.contains c

/-- An octet after a percent sign. -/
def octet (b : UInt8) : List Char := '%' :: Hex.octet Hex.upperDigits b

/-- One character, escaped if it is in the set or outside ASCII. -/
def encodeChar (set : Char → Bool) (c : Char) : List Char :=
  if c.toNat < 0x80 && !set c then [c] else (Utf8.encodeChar c).flatMap octet

/-- A text with the characters of the set escaped. -/
def encode (set : Char → Bool) (s : List Char) : List Char := s.flatMap (encodeChar set)

/-- The octets of a text, escaped ones read. -/
def decode : List Char → Bytes
  | '%' :: a :: b :: rest =>
    match Hex.value? a, Hex.value? b with
    | some high, some low => UInt8.ofNat (high * 16 + low) :: decode rest
    | _, _ => UInt8.ofNat '%'.toNat :: decode (a :: b :: rest)
  | c :: rest => Utf8.encodeChar c ++ decode rest
  | [] => []

end Percent
end WorkloadIdentity
