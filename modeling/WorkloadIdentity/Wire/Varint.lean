/-
# Numbers in groups of seven bits

A number is written in octets of seven bits each, the lowest first; every octet
but the last has its top bit set. A number has at most sixty-four bits, so at
most ten octets, the tenth holding one bit. A reader takes numbers with more
octets than they need.

Key definitions: `writeVarint`, `readVarint`.
-/
import WorkloadIdentity.Text.Hex

namespace WorkloadIdentity
namespace Wire

/-- Writes a number in the fewest octets. -/
def writeVarint (n : Nat) : Bytes :=
  if n < 128 then [UInt8.ofNat n] else UInt8.ofNat (n % 128 + 128) :: writeVarint (n / 128)
termination_by n
decreasing_by omega

/-- Reads the rest of a number of which `count` more octets may follow. -/
def readGroups : Nat → Bytes → Option (Nat × Bytes)
  | count + 1, b :: rest =>
    if b.toNat < 128 then
      if count = 0 ∧ 2 ≤ b.toNat then none else some (b.toNat, rest)
    else (readGroups count rest).map fun (high, rest) => (b.toNat % 128 + 128 * high, rest)
  | _, _ => none

/-- The number in front, and what follows it. -/
def readVarint (octets : Bytes) : Option (Nat × Bytes) := readGroups 10 octets

end Wire
end WorkloadIdentity
