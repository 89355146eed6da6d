/-
# Naturals as octets

Naturals in octets with the most significant first, and powers modulo a number.

Key definitions: `natOfOctets`, `octetsOfNat`, `powMod`.
-/
import WorkloadIdentity.Text.Hex

namespace WorkloadIdentity

/-- The natural that octets stand for. -/
def natOfOctets (octets : Bytes) : Nat := octets.foldl (fun n b => n * 256 + b.toNat) 0

/-- The last `size` octets of a natural. -/
def octetsOfNat (size n : Nat) : Bytes :=
  (List.range size).map fun i => UInt8.ofNat (n / Nat.pow 256 (size - 1 - i))

/-- How many bits a natural has. -/
def bitLength (n : Nat) : Nat := if n = 0 then 0 else n.log2 + 1

/-- `b ^ e` modulo `m`, times `acc`. -/
def powModFrom (m b e acc : Nat) : Nat :=
  if _h : e = 0 then acc % m
  else powModFrom m (b * b % m) (e / 2) (if e % 2 = 1 then acc * b % m else acc)
termination_by e
decreasing_by omega

/-- `b ^ e` modulo `m`. -/
def powMod (m b e : Nat) : Nat := powModFrom m (b % m) e 1

end WorkloadIdentity
