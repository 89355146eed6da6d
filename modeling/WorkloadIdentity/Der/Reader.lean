/-
# Reading elements one after the other

A `Reader` takes what it reads from the front of some octets and fails where
they are not as expected. The readers here are tolerant: they look at a tag's
number and not at its class, and what follows in a container after the parts
that are read is left out of account.

Key definitions: `Der.Reader`, `Der.Reader.sequence`, `Der.Reader.content`,
`Der.Reader.atEnd`, `Der.natural?`.
-/
import WorkloadIdentity.Der.Element

namespace WorkloadIdentity
namespace Der

/-- Reads from the front of octets. -/
abbrev Reader (α : Type) := StateT Bytes Option α

/-- The natural number that the content of an integer stands for, if it is not
negative and has no octet too many. -/
def natural? : Bytes → Option Nat
  | [] => none
  | [b] => if b.toNat < 128 then some b.toNat else none
  | b :: c :: rest =>
    if b = 0 then if c.toNat < 128 then none else some (natOfOctets (c :: rest))
    else if b.toNat < 128 then some (natOfOctets (b :: c :: rest)) else none

namespace Reader

variable {α : Type}

/-- What a reader makes of octets, whatever follows what it has read. -/
def run? (reader : Reader α) (octets : Bytes) : Option α := (reader octets).map (·.1)

/-- What a reader makes of octets that it reads to their end. -/
def runAll? (reader : Reader α) (octets : Bytes) : Option α :=
  match reader octets with
  | some (a, []) => some a
  | _ => none

/-- Is nothing left? -/
def atEnd : Reader Bool := fun octets => some (octets.isEmpty, octets)

/-- The next element. -/
def element : Reader Element := Element.read

/-- The content of the next element, which holds no elements and has a tag of
the number. -/
def content (number : Nat) : Reader Bytes := do
  let e ← element
  if e.tag.number = number ∧ ¬ e.tag.constructed then pure e.content else failure

/-- What a reader makes of the content of the next element, which holds
elements and has a tag of the number. -/
def container (number : Nat) (inner : Reader α) : Reader α := do
  let e ← element
  if e.tag.number = number ∧ e.tag.constructed then inner.run? e.content else failure

/-- What a reader makes of a sequence. -/
def sequence (inner : Reader α) : Reader α := container 16 inner

/-- Reads items until nothing is left, at most `count`. -/
def items (item : Reader α) : Nat → Reader (List α)
  | 0 => do if ← atEnd then pure [] else failure
  | count + 1 => do
    if ← atEnd then pure []
    else
      let a ← item
      let rest ← items item count
      pure (a :: rest)

/-- All items of some octets. -/
def all? (item : Reader α) (octets : Bytes) : Option (List α) :=
  (items item octets.length).run? octets

/-- The items in front that can be read, at most `count`. -/
def leading (item : Reader α) : Nat → Bytes → List α
  | 0, _ => []
  | count + 1, octets =>
    match item octets with
    | some (a, rest) => a :: leading item count rest
    | none => []

end Reader
end Der
end WorkloadIdentity
