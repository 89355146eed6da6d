/-
# Elements of DER

An element is a tag, a length and that many octets of content. `Element.read`
takes one from the front of some octets. It allows tags of several octets and
lengths with more octets than they need, but no length left open.
`Element.readStrict` allows the one shortest writing only, with a tag of one
octet and a length of at most four.

Key definitions: `Der.Tag`, `Der.Element`, `Der.readHeader`,
`Der.Element.read`, `Der.Element.readStrict`.
-/
import WorkloadIdentity.Number.Octets

namespace WorkloadIdentity
namespace Der

/-- Where the meaning of a tag's number is laid down. -/
inductive TagClass where
  | universal
  | application
  | context
  | priv
  deriving DecidableEq, Repr

/-- What kind of content an element has. -/
structure Tag where
  cls : TagClass
  /-- Is the content made of elements? -/
  constructed : Bool
  number : Nat
  deriving DecidableEq, Repr

namespace Tag

def boolean : Tag := ⟨.universal, false, 1⟩
def integer : Tag := ⟨.universal, false, 2⟩
def bitString : Tag := ⟨.universal, false, 3⟩
def octetString : Tag := ⟨.universal, false, 4⟩
def null : Tag := ⟨.universal, false, 5⟩
def objectId : Tag := ⟨.universal, false, 6⟩
def utcTime : Tag := ⟨.universal, false, 23⟩
def generalizedTime : Tag := ⟨.universal, false, 24⟩
def sequence : Tag := ⟨.universal, true, 16⟩

/-- The tag of a part that the context numbers. -/
def part (number : Nat) : Tag := ⟨.context, false, number⟩

/-- The tag of an element that a context wraps under a number. -/
def wrapped (number : Nat) : Tag := ⟨.context, true, number⟩

/-- The class in the first two bits of a tag. -/
def classOf (first : UInt8) : TagClass :=
  match first.toNat / 64 with
  | 0 => .universal
  | 1 => .application
  | 2 => .context
  | _ => .priv

/-- The tag in one octet. -/
def ofOctet (first : UInt8) : Tag :=
  ⟨classOf first, first.toNat / 32 % 2 == 1, first.toNat % 32⟩

end Tag

/-- A tag and the octets under it. -/
structure Element where
  tag : Tag
  content : Bytes
  deriving DecidableEq, Repr

/-- A number in groups of seven bits, of which at most `count` follow; the
bits above thirty-two are lost. -/
def readNumber (acc : Nat) : Nat → Bytes → Option (Nat × Bytes)
  | count + 1, b :: rest =>
    let acc := (acc * 128 + b.toNat % 128) % Nat.pow 2 32
    if b.toNat < 128 then some (acc, rest) else readNumber acc count rest
  | _, _ => none

/-- The tag in front; the number 31 stands for one in further octets. -/
def readTag : Bytes → Option (Tag × Bytes)
  | [] => none
  | first :: rest =>
    let tag := Tag.ofOctet first
    if tag.number = 31 then
      (readNumber 0 5 rest).map fun (number, rest) => ({ tag with number }, rest)
    else some (tag, rest)

/-- The length in front: one octet, or the count of the octets that hold it. -/
def readLength : Bytes → Option (Nat × Bytes)
  | [] => none
  | first :: rest =>
    let n := first.toNat
    if n < 128 then some (n, rest)
    else
      let count := n - 128
      let size := natOfOctets (rest.take count)
      if count = 0 ∨ count = 127 ∨ rest.length < count ∨ Nat.pow 2 64 ≤ size then none
      else some (size, rest.drop count)

/-- The length in front, in the fewest octets and at most four. -/
def readShortestLength : Bytes → Option (Nat × Bytes)
  | [] => none
  | first :: rest =>
    let n := first.toNat
    if n < 128 then some (n, rest)
    else
      let count := n - 128
      let size := natOfOctets (rest.take count)
      if count = 0 ∨ 4 < count ∨ rest.length < count ∨ size < 128 ∨
          size < Nat.pow 256 (count - 1) then none
      else some (size, rest.drop count)

/-- The tag and the length in front. -/
def readHeader (octets : Bytes) : Option ((Tag × Nat) × Bytes) := do
  let (tag, rest) ← readTag octets
  let (size, rest) ← readLength rest
  pure ((tag, size), rest)

namespace Element

/-- The element of a tag whose content of some length is in front. -/
def take (tag : Tag) (size : Nat) (octets : Bytes) : Option (Element × Bytes) :=
  if size ≤ octets.length then some (⟨tag, octets.take size⟩, octets.drop size) else none

/-- The element in front, and what follows it. -/
def read (octets : Bytes) : Option (Element × Bytes) := do
  let ((tag, size), rest) ← readHeader octets
  take tag size rest

/-- The element in front, in its shortest writing, and what follows it. -/
def readStrict : Bytes → Option (Element × Bytes)
  | [] => none
  | first :: rest => do
    let tag := Tag.ofOctet first
    if tag.number = 31 then none
    else
      let (size, rest) ← readShortestLength rest
      take tag size rest

end Element
end Der
end WorkloadIdentity
