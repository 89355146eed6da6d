/-
# Private keys

A private key is a sequence of a version, the algorithm and octets, in strict
DER: version 0 without and version 1 with a public key after it. Attributes may
stand in between and wrapped elements after all. The key itself is not looked
at.

Key definitions: `PrivateKey`, `PrivateKeyError`, `PrivateKey.parse`.
-/
import WorkloadIdentity.Der.Reader

namespace WorkloadIdentity

open Der (Reader Tag)

/-- Why octets are no private key. -/
inductive PrivateKeyError where
  | malformed
  deriving DecidableEq, Repr

/-- The wording of the cause. -/
def PrivateKeyError.message : PrivateKeyError → String
  | malformed => "invalid PKCS#8 private key"

/-- A private key. -/
structure PrivateKey where
  der : Bytes
  deriving DecidableEq, Repr

namespace PrivateKey

/-- The universal numbers of elements without and with elements inside. -/
def isKnown (tag : Tag) : Bool :=
  match tag.cls, tag.constructed with
  | .universal, false =>
    [1, 2, 3, 4, 5, 6, 9, 10, 12, 18, 19, 20, 21, 22, 23, 24, 26, 30].contains tag.number
  | .universal, true => tag.number == 16 || tag.number == 17
  | _, _ => true

/-- The next element. -/
def element : Reader Der.Element := fun octets =>
  match Der.Element.readStrict octets with
  | some (e, rest) => if isKnown e.tag then some (e, rest) else none
  | none => none

/-- The content of the next element, which has the tag. -/
def expect (tag : Tag) : Reader Bytes := do
  let e ← element
  if e.tag = tag then pure e.content else failure

/-- The parts of an object identifier after the first: groups of seven bits, of
which the fifth of a part and later ones have few bits left. -/
def hasParts (inPart : Nat) : Bytes → Bool
  | [] => inPart == 0
  | b :: rest =>
    let inPart := inPart + 1
    if 4 < inPart ∧ 16 ≤ b.toNat then false
    else hasParts (if b.toNat < 128 then 0 else inPart) rest

/-- Is this an object identifier of 3 to 39 octets? -/
def isObjectId : Bytes → Bool
  | [] => false
  | first :: rest => first.toNat < 120 && 2 ≤ rest.length && rest.length ≤ 38 && hasParts 0 rest

/-- An object identifier and perhaps one element of parameters. -/
def isAlgorithm (content : Bytes) : Bool :=
  let reader : Reader Unit := do
    let id ← expect .objectId
    if isObjectId id then
      if ← Reader.atEnd then pure ()
      else do
        let _ ← element
    else failure
  (reader.runAll? content).isSome

/-- The element under a number of the context, past those under smaller ones,
if it is there; the count bounds how many are passed. -/
def contextElement (number : Nat) : Nat → Reader (Option Der.Element)
  | 0 => pure none
  | count + 1 => fun octets =>
    match octets with
    | [] => some (none, [])
    | first :: _ =>
      let tag := Tag.ofOctet first
      if tag.number = 31 ∨ ¬ isKnown tag then none
      else if tag.cls ≠ .context ∨ number < tag.number then some (none, octets)
      else match element octets with
        | some (e, rest) =>
          if tag.number = number then some (some e, rest) else contextElement number count rest
        | none => none

/-- Is the element the bit string of a public key, of whole octets? -/
def isPublicKey (e : Der.Element) : Bool :=
  !e.tag.constructed && e.content.head? == some 0

/-- Wrapped elements to the end, at most `count`. -/
def skipWrapped : Nat → Reader Unit
  | 0 => do if ← Reader.atEnd then pure () else failure
  | count + 1 => do
    if ← Reader.atEnd then pure ()
    else
      let e ← element
      if e.tag.cls = .context ∧ e.tag.constructed ∧ (element.runAll? e.content).isSome then
        skipWrapped count
      else failure

/-- The content of a private key. -/
def readContent (size : Nat) : Reader Unit := do
  let version ← expect .integer
  if version = [0] ∨ version = [1] then
    let algorithm ← expect .sequence
    let _ ← expect .octetString
    let publicKey ← contextElement 1 size
    if isAlgorithm algorithm ∧ publicKey.all isPublicKey ∧ (publicKey.isSome ↔ version = [1]) then
      skipWrapped size
    else failure
  else failure

/-- Is this a private key? -/
def isPrivateKey (der : Bytes) : Bool :=
  match (expect .sequence).runAll? der with
  | some content => ((readContent content.length).runAll? content).isSome
  | none => false

/-- Reads a private key. -/
def parse (der : Bytes) : Except PrivateKeyError PrivateKey :=
  if isPrivateKey der then .ok ⟨der⟩ else .error .malformed

end PrivateKey
end WorkloadIdentity
