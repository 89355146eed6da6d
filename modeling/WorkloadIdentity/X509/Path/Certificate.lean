/-
# Certificates in a path

What the search for a path reads in a certificate, in strict DER: who issued it
to whom, when it holds, its key, what is signed, and the extensions that bear
on paths. No extension may come twice, and one that is critical has to be known.
An anchor is read from a certificate whose unknown extensions do not matter, or
from one of version 1, and keeps its subject, its key and its constraints on
names.

Key definitions: `Path.Node`, `Path.Anchor`, `Path.Node.parse`,
`Path.Anchor.parse`.
-/
import WorkloadIdentity.Der.Reader

namespace WorkloadIdentity
namespace Path

open Der (Reader Tag)

/-! ### Strict reading -/

/-- The next element, of less than 65535 octets. -/
def element : Reader Der.Element := fun octets =>
  match Der.Element.readStrict octets with
  | some (e, rest) => if e.content.length < 65535 then some (e, rest) else none
  | none => none

/-- The content of the next element, which has the tag. -/
def expect (tag : Tag) : Reader Bytes := do
  let e ← element
  if e.tag = tag then pure e.content else failure

/-- What a reader makes of all of the content of the next element, which has
the tag. -/
def inside {α : Type} (tag : Tag) (inner : Reader α) : Reader α := do
  let content ← expect tag
  match inner.runAll? content with
  | some a => pure a
  | none => failure

/-- A bit string of whole octets. -/
def octetString : Reader Bytes := do
  match ← expect .bitString with
  | unused :: octets => if unused = 0 then pure octets else failure
  | [] => failure

/-- A truth value, false if it is not there. -/
def flag : Reader Bool := fun octets =>
  if octets.head? = some 1 then
    match expect .boolean octets with
    | some ([0xff], rest) => some (true, rest)
    | some ([0x00], rest) => some (false, rest)
    | _ => none
  else some (false, octets)

/-! ### Certificates -/

/-- What is signed, in all its octets, and how. -/
structure SignedData where
  message : Bytes
  algorithm : Bytes
  signature : Bytes
  deriving DecidableEq, Repr

/-- An extension. -/
structure Extension where
  id : Bytes
  critical : Bool
  value : Bytes
  deriving DecidableEq, Repr

/-- A certificate that may be part of a path. -/
structure Node where
  signed : SignedData
  issuer : Bytes
  validity : Bytes
  subject : Bytes
  publicKey : Bytes
  extensions : List Extension
  deriving DecidableEq, Repr

/-- A certificate at which paths end. -/
structure Anchor where
  subject : Bytes
  publicKey : Bytes
  nameConstraints : Option Bytes
  deriving DecidableEq, Repr

/-- What a reader gives, and the octets that it has read. -/
def withOctets {α : Type} (reader : Reader α) : Reader (α × Bytes) := fun octets => do
  let (a, rest) ← reader octets
  pure ((a, octets.take (octets.length - rest.length)), rest)

/-- The outer parts of a certificate: the content of what is signed, and what it
takes to verify it. -/
def outer? (der : Bytes) : Option (Bytes × SignedData) :=
  let reader : Reader (Bytes × SignedData) := do
    let (content, message) ← withOctets (expect .sequence)
    let algorithm ← expect .sequence
    let signature ← octetString
    pure (content, ⟨message, algorithm, signature⟩)
  match Der.Element.readStrict der with
  | some (e, []) => if e.tag = .sequence then reader.runAll? e.content else none
  | _ => none

namespace Extension

/-- The numbers of the extensions that bear on paths, below 2.5.29: uses of the
key, alternative names, basic constraints, constraints on names, distribution
points and extended uses of the key. -/
def knownNumbers : List Nat := [15, 17, 19, 30, 31, 37]

/-- The number of a known extension. -/
def number? (extension : Extension) : Option Nat :=
  match extension.id with
  | [0x55, 0x1d, n] => if knownNumbers.contains n.toNat then some n.toNat else none
  | _ => none

/-- An extension. -/
def read : Reader Extension := inside .sequence do
  let id ← expect .objectId
  let critical ← flag
  let value ← expect .octetString
  pure ⟨id, critical, value⟩

/-- The content of the sequence in the value. -/
def sequence? (extension : Extension) : Option Bytes := (expect .sequence).runAll? extension.value

/-- Known extensions but the uses of the key hold a sequence; unknown ones are
not critical. -/
def isAcceptable (extension : Extension) : Bool :=
  match extension.number? with
  | some 15 => true
  | some _ => extension.sequence?.isSome
  | none => !extension.critical

/-- An anchor's unknown extensions may be critical. -/
def isAcceptableInAnchor (extension : Extension) : Bool :=
  extension.number?.isNone || extension.isAcceptable

end Extension

/-- The extensions to the end, if any: at least one, and no known one twice. -/
def readExtensions (accept : Extension → Bool) : Reader (List Extension) := do
  if ← Reader.atEnd then pure []
  else
    let content ← inside (.wrapped 3) (expect .sequence)
    match Reader.all? Extension.read content with
    | some extensions =>
      if extensions ≠ [] ∧ extensions.all accept ∧
          (extensions.filterMap Extension.number?).Nodup then
        pure extensions
      else failure
    | none => failure

/-- The version of certificates with extensions, wrapped under the number 0. -/
def readVersion : Reader Unit := do
  let version ← inside (.wrapped 0) (expect .integer)
  if version = [2] then pure () else failure

/-- The parts of what is signed after the version. -/
def readBody (accept : Extension → Bool) (signed : SignedData) : Reader Node := do
  let _ ← expect .integer
  let algorithm ← expect .sequence
  if algorithm ≠ signed.algorithm then failure
  else
    let issuer ← expect .sequence
    let validity ← expect .sequence
    let subject ← expect .sequence
    let publicKey ← expect .sequence
    let extensions ← readExtensions accept
    pure ⟨signed, issuer, validity, subject, publicKey, extensions⟩

namespace Node

/-- Reads a certificate. -/
def parse (der : Bytes) : Option Node := do
  let (content, signed) ← outer? der
  let reader : Reader Node := do
    readVersion
    readBody Extension.isAcceptable signed
  reader.runAll? content

/-- The content of the sequence in a known extension. -/
def extension? (node : Node) (number : Nat) : Option Bytes :=
  (node.extensions.find? (·.number? = some number)).bind Extension.sequence?

def altNames (node : Node) : Option Bytes := node.extension? 17
def basicConstraints (node : Node) : Option Bytes := node.extension? 19
def nameConstraints (node : Node) : Option Bytes := node.extension? 30
def extendedUses (node : Node) : Option Bytes := node.extension? 37

end Node

namespace Anchor

/-- The anchor that a certificate of version 1 is: it has no version and no
extensions. -/
def readFirstVersion : Reader Anchor := do
  let _ ← expect .integer
  let _ ← expect .sequence
  let _ ← expect .sequence
  let _ ← expect .sequence
  let subject ← expect .sequence
  let publicKey ← expect .sequence
  pure ⟨subject, publicKey, none⟩

/-- Reads an anchor. -/
def parse (der : Bytes) : Option Anchor := do
  let (content, signed) ← outer? der
  match readVersion content with
  | some (_, rest) =>
    let node ← (readBody Extension.isAcceptableInAnchor signed).runAll? rest
    pure ⟨node.subject, node.publicKey, node.nameConstraints⟩
  | none => readFirstVersion.runAll? content

end Anchor
end Path
end WorkloadIdentity
