/-
# Extensions of certificates

The three extensions that identities need: whether a certificate is a CA, what
its key may be used for, and which names it has. They are read tolerantly:
truth is any octet but zero, and what follows the part that is read does not
count.

Key definitions: `X509.Extension`, `X509.ExtensionKind`, `X509.KeyUsage`,
`X509.GeneralName`, `X509.readBasicConstraints`, `X509.readKeyUsage`,
`X509.readAltNames`.
-/
import WorkloadIdentity.Der.Reader
import WorkloadIdentity.Text.Utf8

namespace WorkloadIdentity
namespace X509

open Der (Reader)

/-- An extension: its object identifier and the content of its value. -/
structure Extension where
  id : Bytes
  value : Bytes
  deriving DecidableEq, Repr

/-- The extensions that are looked at. -/
inductive ExtensionKind where
  | basicConstraints
  | keyUsage
  | subjectAltName
  deriving DecidableEq, Repr

namespace ExtensionKind

/-- The last part of the object identifier. -/
def number : ExtensionKind → Nat
  | basicConstraints => 19
  | keyUsage => 15
  | subjectAltName => 17

/-- The object identifier in DER. -/
def id (kind : ExtensionKind) : Bytes := [0x55, 0x1d, UInt8.ofNat kind.number]

/-- The object identifier in writing. -/
def dotted (kind : ExtensionKind) : String := "2.5.29." ++ toString kind.number

/-- The extension's name. -/
def name : ExtensionKind → String
  | basicConstraints => "BasicConstraints"
  | keyUsage => "KeyUsage"
  | subjectAltName => "SubjectAlternativeName"

end ExtensionKind

/-- An object identifier. -/
def readObjectId : Reader Bytes := Reader.content 6

/-- Is this the content of a bit string, with zeros for the bits that do not
count? -/
def isBitString : Bytes → Bool
  | [] => false
  | [unused] => unused == 0
  | unused :: bits => unused ≤ 7 && (bits.getLastD 0).toNat % Nat.pow 2 unused.toNat == 0

/-- A bit string, without the octet that counts its unused bits. -/
def readBitString : Reader Bytes := do
  let content ← Reader.content 3
  if isBitString content then pure (content.drop 1) else failure

/-- Drops the mark that says whether an extension is critical, if it is
there. -/
def skipCritical : Reader Unit := fun octets =>
  match Reader.element octets with
  | some (e, rest) =>
    if e.tag.number = 1 ∧ e.content.length = 1 then some ((), rest) else some ((), octets)
  | none => some ((), octets)

/-- An extension. -/
def readExtension : Reader Extension := Reader.sequence do
  let id ← readObjectId
  skipCritical
  let value ← Reader.content 4
  pure ⟨id, value⟩

/-! ### Is the certificate a CA? -/

/-- A truth value or a natural number below 2³². -/
inductive Constraint where
  | flag (value : Bool)
  | limit (value : Nat)
  deriving DecidableEq, Repr

/-- The next element, a truth value being of one octet. -/
def readPlainElement : Reader Der.Element := do
  let e ← Reader.element
  if e.tag.cls = .universal ∧ e.tag.number = 1 ∧ e.content.length ≠ 1 then failure else pure e

/-- The truth value or the limit in an element. -/
def Constraint.ofElement? (e : Der.Element) : Option Constraint :=
  if e.tag.cls ≠ .universal then none
  else match e.tag.number, e.content with
    | 1, [b] => some (.flag (b != 0))
    | 2, b :: rest =>
      let n := natOfOctets (b :: rest)
      if b.toNat < 128 ∧ n < Nat.pow 2 32 then some (.limit n) else none
    | _, _ => none

/-- Whether the constraints say that the certificate is a CA. -/
def isCaOf : List Der.Element → Option Bool
  | [] => some false
  | [e] =>
    match Constraint.ofElement? e with
    | some (.flag ca) => some ca
    | some (.limit _) => some false
    | none => none
  | [e, f] =>
    match Constraint.ofElement? e, Constraint.ofElement? f with
    | some (.flag ca), some (.limit _) => some ca
    | _, _ => none
  | _ => none

/-- Reads whether a certificate is a CA. -/
def readBasicConstraints (value : Bytes) : Option Bool := do
  let (e, _) ← Reader.element value
  if e.tag.number = 16 ∧ e.tag.constructed then
    isCaOf (Reader.leading readPlainElement e.content.length e.content)
  else none

/-! ### What may the key be used for? -/

/-- The uses of a key, as the bits of the first octets. -/
structure KeyUsage where
  bits : Bytes
  deriving DecidableEq, Repr

namespace KeyUsage

/-- Is the bit set? Bits are counted from the highest of the first octet. -/
def allows (usage : KeyUsage) (bit : Nat) : Bool :=
  (usage.bits.getD (bit / 8) 0).toNat / Nat.pow 2 (7 - bit % 8) % 2 == 1

def digitalSignature (usage : KeyUsage) : Bool := usage.allows 0
def keyCertSign (usage : KeyUsage) : Bool := usage.allows 5
def crlSign (usage : KeyUsage) : Bool := usage.allows 6

end KeyUsage

/-- Reads the uses of a key. -/
def readKeyUsage (value : Bytes) : Option KeyUsage := (readBitString.run? value).map KeyUsage.mk

/-! ### Which names does the certificate have? -/

/-- A name: a URI, or one of another kind. -/
inductive GeneralName where
  | uri (text : String)
  | other
  deriving DecidableEq, Repr

/-- The name in an element. Names of texts have to be texts, one with a type of
its own has to say which, and a directory's name has to be a sequence. -/
def GeneralName.ofElement? (e : Der.Element) : Option GeneralName :=
  if e.tag.cls ≠ .context then none
  else match e.tag.number with
    | 6 => (Utf8.decode e.content).map .uri
    | 1 | 2 => (Utf8.decode e.content).map fun _ => .other
    | 0 => (readObjectId.run? e.content).map fun _ => .other
    | 4 => ((Reader.sequence (pure ())).runAll? e.content).map fun _ => .other
    | 3 | 5 | 7 | 8 => some .other
    | _ => none

/-- A name. -/
def readGeneralName : Reader GeneralName := do
  let e ← Reader.element
  match GeneralName.ofElement? e with
  | some name => pure name
  | none => failure

/-- All names of a sequence. -/
def readAltNames (value : Bytes) : Option (List GeneralName) := do
  let (e, _) ← Reader.element value
  if e.tag.number = 16 ∧ e.tag.constructed then Reader.all? readGeneralName e.content else none

end X509
end WorkloadIdentity
