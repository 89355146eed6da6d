/-
# Certificates

A `Certificate` keeps its DER and the extensions read from it, so that holding
one means that its octets could be read. Reading checks the outer form of every
part and the calendar of the two times, and looks at no signature. Certificates
one after the other are taken apart by `Certificate.readList`.

Key definitions: `Certificate`, `CertificateError`, `Certificate.parse`,
`Certificate.readList`, `Certificate.spiffeId`, `Certificate.signingFlags`.
-/
import WorkloadIdentity.Id.Basic
import WorkloadIdentity.X509.Extension
import WorkloadIdentity.X509.Time

namespace WorkloadIdentity

open Der (Reader)
open X509 (Extension ExtensionKind GeneralName KeyUsage)

/-- Why a certificate, or what it says, cannot be read. -/
inductive CertificateError where
  | missingExtension (kind : ExtensionKind)
  | unparseableExtension (kind : ExtensionKind)
  /-- The octets are no certificate, or one that has an extension twice. -/
  | malformed
  | missingUriName
  | multipleUriNames
  | invalidSpiffeId (cause : IdError)
  | tooMany (most : Nat)
  deriving DecidableEq, Repr

/-- The wording of each cause. -/
def CertificateError.message : CertificateError → String
  | missingExtension kind => "required X.509 extension " ++ kind.dotted ++ " is absent"
  | unparseableExtension kind => "cannot decode the " ++ kind.name ++ " extension"
  | malformed => "invalid DER X.509 certificate"
  | missingUriName => "certificate has no URI SAN"
  | multipleUriNames => "certificate has several URI SANs"
  | invalidSpiffeId cause => "URI SAN is not a SPIFFE ID: " ++ cause.message
  | tooMany most => "SVID chain longer than " ++ toString most ++ " certificates"

/-- A certificate. -/
structure Certificate where
  der : Bytes
  extensions : List Extension
  deriving DecidableEq, Repr

namespace X509

/-! ### The parts of a certificate -/

/-- The version, wrapped under the number 0, if it is there. -/
def skipVersion : Reader Unit := fun octets =>
  match octets, Reader.element octets with
  | [], _ => some ((), [])
  | _, none => none
  | _, some (e, rest) =>
    if e.tag.number ≠ 0 then some ((), octets)
    else if e.tag.cls ≠ .context then none
    else do
      let version ← (Reader.content 2).run? e.content
      let n ← Der.natural? version
      if n < Nat.pow 2 32 then some ((), rest) else none

/-- The serial number, of any octets. -/
def skipSerial : Reader Unit := do
  let e ← Reader.element
  if e.tag.number = 2 then pure () else failure

/-- An algorithm: an object identifier and perhaps parameters. -/
def skipAlgorithm : Reader Unit := Reader.sequence do
  let _ ← readObjectId
  if (← get).isEmpty then pure ()
  else if (Der.readHeader (← get)).isSome then do
    let _ ← Reader.element
  else pure ()

/-- The name of a subject or an issuer; its parts are not looked at. -/
def skipName : Reader Unit := Reader.sequence (pure ())

/-- A time that is tolerated. -/
def skipTime : Reader Unit := do
  let e ← Reader.element
  if CalendarTime.isTolerated e then pure () else failure

/-- The first and the last time. -/
def skipValidity : Reader Unit := Reader.sequence do
  skipTime
  skipTime

/-- An algorithm and a key. -/
def skipPublicKey : Reader Unit := Reader.sequence do
  skipAlgorithm
  let _ ← readBitString

/-- A bit string under a number of the context, if it is there. -/
def skipUniqueId (number : Nat) : Reader Unit := fun octets =>
  match Der.readHeader octets with
  | some ((tag, _), _) =>
    if tag.number ≠ number then some ((), octets)
    else match Reader.element octets with
      | some (e, rest) =>
        if e.tag.cls = .context ∧ ¬ e.tag.constructed ∧ isBitString e.content then some ((), rest)
        else none
      | none => none
  | none => some ((), octets)

/-- The extensions, wrapped under the number 3, to the end, if they are there.
The length of the wrapping does not count. -/
def readExtensions : Reader (List Extension) := fun octets =>
  if octets.isEmpty then some ([], [])
  else match Der.readHeader octets with
    | some ((tag, _), rest) =>
      if tag.number ≠ 3 then none
      else do
        let (e, after) ← Reader.element rest
        if e.tag.number = 16 ∧ e.tag.constructed ∧ after.isEmpty then
          (Reader.all? readExtension e.content).map fun extensions => (extensions, [])
        else none
    | none => none

/-- What is signed: all that a certificate says. -/
def readSigned : Reader (List Extension) := Reader.sequence do
  skipVersion
  skipSerial
  skipAlgorithm
  skipName
  skipValidity
  skipName
  skipPublicKey
  skipUniqueId 1
  skipUniqueId 2
  readExtensions

/-- A certificate: what is signed, the algorithm and the signature. -/
def readCertificate : Reader (List Extension) := Reader.sequence do
  let extensions ← readSigned
  skipAlgorithm
  let _ ← readBitString
  pure extensions

end X509

namespace Certificate

/-- Reads a certificate. All octets are kept, also those after its end. -/
def parse (der : Bytes) : Except CertificateError Certificate :=
  match X509.readCertificate.run? der with
  | some extensions => .ok ⟨der, extensions⟩
  | none => .error .malformed

/-- The certificate in front, with its own octets only, and what follows it. -/
def readFirst (octets : Bytes) : Option (Certificate × Bytes) :=
  (X509.readCertificate octets).map fun (extensions, rest) =>
    (⟨octets.take (octets.length - rest.length), extensions⟩, rest)

/-- Takes certificates apart until nothing is left, with at most `fuel` of
them. If `most` is given, more are refused without reading them. -/
def readListFrom (most : Option Nat) (found : Nat) :
    Nat → Bytes → Except CertificateError (List Certificate)
  | _, [] => .ok []
  | 0, _ => .error .malformed
  | fuel + 1, octets =>
    if most.any (· ≤ found) then .error (.tooMany (most.getD 0))
    else match readFirst octets with
      | none => .error .malformed
      | some (certificate, rest) => do
        let others ← readListFrom most (found + 1) fuel rest
        pure (certificate :: others)

/-- The certificates that some octets are made of, one after the other. -/
def readList (most : Option Nat) (octets : Bytes) : Except CertificateError (List Certificate) :=
  readListFrom most 0 octets.length octets

/-- The extension of a kind, if there is one. There must not be two. -/
def find? (certificate : Certificate) (kind : ExtensionKind) :
    Except CertificateError (Option Extension) :=
  match certificate.extensions.filter (·.id = kind.id) with
  | [] => .ok none
  | [extension] => .ok (some extension)
  | _ => .error .malformed

/-- What the extension of a kind says, if there is one. -/
def read? {α : Type} (certificate : Certificate) (kind : ExtensionKind) (read : Bytes → Option α) :
    Except CertificateError (Option α) := do
  match ← certificate.find? kind with
  | none => pure none
  | some extension =>
    match read extension.value with
    | some a => pure (some a)
    | none => throw (.unparseableExtension kind)

/-- What the extension of a kind says. -/
def require {α : Type} (certificate : Certificate) (kind : ExtensionKind)
    (read : Bytes → Option α) : Except CertificateError α := do
  match ← certificate.read? kind read with
  | some a => pure a
  | none => throw (.missingExtension kind)

/-- The URIs among names. -/
def urisOf (names : List GeneralName) : List String :=
  names.filterMap fun
    | .uri text => some text
    | .other => none

/-- The identity: what the only URI among the alternative names says. -/
def spiffeId (certificate : Certificate) : Except CertificateError SpiffeId := do
  match urisOf ((← certificate.read? .subjectAltName X509.readAltNames).getD []) with
  | [] => throw .missingUriName
  | [uri] => (SpiffeId.parse uri).mapError .invalidSpiffeId
  | _ => throw .multipleUriNames

/-- What a certificate may do as a signer of others. -/
structure SigningFlags where
  ca : Bool
  keyCertSign : Bool
  crlSign : Bool
  deriving DecidableEq, Repr

/-- The flags; an absent extension grants nothing. -/
def signingFlags (certificate : Certificate) : Except CertificateError SigningFlags := do
  let ca ← certificate.read? .basicConstraints X509.readBasicConstraints
  let usage ← certificate.read? .keyUsage X509.readKeyUsage
  pure ⟨ca.getD false, usage.any KeyUsage.keyCertSign, usage.any KeyUsage.crlSign⟩

/-- Is the certificate a CA? It has to say. -/
def isCa (certificate : Certificate) : Except CertificateError Bool :=
  certificate.require .basicConstraints X509.readBasicConstraints

/-- What the key may be used for. The certificate has to say. -/
def keyUsage (certificate : Certificate) : Except CertificateError KeyUsage :=
  certificate.require .keyUsage X509.readKeyUsage

end Certificate
end WorkloadIdentity
