/-
# Signatures in a path

Which signatures can be verified: each kind by the algorithm that a certificate
names and the algorithm of the issuer's key, both octet by octet. ECDSA is on
two curves and over two hashes, RSA over three hashes, in fixed padding (whose
parameters may be left out) and in probabilistic padding with a salt as long as
the hash; signatures on the Edwards curve have no parameters.

Key definitions: `Path.SignatureKind`, `Path.signatureKinds`,
`Path.SignedData.verify`.
-/
import WorkloadIdentity.Signature.Ecdsa
import WorkloadIdentity.Signature.Edwards
import WorkloadIdentity.Signature.Rsa
import WorkloadIdentity.X509.Path.Certificate

namespace WorkloadIdentity
namespace Path

open Der (Reader)

/-- How a signature is made. -/
inductive SignatureScheme where
  | ecdsa (curve : Curve) (hash : Hash)
  | edwards
  | rsaFixed (hash : Hash)
  | rsaSalted (hash : Hash)

/-- A scheme under the contents of the algorithms of signature and key. -/
structure SignatureKind where
  algorithm : Bytes
  keyAlgorithm : Bytes
  scheme : SignatureScheme

/-- The object identifiers of ECDSA with a hash. -/
def ecdsaWith : Hash → Bytes
  | .sha256 => [0x06, 0x08, 0x2a, 0x86, 0x48, 0xce, 0x3d, 0x04, 0x03, 0x02]
  | .sha384 => [0x06, 0x08, 0x2a, 0x86, 0x48, 0xce, 0x3d, 0x04, 0x03, 0x03]
  | .sha512 => [0x06, 0x08, 0x2a, 0x86, 0x48, 0xce, 0x3d, 0x04, 0x03, 0x04]

/-- A key on P-256. -/
def keyOnP256 : Bytes :=
  [0x06, 0x07, 0x2a, 0x86, 0x48, 0xce, 0x3d, 0x02, 0x01, 0x06, 0x08, 0x2a, 0x86, 0x48, 0xce, 0x3d,
    0x03, 0x01, 0x07]

/-- A key on P-384. -/
def keyOnP384 : Bytes :=
  [0x06, 0x07, 0x2a, 0x86, 0x48, 0xce, 0x3d, 0x02, 0x01, 0x06, 0x05, 0x2b, 0x81, 0x04, 0x00, 0x22]

/-- A key or a signature on the Edwards curve. -/
def edwards25519 : Bytes := [0x06, 0x03, 0x2b, 0x65, 0x70]

/-- The object identifier below that of RSA. -/
def rsaId (last : UInt8) : Bytes :=
  [0x06, 0x09, 0x2a, 0x86, 0x48, 0x86, 0xf7, 0x0d, 0x01, 0x01, last]

/-- An empty parameter. -/
def nothing : Bytes := [0x05, 0x00]

/-- The last part of the identifier of a hash, and of RSA in fixed padding with
it. -/
def hashNumbers : Hash → UInt8 × UInt8
  | .sha256 => (1, 0x0b)
  | .sha384 => (2, 0x0c)
  | .sha512 => (3, 0x0d)

/-- A hash as an algorithm. -/
def hashAlgorithm (hash : Hash) : Bytes :=
  [0x30, 0x0d, 0x06, 0x09, 0x60, 0x86, 0x48, 0x01, 0x65, 0x03, 0x04, 0x02, (hashNumbers hash).1] ++
    nothing

/-- RSA in probabilistic padding: the hash, the mask and the length of the
salt. -/
def saltedAlgorithm (hash : Hash) : Bytes :=
  rsaId 0x0a ++ [0x30, 0x34, 0xa0, 0x0f] ++ hashAlgorithm hash ++
    [0xa1, 0x1c, 0x30, 0x1a] ++ rsaId 0x08 ++ hashAlgorithm hash ++
    [0xa2, 0x03, 0x02, 0x01, UInt8.ofNat hash.size]

/-- All hashes. -/
def hashes : List Hash := [.sha256, .sha384, .sha512]

/-- What can be verified. -/
def signatureKinds : List SignatureKind :=
  ([.sha256, .sha384].flatMap fun hash =>
    [⟨ecdsaWith hash, keyOnP256, .ecdsa .p256 hash⟩,
      ⟨ecdsaWith hash, keyOnP384, .ecdsa .p384 hash⟩]) ++
  [⟨edwards25519, edwards25519, .edwards⟩] ++
  hashes.flatMap fun hash =>
    let fixed := rsaId (hashNumbers hash).2
    let key := rsaId 0x01 ++ nothing
    [⟨saltedAlgorithm hash, key, .rsaSalted hash⟩, ⟨fixed ++ nothing, key, .rsaFixed hash⟩,
      ⟨fixed, key, .rsaFixed hash⟩]

/-- The octets of a positive number without zeros in front. -/
def readPositive : Reader Bytes := do
  let octets ← expect .integer
  match Der.natural? octets with
  | some _ => pure (if octets.head? = some 0 ∧ 1 < octets.length then octets.drop 1 else octets)
  | none => failure

/-- Two numbers in a sequence. -/
def pair? (der : Bytes) : Option (Bytes × Bytes) :=
  (inside .sequence do pure (← readPositive, ← readPositive)).runAll? der

/-- Is the signature that of the message under the key? -/
def SignatureScheme.verify (scheme : SignatureScheme) (key message signature : Bytes) : Bool :=
  match scheme with
  | .ecdsa curve hash =>
    match EcKey.ofOctets? curve key, pair? signature with
    | some key, some (r, s) => key.verify hash message (natOfOctets r) (natOfOctets s)
    | _, _ => false
  | .edwards => Edwards.verify key message signature
  | .rsaFixed hash => (rsaKey? key).any (·.verifyFixed hash message signature)
  | .rsaSalted hash => (rsaKey? key).any (·.verifySalted hash message signature)
where
  rsaKey? (der : Bytes) : Option RsaKey := do
    let (modulus, exponent) ← pair? der
    RsaKey.ofOctets? modulus exponent

/-- The algorithm of a key, and the key. -/
def readPublicKey : Reader (Bytes × Bytes) := do
  let algorithm ← expect .sequence
  let key ← octetString
  pure (algorithm, key)

/-- Is this signed with the key? -/
def SignedData.verify (signed : SignedData) (publicKey : Bytes) : Bool :=
  match readPublicKey.runAll? publicKey with
  | none => false
  | some (keyAlgorithm, key) =>
    match signatureKinds.find? fun kind =>
      kind.algorithm = signed.algorithm ∧ kind.keyAlgorithm = keyAlgorithm with
    | some kind => kind.scheme.verify key signed.message signed.signature
    | none => false

end Path
end WorkloadIdentity
