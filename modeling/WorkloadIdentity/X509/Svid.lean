/-
# X.509 identities

An `X509Svid` is a leaf certificate with the certificates that follow it in its
chain, the leaf's private key, the identity that the leaf names, and a hint. The
leaf has to sign and must not act as a CA; every other certificate of the chain
has to be a CA that signs certificates.

Key definitions: `X509Svid`, `X509SvidError`, `X509Svid.parse`,
`X509Svid.chain`, `checkLeaf`, `checkSigners`.
-/
import WorkloadIdentity.X509.Certificate
import WorkloadIdentity.X509.PrivateKey

namespace WorkloadIdentity

/-- Why a chain and a key are no identity. -/
inductive X509SvidError where
  | emptyChain
  | leafIsCa
  | leafSignsLists
  | leafSignsCertificates
  | leafDoesNotSign
  | signerIsNoCa
  | signerDoesNotSign
  | certificate (cause : CertificateError)
  | privateKey (cause : PrivateKeyError)
  deriving DecidableEq, Repr

/-- The wording of each cause. -/
def X509SvidError.message : X509SvidError → String
  | emptyChain => "certificate chain is empty"
  | leafIsCa => "leaf certificate is a CA"
  | leafSignsLists => "leaf certificate has the cRLSign key usage"
  | leafSignsCertificates => "leaf certificate has the keyCertSign key usage"
  | leafDoesNotSign => "leaf certificate lacks the digitalSignature key usage"
  | signerIsNoCa => "intermediate certificate is not a CA"
  | signerDoesNotSign => "intermediate certificate lacks the keyCertSign key usage"
  | certificate cause => cause.message
  | privateKey cause => cause.message

/-- An identity with its chain and key. -/
structure X509Svid where
  spiffeId : SpiffeId
  leaf : Certificate
  /-- The certificates after the leaf, in order. -/
  intermediates : List Certificate
  privateKey : PrivateKey
  /-- What the Workload API says the identity is for. -/
  hint : Option String
  deriving DecidableEq, Repr

/-- The most certificates of a chain. -/
def maxChainLength : Nat := 16

/-- The identity of a leaf that signs and is no CA. The key's uses are looked
at first, then the constraints, then the names. -/
def checkLeaf (leaf : Certificate) : Except X509SvidError SpiffeId := do
  let usage ← leaf.keyUsage.mapError .certificate
  if !usage.digitalSignature then throw .leafDoesNotSign
  if usage.crlSign then throw .leafSignsLists
  if usage.keyCertSign then throw .leafSignsCertificates
  if ← leaf.isCa.mapError .certificate then throw .leafIsCa
  leaf.spiffeId.mapError .certificate

/-- Is the certificate a CA that signs certificates? -/
def checkSigner (signer : Certificate) : Except X509SvidError Unit := do
  if !(← signer.isCa.mapError .certificate) then throw .signerIsNoCa
  if !(← signer.keyUsage.mapError .certificate).keyCertSign then throw .signerDoesNotSign

/-- Is every certificate a CA that signs certificates? -/
def checkSigners : List Certificate → Except X509SvidError Unit
  | [] => .ok ()
  | signer :: rest => do
    checkSigner signer
    checkSigners rest

namespace X509Svid

/-- The certificates from the leaf on. -/
def chain (svid : X509Svid) : List Certificate := svid.leaf :: svid.intermediates

/-- Reads an identity from a chain of certificates one after the other and a
key. -/
def parse (chain key : Bytes) : Except X509SvidError X509Svid := do
  match ← (Certificate.readList (some maxChainLength) chain).mapError .certificate with
  | [] => throw .emptyChain
  | leaf :: intermediates =>
    let spiffeId ← checkLeaf leaf
    checkSigners intermediates
    let privateKey ← (PrivateKey.parse key).mapError .privateKey
    pure ⟨spiffeId, leaf, intermediates, privateKey, none⟩

/-- The hint that a text stands for; an empty one is none. -/
def hintOf (hint : String) : Option String := if hint.isEmpty then none else some hint

/-- Reads an identity that comes with a hint. -/
def parseWithHint (chain key : Bytes) (hint : String) : Except X509SvidError X509Svid := do
  let svid ← parse chain key
  pure { svid with hint := hintOf hint }

end X509Svid
end WorkloadIdentity
