/-
# Verifying X.509 identities

A leaf is first looked at by itself: its octets are read again, it has to name
one identity and must not act as a CA, where an absent extension grants nothing.
Its trust domain's bundle is then asked for, and the leaf is verified if a path
leads from it to one of the bundle's authorities, for servers or for clients: an
identity is not tied to one side of a connection.

Key definitions: `X509VerifyError`, `checkLeafShape`, `chainVerifies`,
`verifyChain`, `X509Svid.verify`.
-/
import WorkloadIdentity.Bundle.X509
import WorkloadIdentity.X509.Path.Search
import WorkloadIdentity.X509.Svid

namespace WorkloadIdentity

/-- Why there is no answer for a leaf. -/
inductive X509VerifyError where
  | certificate (cause : CertificateError)
  | leafIsCa
  | leafSignsCertificates
  | leafSignsLists
  | bundleNotFound (trustDomain : TrustDomain)
  | bundleSource (reason : String)
  deriving DecidableEq, Repr

/-- The wording of each cause. -/
def X509VerifyError.message : X509VerifyError → String
  | certificate cause => cause.message
  | leafIsCa => "leaf certificate is a CA"
  | leafSignsCertificates => "leaf certificate has the keyCertSign key usage"
  | leafSignsLists => "leaf certificate has the cRLSign key usage"
  | bundleNotFound trustDomain => "no X.509 bundle found for trust domain: " ++ trustDomain.name
  | bundleSource _ => "bundle source error"

/-- Refuses what may sign certificates, or lists of those that are revoked. -/
def checkSignsNothing (flags : Certificate.SigningFlags) : Except X509VerifyError Unit :=
  if flags.ca then .error .leafIsCa
  else if flags.keyCertSign then .error .leafSignsCertificates
  else if flags.crlSign then .error .leafSignsLists
  else .ok ()

/-- The identity of a leaf that does not act as a CA. -/
def checkLeafShape (leaf : Certificate) : Except X509VerifyError SpiffeId := do
  let leaf ← (Certificate.parse leaf.der).mapError .certificate
  let spiffeId ← leaf.spiffeId.mapError .certificate
  let flags ← leaf.signingFlags.mapError .certificate
  checkSignsNothing flags
  pure spiffeId

/-- Does a path lead from the leaf to an authority of the bundle? Authorities
that cannot be anchors are left out. -/
def chainVerifies (bundle : X509Bundle) (leaf : Certificate) (intermediates : List Certificate)
    (now : Int) : Bool :=
  let anchors := bundle.authorities.filterMap fun authority => Path.Anchor.parse authority.der
  let others := intermediates.map (·.der)
  Path.isTrusted .serverAuth now anchors others leaf.der ||
    Path.isTrusted .clientAuth now anchors others leaf.der

/-- Verifies a leaf with the bundle of its trust domain. -/
def verifyChain (leaf : Certificate) (intermediates : List Certificate)
    (source : BundleSource X509Bundle) (now : Int) : Except X509VerifyError Bool := do
  let spiffeId ← checkLeafShape leaf
  match source spiffeId.trustDomain with
  | .error reason => throw (.bundleSource reason)
  | .ok none => throw (.bundleNotFound spiffeId.trustDomain)
  | .ok (some bundle) => pure (chainVerifies bundle leaf intermediates now)

/-- Verifies an identity's own chain. -/
def X509Svid.verify (svid : X509Svid) (source : BundleSource X509Bundle) (now : Int) :
    Except X509VerifyError Bool :=
  verifyChain svid.leaf svid.intermediates source now

end WorkloadIdentity
