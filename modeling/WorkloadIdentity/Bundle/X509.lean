/-
# Bundles of X.509 authorities

The certificates that chains of a trust domain's identities have to end at, in
the order in which they came.

Key definitions: `X509Bundle`, `X509Bundle.parse`, `X509Bundle.add`,
`X509BundleSet`.
-/
import WorkloadIdentity.Bundle.Set
import WorkloadIdentity.X509.Certificate

namespace WorkloadIdentity

/-- The authorities of one trust domain. -/
structure X509Bundle where
  trustDomain : TrustDomain
  authorities : List Certificate
  deriving DecidableEq, Repr

instance : HasTrustDomain X509Bundle := ⟨X509Bundle.trustDomain⟩

/-- The authorities of several trust domains. -/
abbrev X509BundleSet := BundleSet X509Bundle

namespace X509Bundle

/-- No authority. -/
def empty (trustDomain : TrustDomain) : X509Bundle := ⟨trustDomain, []⟩

/-- Reads authorities one after the other. -/
def parse (trustDomain : TrustDomain) (der : Bytes) : Except CertificateError X509Bundle :=
  (Certificate.readList none der).map fun authorities => ⟨trustDomain, authorities⟩

/-- Adds an authority behind the others. -/
def add (bundle : X509Bundle) (der : Bytes) : Except CertificateError X509Bundle :=
  (Certificate.parse der).map fun authority =>
    { bundle with authorities := bundle.authorities ++ [authority] }

end X509Bundle
end WorkloadIdentity
