/-
# Identities in URLs

An identity may also come as a URL. It is then read as any other text is, from
the URL in writing, so that nothing is unescaped.

Key definitions: `SpiffeId.ofUrl`, `TrustDomain.ofUrl`.
-/
import WorkloadIdentity.Id.Basic
import WorkloadIdentity.Url.Basic

namespace WorkloadIdentity

/-- The identity that a URL writes. -/
def SpiffeId.ofUrl (url : Url) : Except IdError SpiffeId := parse (String.ofList url.text)

/-- The trust domain of the identity that a URL writes. -/
def TrustDomain.ofUrl (url : Url) : Except IdError TrustDomain :=
  (SpiffeId.ofUrl url).map (·.trustDomain)

end WorkloadIdentity
