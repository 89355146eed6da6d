/-
# What the agent's messages mean

A message becomes the identities and bundles in it as a whole: if one part does
not read, there is no result. The bundle of an identity stands under its trust
domain; a bundle that the message names for a trust domain takes its place.

Key definitions: `X509Context`, `X509Context.ofResponse`,
`X509SvidResponse.firstSvid`, `X509BundlesResponse.toSet`,
`JwtBundlesResponse.toSet`, `JwtSvidResponse.toSvids`.
-/
import WorkloadIdentity.Agent.Error
import WorkloadIdentity.Bundle.X509
import WorkloadIdentity.Message.Jwt
import WorkloadIdentity.Message.X509

namespace WorkloadIdentity

/-- The identities of a workload, in the agent's order, and the bundles to
verify others with. -/
structure X509Context where
  svids : List X509Svid
  bundles : X509BundleSet

/-- The identity to use unless told otherwise: the first. -/
def X509Context.defaultSvid? (context : X509Context) : Option X509Svid := context.svids.head?

/-! ### X.509 -/

/-- The identity that an entry holds. -/
def X509SvidEntry.toSvid (entry : X509SvidEntry) : Except ApiError X509Svid :=
  (X509Svid.parseWithHint entry.chain entry.privateKey entry.hint).mapError .x509Svid

/-- The authorities of a trust domain. -/
def readX509Bundle (trustDomain : TrustDomain) (der : Bytes) : Except ApiError X509Bundle :=
  (X509Bundle.parse trustDomain der).mapError .x509Bundle

/-- The authorities under the name of a trust domain. -/
def readNamedX509Bundle (entry : String × Bytes) : Except ApiError X509Bundle := do
  let trustDomain ← (TrustDomain.parse entry.1).mapError .spiffeId
  readX509Bundle trustDomain entry.2

/-- An identity, and the bundle that comes with it. -/
def X509SvidEntry.toSvidAndBundle (entry : X509SvidEntry) :
    Except ApiError (X509Svid × X509Bundle) := do
  let svid ← entry.toSvid
  let bundle ← readX509Bundle svid.spiffeId.trustDomain entry.bundle
  pure (svid, bundle)

/-- The context that a message holds: the bundles that come with identities are
added first, then the others. -/
def X509Context.ofResponse (response : X509SvidResponse) : Except ApiError X509Context := do
  if response.svids.isEmpty then throw .emptyResponse
  let issued ← response.svids.mapM X509SvidEntry.toSvidAndBundle
  let federated ← response.federatedBundles.mapM readNamedX509Bundle
  pure ⟨issued.map (·.1), BundleSet.ofList (issued.map (·.2) ++ federated)⟩

/-- The first identity of a message, whatever else it holds. -/
def X509SvidResponse.firstSvid (response : X509SvidResponse) : Except ApiError X509Svid :=
  match response.svids with
  | [] => .error .emptyResponse
  | entry :: _ => entry.toSvid

/-- The bundles of a message. -/
def X509BundlesResponse.toSet (response : X509BundlesResponse) : Except ApiError X509BundleSet :=
  (response.bundles.mapM readNamedX509Bundle).map BundleSet.ofList

/-! ### JWT -/

/-- The keys under the name of a trust domain. -/
def readNamedJwtBundle (entry : String × Bytes) : Except ApiError JwtBundle := do
  let trustDomain ← (TrustDomain.parse entry.1).mapError .spiffeId
  (JwtBundle.parse trustDomain entry.2).mapError .jwtBundle

/-- The bundles of a message. -/
def JwtBundlesResponse.toSet (response : JwtBundlesResponse) : Except ApiError JwtBundleSet :=
  (response.bundles.mapM readNamedJwtBundle).map BundleSet.ofList

/-- The identity that an entry holds, read without a signature check. -/
def JwtSvidEntry.toSvid (entry : JwtSvidEntry) (audience : List String) (now : Int) :
    Except ApiError JwtSvid := do
  let svid ← (JwtSvid.parseInsecure entry.token audience now).mapError .jwtSvid
  pure (if entry.hint.isEmpty then svid else svid.withHint entry.hint)

namespace JwtSvidResponse

/-- The identities of a message. -/
def toSvids (response : JwtSvidResponse) (audience : List String) (now : Int) :
    Except ApiError (List JwtSvid) :=
  if response.svids.isEmpty then .error .emptyResponse
  else response.svids.mapM (·.toSvid audience now)

/-- The first identity of a message. -/
def firstSvid (response : JwtSvidResponse) (audience : List String) (now : Int) :
    Except ApiError JwtSvid := do
  match ← response.toSvids audience now with
  | [] => throw .emptyResponse
  | svid :: _ => pure svid

/-- The first identity of a message with a hint. -/
def svidByHint (response : JwtSvidResponse) (audience : List String) (now : Int) (hint : String) :
    Except ApiError JwtSvid := do
  match (← response.toSvids audience now).find? (·.hint = some hint) with
  | some svid => pure svid
  | none => throw (.hintNotFound hint)

/-- The first token of a message, not looked at. -/
def firstToken (response : JwtSvidResponse) : Except ApiError String :=
  match response.svids with
  | [] => .error .emptyResponse
  | entry :: _ => .ok entry.token

end JwtSvidResponse
end WorkloadIdentity
