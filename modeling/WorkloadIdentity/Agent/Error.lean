/-
# Errors of the Workload API

Why a call came to nothing: the agent cannot be reached, it answers with a
status, or what it sends is not what it should be. A watch ends for good at a
terminal status only.

Key definitions: `ApiError`, `ApiError.message`, `ApiError.isTerminal`.
-/
import WorkloadIdentity.Agent.Status
import WorkloadIdentity.Bundle.Jwt
import WorkloadIdentity.Endpoint
import WorkloadIdentity.Jwt.Svid
import WorkloadIdentity.X509.Svid

namespace WorkloadIdentity

/-- Why a call came to nothing. -/
inductive ApiError where
  /-- The agent sent nothing, or no identity. -/
  | emptyResponse
  | endpoint (cause : EndpointError)
  /-- Endpoints of the scheme cannot be dialed here. -/
  | unsupportedTransport (scheme : String)
  /-- Nobody can be reached at the endpoint. -/
  | transport
  | status (cause : Status)
  /-- No token carries the hint. -/
  | hintNotFound (hint : String)
  | x509Svid (cause : X509SvidError)
  | jwtSvid (cause : JwtError)
  | x509Bundle (cause : CertificateError)
  | jwtBundle (cause : JwtBundleError)
  | spiffeId (cause : IdError)
  deriving DecidableEq, Repr

namespace ApiError

/-- The wording of each cause. -/
def message : ApiError → String
  | emptyResponse => "Workload API response is empty"
  | endpoint cause => "bad Workload API endpoint: " ++ cause.message
  | unsupportedTransport scheme => scheme ++ " endpoints are not supported on this platform"
  | transport => "failed to connect to the Workload API: transport error"
  | status cause => "Workload API call failed: " ++ cause.text
  | hintNotFound hint => "no JWT-SVID with hint " ++ Quoted.text hint
  | x509Svid cause => "response X.509-SVID: " ++ cause.message
  | jwtSvid cause => "response JWT-SVID: " ++ cause.message
  | x509Bundle cause => "response X.509 bundle: " ++ cause.message
  | jwtBundle cause => "response JWT bundle: " ++ cause.message
  | spiffeId cause => "response SPIFFE ID: " ++ cause.message

/-- The code of the agent's status, if it answered with one. -/
def code? : ApiError → Option StatusCode
  | status cause => some cause.code
  | _ => none

/-- Does the agent not want to be asked again? -/
def isTerminal (e : ApiError) : Bool := e.code?.any StatusCode.isTerminal

end ApiError
end WorkloadIdentity
