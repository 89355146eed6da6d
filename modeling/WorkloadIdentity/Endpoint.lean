/-
# Endpoints of the Workload API

An agent is reached at a socket named by a URI: `unix:` and an absolute path,
`tcp:` with an address and a port, or `npipe:` and the name of a pipe. The two
slashes after `unix:` and `tcp:` may be left out.

Key definitions: `Endpoint`, `EndpointError`, `Endpoint.parse`,
`Endpoint.text`, `Endpoint.ofVariable`.
-/
import WorkloadIdentity.Url.Parser

namespace WorkloadIdentity

/-- Where an agent listens. -/
inductive Endpoint where
  /-- A socket file. -/
  | unix (path : String)
  /-- An address and a port. -/
  | tcp (host : IpAddress) (port : Nat)
  /-- A pipe by its name. -/
  | namedPipe (name : String)
  deriving DecidableEq, Repr

/-- Why a text names no endpoint. -/
inductive EndpointError where
  /-- The variable that should name it is unset, empty or no text. -/
  | notConfigured
  /-- It is no URL. -/
  | notAUrl (cause : UrlError)
  | invalidScheme
  | hasUserInfo
  | hasQuery
  | hasFragment
  /-- A socket file has no host. -/
  | unixAuthorityNotAllowed
  /-- There is no absolute path, or it is the root. -/
  | unixMissingPath
  /-- The host is a name, or missing. -/
  | tcpHostNotIp
  | tcpMissingPort
  /-- There is more after the port than one slash. -/
  | tcpUnexpectedPath
  /-- There is a slash after `npipe:`. -/
  | namedPipeNotOpaque
  | namedPipeMissingName
  deriving DecidableEq, Repr

/-- The variable of the environment that names the endpoint. -/
def endpointVariable : String := "SPIFFE_ENDPOINT_SOCKET"

/-- The wording of each cause. -/
def EndpointError.message : EndpointError → String
  | notConfigured => endpointVariable ++ " is not set"
  | notAUrl cause => "endpoint is not a URI: " ++ cause.message
  | invalidScheme => "endpoint scheme must be unix, tcp or npipe"
  | hasUserInfo => "endpoint URI carries user info"
  | hasQuery => "endpoint URI carries a query"
  | hasFragment => "endpoint URI carries a fragment"
  | unixAuthorityNotAllowed => "unix endpoint has an authority"
  | unixMissingPath => "unix endpoint has no absolute path"
  | tcpHostNotIp => "tcp endpoint host is not an IP address"
  | tcpMissingPort => "tcp endpoint has no port"
  | tcpUnexpectedPath => "tcp endpoint has a path"
  | namedPipeNotOpaque => "npipe endpoint is not opaque"
  | namedPipeMissingName => "npipe endpoint has no pipe name"

namespace Endpoint

/-- The long form of a URI whose slashes after `unix:` or `tcp:` are left
out. -/
def lengthen (s : List Char) : List Char :=
  match "unix:/".toList.isPrefixOf? s with
  | some rest => if rest.head? == some '/' then s else "unix:///".toList ++ rest
  | none =>
    match "tcp:".toList.isPrefixOf? s with
    | some rest => if rest.take 2 == ['/', '/'] then s else "tcp://".toList ++ rest
    | none => s

/-- A socket file: no host, and an absolute path other than the root. -/
def ofUnix (u : Url) : Except EndpointError Endpoint :=
  if u.host ≠ .absent then .error .unixAuthorityNotAllowed
  else if u.path.head? ≠ some '/' ∨ u.path = ['/'] then .error .unixMissingPath
  else .ok (.unix (String.ofList u.path))

/-- The address that a host names. -/
def address? : Url.Host → Option IpAddress
  | .v4 x => some (.v4 x)
  | .v6 x => some (.v6 x)
  | .domain s => (Ipv4.parse s).map .v4
  | .absent => none

/-- An address and a port, with at most a slash behind them. -/
def ofTcp (u : Url) : Except EndpointError Endpoint :=
  match address? u.host, u.port with
  | none, _ => .error .tcpHostNotIp
  | some _, none => .error .tcpMissingPort
  | some host, some port =>
    if u.path = [] ∨ u.path = ['/'] then .ok (.tcp host port) else .error .tcpUnexpectedPath

/-- A pipe: a name with no slash in front. -/
def ofNamedPipe (u : Url) : Except EndpointError Endpoint :=
  if !u.cannotBeABase then .error .namedPipeNotOpaque
  else if u.path.isEmpty then .error .namedPipeMissingName
  else .ok (.namedPipe (String.ofList u.path))

/-- The endpoint that a URL names: no user info, query or fragment, then the
rules of its scheme. -/
def ofUrl (u : Url) : Except EndpointError Endpoint :=
  if !u.user.isEmpty || u.password.isSome then .error .hasUserInfo
  else if u.query.isSome then .error .hasQuery
  else if u.fragment.isSome then .error .hasFragment
  else if u.scheme = "unix".toList then ofUnix u
  else if u.scheme = "tcp".toList then ofTcp u
  else if u.scheme = "npipe".toList then ofNamedPipe u
  else .error .invalidScheme

/-- Reads an endpoint. -/
def parse (s : String) : Except EndpointError Endpoint :=
  match Url.parse (String.ofList (lengthen s.toList)) with
  | .error cause => .error (.notAUrl cause)
  | .ok u => ofUrl u

/-- The endpoint that the variable's value names; a value that is empty or no
text counts as unset. -/
def ofVariable (value : Option Bytes) : Except EndpointError Endpoint :=
  match value.bind Utf8.decode with
  | some s => if s.isEmpty then .error .notConfigured else parse s
  | none => .error .notConfigured

/-- The endpoint in writing, in the long form. -/
def text : Endpoint → String
  | unix path => "unix://" ++ path
  | tcp (.v6 x) port => String.ofList ("tcp://[".toList ++ x.text ++ ']' :: ':' :: decimal port)
  | tcp (.v4 x) port => String.ofList ("tcp://".toList ++ x.text ++ ':' :: decimal port)
  | namedPipe name => "npipe:" ++ name

end Endpoint
end WorkloadIdentity
