/-
# Clients

A client makes calls to an agent, one after the other, and keeps a backoff that
its watches share. A call takes as long as the agent takes to answer. A
`Session` holds what the client, the agent and the clock have come to, and every
call that the agent has received.

Key definitions: `Call`, `Session`, `Session.first`,
`Session.fetchX509Context`, `Session.fetchJwtSvids`,
`Session.validateJwtSvid`, `dial`.
-/
import WorkloadIdentity.Agent.Script
import WorkloadIdentity.Backoff
import WorkloadIdentity.Log

namespace WorkloadIdentity

/-- What an agent is asked. -/
inductive Call where
  | stream (kind : StreamKind)
  | jwtSvid (request : JwtSvidRequest)
  | validate (request : ValidateRequest)
  deriving DecidableEq, Repr

/-- A call that an agent has received. -/
structure ReceivedCall where
  call : Call
  /-- The clock when it came. -/
  clock : Nat
  /-- The counter of the client's backoff when it came. -/
  attempt : UInt32
  deriving DecidableEq, Repr

/-- A client, its agent and a clock in milliseconds. -/
structure Session where
  clock : Nat
  agent : Agent
  backoff : Backoff
  /-- The calls received, the last one first. -/
  calls : List ReceivedCall
  /-- The records written, the last one first. -/
  logs : List LogRecord

/-- Connects to the agent at an endpoint, given the endpoints at which one can
be reached. -/
def dial (reachable : Endpoint → Bool) (endpoint : Endpoint) : Except ApiError Unit :=
  match endpoint with
  | .namedPipe _ => .error (.unsupportedTransport "npipe")
  | _ => if reachable endpoint then .ok () else .error .transport

/-- Connects to the agent at an endpoint that a text names, if it does. -/
def dialNamed (reachable : Endpoint → Bool) (endpoint : Except EndpointError Endpoint) :
    Except ApiError Unit := do
  dial reachable (← endpoint.mapError .endpoint)

namespace Session

/-- A client that has made no call yet. -/
def start (agent : Agent) (backoff : Backoff) : Session := ⟨0, agent, backoff, [], []⟩

/-- Writes a record. -/
def log (s : Session) (level : LogLevel) (text : String) : Session :=
  { s with logs := ⟨level, text⟩ :: s.logs }

/-- The agent receives a call. -/
def receive (s : Session) (call : Call) : Session :=
  { s with calls := ⟨call, s.clock, s.backoff.attempt⟩ :: s.calls }

/-- The next delay of the client's backoff. -/
def nextDelay (s : Session) : Duration × Session :=
  let (delay, backoff) := s.backoff.next
  (delay, { s with backoff })

/-! ### The first message of a stream -/

/-- Asks for a stream and goes by its first message; there is no answer to a
stream that stays silent. -/
def first {μ α : Type} (s : Session) (kind : StreamKind) (queue : Agent → List (Attempt μ))
    (convert : μ → Except ApiError α) : Option (Except ApiError α) × Session :=
  let after := { s.receive (.stream kind) with agent := s.agent.advance kind }
  match ((queue s.agent).headD .silent).first with
  | none => (none, after)
  | some (elapsed, answer) =>
    (some (answer >>= convert), { after with clock := after.clock + elapsed })

/-- The identities of the workload and the bundles to verify others with. -/
def fetchX509Context (s : Session) : Option (Except ApiError X509Context) × Session :=
  s.first .x509Context Agent.x509Svids X509Context.ofResponse

/-- The first identity of the workload. -/
def fetchX509Svid (s : Session) : Option (Except ApiError X509Svid) × Session :=
  s.first .x509Context Agent.x509Svids X509SvidResponse.firstSvid

/-- The X.509 bundles of all trust domains. -/
def fetchX509Bundles (s : Session) : Option (Except ApiError X509BundleSet) × Session :=
  s.first .x509Bundles Agent.x509Bundles X509BundlesResponse.toSet

/-- The JWT bundles of all trust domains. -/
def fetchJwtBundles (s : Session) : Option (Except ApiError JwtBundleSet) × Session :=
  s.first .jwtBundles Agent.jwtBundles JwtBundlesResponse.toSet

/-! ### Tokens -/

/-- Asks for tokens for an audience, of one identity or of all. -/
def callJwtSvid (s : Session) (audience : List String) (spiffeId : Option SpiffeId) :
    Except ApiError JwtSvidResponse × Session :=
  let request : JwtSvidRequest := ⟨audience, spiffeId.elim "" (·.text)⟩
  (((s.agent.jwtSvids.headD (.error Agent.unscripted)).mapError .status),
    { s.receive (.jwtSvid request) with
      agent := { s.agent with jwtSvids := s.agent.jwtSvids.tail } })

/-- All identities issued for an audience. -/
def fetchJwtSvids (s : Session) (audience : List String) (spiffeId : Option SpiffeId) (now : Int) :
    Except ApiError (List JwtSvid) × Session :=
  let (answer, s) := s.callJwtSvid audience spiffeId
  (answer >>= fun response => response.toSvids audience now, s)

/-- The first identity issued for an audience. -/
def fetchJwtSvid (s : Session) (audience : List String) (spiffeId : Option SpiffeId) (now : Int) :
    Except ApiError JwtSvid × Session :=
  let (answer, s) := s.callJwtSvid audience spiffeId
  (answer >>= fun response => response.firstSvid audience now, s)

/-- The first identity issued for an audience with a hint. -/
def fetchJwtSvidByHint (s : Session) (audience : List String) (spiffeId : Option SpiffeId)
    (now : Int) (hint : String) : Except ApiError JwtSvid × Session :=
  let (answer, s) := s.callJwtSvid audience spiffeId
  (answer >>= fun response => response.svidByHint audience now hint, s)

/-- The first token issued for an audience, not looked at. -/
def fetchJwtToken (s : Session) (audience : List String) (spiffeId : Option SpiffeId) :
    Except ApiError String × Session :=
  let (answer, s) := s.callJwtSvid audience spiffeId
  (answer >>= JwtSvidResponse.firstToken, s)

/-- Has the agent validate a token for an audience, and then reads it. -/
def validateJwtSvid (s : Session) (audience token : String) (now : Int) :
    Except ApiError JwtSvid × Session :=
  let answer := (s.agent.validations.headD (.error Agent.unscripted)).mapError ApiError.status
  (answer >>= fun _ => (JwtSvid.parseInsecure token [audience] now).mapError .jwtSvid,
    { s.receive (.validate ⟨audience, token⟩) with
      agent := { s.agent with validations := s.agent.validations.tail } })

end Session
end WorkloadIdentity
