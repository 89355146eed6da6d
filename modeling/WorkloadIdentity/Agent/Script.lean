/-
# Agents

An agent answers calls. A call for a stream is refused with a status or opens
one, which brings messages and statuses, pauses now and then, and in the end is
closed or left open in silence. Every other call is answered once. What an
`Agent` will do is laid down in one queue per call; a stream that no queue
provides for is open and silent.

Key definitions: `Item`, `Attempt`, `StreamKind`, `Agent`, `Agent.next`,
`Agent.advance`, `Attempt.first`.
-/
import WorkloadIdentity.Agent.Context

namespace WorkloadIdentity

/-- What a stream brings. -/
inductive Item (μ : Type) where
  | message (content : μ)
  | status (cause : Status)
  /-- So many milliseconds of silence. -/
  | delay (millis : Nat)

/-- What comes of asking for a stream. -/
inductive Attempt (μ : Type) where
  | rejected (cause : Status)
  | opened (items : List (Item μ)) (closes : Bool)

/-- The same item with other content. -/
def Item.map {μ ν : Type} (f : μ → ν) : Item μ → Item ν
  | message content => message (f content)
  | status cause => status cause
  | delay millis => delay millis

namespace Attempt

variable {μ ν : Type}

/-- A stream that stays open and brings nothing. -/
def silent : Attempt μ := opened [] false

/-- The same stream with other content. -/
def map (f : μ → ν) : Attempt μ → Attempt ν
  | rejected cause => rejected cause
  | opened items closes => opened (items.map (Item.map f)) closes

/-- How much there is to do about it. -/
def size : Attempt μ → Nat
  | rejected _ => 1
  | opened items _ => items.length + 1

/-- The first message of a stream and how long it takes to come: none ever
comes from a stream that stays silent. -/
def firstItem (closes : Bool) : List (Item μ) → Option (Nat × Except ApiError μ)
  | [] => if closes then some (0, .error .emptyResponse) else none
  | .message content :: _ => some (0, .ok content)
  | .status cause :: _ => some (0, .error (.status cause))
  | .delay millis :: rest =>
    (firstItem closes rest).map fun (elapsed, answer) => (millis + elapsed, answer)

/-- The first message that asking for a stream brings. -/
def first : Attempt μ → Option (Nat × Except ApiError μ)
  | rejected cause => some (0, .error (.status cause))
  | opened items closes => firstItem closes items

end Attempt

/-- The streams of an agent. -/
inductive StreamKind where
  | x509Context
  | x509Bundles
  | jwtBundles
  deriving DecidableEq, Repr

/-- The stream as records name it. -/
def StreamKind.name : StreamKind → String
  | x509Context => "X.509 context"
  | x509Bundles => "X.509 bundles"
  | jwtBundles => "JWT bundles"

/-- A message of a stream. -/
inductive Message where
  | x509Svids (content : X509SvidResponse)
  | x509Bundles (content : X509BundlesResponse)
  | jwtBundles (content : JwtBundlesResponse)

/-- What a message means. -/
inductive Update where
  | x509Context (context : X509Context)
  | x509Bundles (bundles : X509BundleSet)
  | jwtBundles (bundles : JwtBundleSet)

/-- The meaning of a message. -/
def Message.toUpdate : Message → Except ApiError Update
  | x509Svids content => (X509Context.ofResponse content).map .x509Context
  | x509Bundles content => content.toSet.map .x509Bundles
  | jwtBundles content => content.toSet.map .jwtBundles

/-- What an agent will do, by call. -/
structure Agent where
  x509Svids : List (Attempt X509SvidResponse)
  x509Bundles : List (Attempt X509BundlesResponse)
  jwtBundles : List (Attempt JwtBundlesResponse)
  jwtSvids : List (Except Status JwtSvidResponse)
  validations : List (Except Status Unit)

namespace Agent

/-- The answer to a call that no queue provides for. -/
def unscripted : Status := ⟨.unavailable, "no scripted response"⟩

/-- What comes of asking for a stream now. -/
def next (agent : Agent) : StreamKind → Attempt Message
  | .x509Context => (agent.x509Svids.headD .silent).map .x509Svids
  | .x509Bundles => (agent.x509Bundles.headD .silent).map .x509Bundles
  | .jwtBundles => (agent.jwtBundles.headD .silent).map .jwtBundles

/-- The agent after being asked for a stream. -/
def advance (agent : Agent) : StreamKind → Agent
  | .x509Context => { agent with x509Svids := agent.x509Svids.tail }
  | .x509Bundles => { agent with x509Bundles := agent.x509Bundles.tail }
  | .jwtBundles => { agent with jwtBundles := agent.jwtBundles.tail }

/-- How much there is to do about a queue of streams. -/
def queueSize {μ : Type} : List (Attempt μ) → Nat
  | [] => 0
  | attempt :: rest => attempt.size + queueSize rest

/-- How much there is to do about all streams. -/
def size (agent : Agent) : Nat :=
  queueSize agent.x509Svids + queueSize agent.x509Bundles + queueSize agent.jwtBundles

end Agent
end WorkloadIdentity
