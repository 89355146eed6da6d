/-
# The life of a source

A source keeps what the agent sent last. Before the first update it has no
answers, and from the moment it is disposed of it never has any again. The
number of its updates only grows.

Key definitions: `SourceError`, `Stage`, `Lifecycle`, `Lifecycle.check`,
`Lifecycle.makeReady`, `Lifecycle.dispose`, `SourceEvent`.
-/
import WorkloadIdentity.Agent.Client
import WorkloadIdentity.Source.Steps

namespace WorkloadIdentity

/-- Why a source has no answer. -/
inductive SourceError where
  /-- There has been no update yet. -/
  | invalidState
  | disposed
  | initializationTimeout (timeout : Duration)
  | initializationCancelled
  | bundleNotFound (trustDomain : TrustDomain)
  /-- None of the identities in the last update was picked. -/
  | noSuitableSvid
  | workloadApi (cause : ApiError)
  deriving DecidableEq, Repr

/-- The wording of each cause. -/
def SourceError.message : SourceError → String
  | invalidState => "source is not initialized"
  | disposed => "source has been disposed"
  | initializationTimeout timeout => "source initialization timed out after " ++ timeout.text
  | initializationCancelled => "source initialization was cancelled"
  | bundleNotFound trustDomain => "no bundle found for trust domain: " ++ trustDomain.name
  | noSuitableSvid => "no suitable X.509 SVID in the latest update"
  | workloadApi cause => "workload api error: " ++ cause.message

/-- How far a source has come. -/
inductive Stage where
  | uninitialized
  | initialized
  | disposed
  deriving DecidableEq, Repr

/-- The stage of a source and the number of its updates. The number is one of 64
bits that would begin again after 2^64 updates, which no source gets to; here it
has no bound. -/
structure Lifecycle where
  stage : Stage
  updates : Nat
  deriving DecidableEq, Repr

namespace Lifecycle

/-- A source without an update. -/
def fresh : Lifecycle := ⟨.uninitialized, 0⟩

/-- May the source answer? -/
def check (l : Lifecycle) : Except SourceError Unit :=
  match l.stage with
  | .uninitialized => .error .invalidState
  | .initialized => .ok ()
  | .disposed => .error .disposed

/-- The source is ready, unless it is past that. -/
def makeReady (l : Lifecycle) : Lifecycle :=
  if l.stage = .uninitialized then { l with stage := .initialized } else l

/-- The source is disposed of. -/
def dispose (l : Lifecycle) : Lifecycle := { l with stage := .disposed }

/-- One more update. -/
def publish (l : Lifecycle) : Lifecycle := { l with updates := l.updates + 1 }

/-- What a slot of a source holds, if the source may answer. -/
def read {α : Type} (l : Lifecycle) (slot : Option α) : Except SourceError α := do
  l.check
  match slot with
  | some a => pure a
  | none => throw .disposed

end Lifecycle

/-- What a source does that others can see. -/
inductive SourceEvent where
  | log (level : LogLevel) (text : String)
  /-- The source no longer holds the key of an identity. -/
  | released (svid : X509Svid)

end WorkloadIdentity
