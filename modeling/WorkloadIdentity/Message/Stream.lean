/-
# Requests for streams

What a workload sends to ask for a stream: a message without fields. Whatever
fields a reader finds, it passes over.

Key definitions: `StreamRequest`, `StreamRequest.encode`,
`StreamRequest.decode?`.
-/
import WorkloadIdentity.Wire.Field

namespace WorkloadIdentity

/-- Asks for a stream. -/
structure StreamRequest where
  deriving DecidableEq, Repr

namespace StreamRequest

/-- The message on the wire. -/
def encode (_ : StreamRequest) : Bytes := []

/-- Reads the message. -/
def decode? (octets : Bytes) : Option StreamRequest :=
  (Wire.readFields (fun _ => .skip) Wire.outerLimit octets).map fun _ => ⟨⟩

end StreamRequest
end WorkloadIdentity
