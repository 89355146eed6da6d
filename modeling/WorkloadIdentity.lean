import WorkloadIdentity.Endpoint
import WorkloadIdentity.Id.Url
import WorkloadIdentity.Jwt.Signature
import WorkloadIdentity.Message.Stream
import WorkloadIdentity.Source.Live
import WorkloadIdentity.Watch.Record
import WorkloadIdentity.X509.Verify
import WorkloadIdentity.Proofs.Id.Grammar
import WorkloadIdentity.Proofs.Id.Reach
import WorkloadIdentity.Proofs.Bundle.History
import WorkloadIdentity.Proofs.Isolation
import WorkloadIdentity.Proofs.X509.Chain
import WorkloadIdentity.Proofs.Watch.Scheduled
import WorkloadIdentity.Proofs.Source.Release
import WorkloadIdentity.Proofs.Watch.Cancellation
import WorkloadIdentity.Proofs.Backoff
import WorkloadIdentity.Proofs.Watch.Pace
import WorkloadIdentity.Proofs.Source.Serving
import WorkloadIdentity.Proofs.Watch.Progress
import WorkloadIdentity.Proofs.Source.Readiness
import WorkloadIdentity.Proofs.Source.Creation
import WorkloadIdentity.Proofs.Agent.Context
import WorkloadIdentity.Proofs.Source.Verifiable
import WorkloadIdentity.Proofs.Source.BothKinds
import WorkloadIdentity.Proofs.Source.Joined
import WorkloadIdentity.Proofs.Jwt.KeyType
import WorkloadIdentity.Proofs.Jwt.Garbled
import WorkloadIdentity.Proofs.Agent.Bundles
import WorkloadIdentity.Proofs.Endpoint
import WorkloadIdentity.Proofs.Jwt.Fraction
import WorkloadIdentity.Proofs.Json.Grammar
import WorkloadIdentity.Proofs.Json.Printed
import WorkloadIdentity.Proofs.Bundle.Reread
import WorkloadIdentity.Proofs.Jwt.Audience
import WorkloadIdentity.Proofs.Bundle.Authorities
import WorkloadIdentity.Proofs.Bundle.Contents
import WorkloadIdentity.Proofs.X509.Names
import WorkloadIdentity.Proofs.Id.Refusal
import WorkloadIdentity.Proofs.Id.Segments
import WorkloadIdentity.Proofs.Id.Membership
import WorkloadIdentity.Proofs.Id.Domain
import WorkloadIdentity.Proofs.Id.Url
import WorkloadIdentity.Proofs.Endpoint.Short
import WorkloadIdentity.Proofs.Endpoint.Socket
import WorkloadIdentity.Proofs.Backoff.Shared
import WorkloadIdentity.Proofs.Agent.Tokens
import WorkloadIdentity.Proofs.Agent.First
import WorkloadIdentity.Proofs.Watch.OneShot
import WorkloadIdentity.Proofs.Jwt.Canonical
import WorkloadIdentity.Proofs.Wire.Fields
import WorkloadIdentity.Proofs.Message.RoundTrip
