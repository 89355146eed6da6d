/-
# Sources of X.509 identities

The source keeps the context that the agent sent last and the identity picked
from it. When it lets go of an identity whose place no equal one takes, it says
so, and the key can be wiped.

An update is installed in steps, and the source may be disposed of between any
two of them; the last step looks for that and clears the slot again.

Key definitions: `Picker`, `X509Source.Cache`, `X509Source.install`,
`X509Source.dispose`, `X509Source.svid`, `X509Source.bundles`,
`X509Source.source`.
-/
import WorkloadIdentity.Source.Lifecycle
import WorkloadIdentity.X509.Verify

namespace WorkloadIdentity

/-- Chooses the identity to use. -/
abbrev Picker := List X509Svid → Option X509Svid

namespace Picker

/-- The first identity. -/
def first : Picker := List.head?

/-- The last identity. -/
def last : Picker := List.getLast?

/-- No identity at all. -/
def never : Picker := fun _ => none

/-- The first identity with a hint. -/
def byHint (hint : String) : Picker := List.find? (·.hint = some hint)

/-- The first identity with a path. -/
def byPath (path : String) : Picker := List.find? (·.spiffeId.path = path)

end Picker

namespace X509Source

/-- A context and the identity picked from it. -/
structure Snapshot where
  context : X509Context
  svid : Option X509Svid

/-- What the source keeps. -/
structure Cache where
  lifecycle : Lifecycle
  slot : Option Snapshot

/-- A source without an update. -/
def Cache.fresh : Cache := ⟨.fresh, none⟩

/-! ### Updates -/

/-- Lets go of the identity of a snapshot that has been taken out, unless an
equal one is in its place. -/
def release (old : Option Snapshot) (current : Option X509Svid) (next : Steps Cache SourceEvent) :
    Steps Cache SourceEvent :=
  match old.bind (·.svid) with
  | some svid => if current = some svid then next else .tell (.released svid) next
  | none => next

/-- Empties the slot. -/
def clear : Steps Cache SourceEvent :=
  .act (fun _ => []) (fun c => { c with slot := none }) fun c => release c.slot none .done

/-- A disposal that came in between must not leave a snapshot behind. -/
def recheck : Steps Cache SourceEvent :=
  .look fun c => if c.lifecycle.stage = .disposed then clear else .done

/-- Makes the new snapshot known. -/
def announce : Steps Cache SourceEvent :=
  .change (fun c => { c with lifecycle := c.lifecycle.makeReady })
    (.change (fun c => { c with lifecycle := c.lifecycle.publish }) recheck)

/-- What is told of a snapshot that is put in. -/
def told (snapshot : Snapshot) : SourceEvent :=
  match snapshot.svid with
  | some svid => .log .debug ("Installing X.509 context, current SVID " ++ svid.spiffeId.text)
  | none =>
    .log .warn ("No suitable SVID among the " ++ toString snapshot.context.svids.length ++
      " received; bundles are still updated")

/-- Puts a snapshot in the slot. -/
def store (snapshot : Snapshot) : Steps Cache SourceEvent :=
  .act (fun _ => [told snapshot]) (fun c => { c with slot := some snapshot }) fun c =>
    release c.slot snapshot.svid announce

/-- Installs a context, unless the source has been disposed of. -/
def install (pick : Picker) (context : X509Context) : Steps Cache SourceEvent :=
  .look fun c =>
    if c.lifecycle.stage = .disposed then .done else store ⟨context, pick context.svids⟩

/-- Disposes of the source; all but the first time nothing happens. -/
def dispose : Steps Cache SourceEvent :=
  .act (fun c => if c.lifecycle.stage = .disposed then []
      else [.log .debug "Disposing X.509 source"])
    (fun c => { c with lifecycle := c.lifecycle.dispose })
    fun c => if c.lifecycle.stage = .disposed then .done else clear

/-! ### Answers -/

/-- The snapshot that answers come from. -/
def snapshot (c : Cache) : Except SourceError Snapshot := c.lifecycle.read c.slot

/-- The identity picked from the last update. -/
def svid (c : Cache) : Except SourceError X509Svid := do
  match (← snapshot c).svid with
  | some svid => pure svid
  | none => throw .noSuitableSvid

/-- The last context. -/
def context (c : Cache) : Except SourceError X509Context := return (← snapshot c).context

/-- The bundles of the last update. -/
def bundles (c : Cache) : Except SourceError X509BundleSet := return (← context c).bundles

/-- The bundle of a trust domain in the last update. -/
def bundle (c : Cache) (trustDomain : TrustDomain) : Except SourceError X509Bundle := do
  match (← bundles c).find? trustDomain with
  | some bundle => pure bundle
  | none => throw (.bundleNotFound trustDomain)

/-- The bundle of a trust domain, if there is one. -/
def bundle? (c : Cache) (trustDomain : TrustDomain) : Except SourceError (Option X509Bundle) :=
  return (← bundles c).find? trustDomain

/-- The source as one that identities are verified with. -/
def source (c : Cache) : BundleSource X509Bundle := fun trustDomain =>
  (bundle? c trustDomain).mapError SourceError.message

end X509Source
end WorkloadIdentity
