/-
# Sources of JWT bundles

The source keeps the key sets that the agent sent last.

Key definitions: `JwtSource.Cache`, `JwtSource.install`, `JwtSource.dispose`,
`JwtSource.bundles`, `JwtSource.source`, `JwtSource.whenReady`.
-/
import WorkloadIdentity.Source.Lifecycle

namespace WorkloadIdentity
namespace JwtSource

/-- What the source keeps. -/
structure Cache where
  lifecycle : Lifecycle
  slot : Option JwtBundleSet

/-- A source without an update. -/
def Cache.fresh : Cache := ⟨.fresh, none⟩

/-! ### Updates -/

/-- Empties the slot. -/
def clear : Steps Cache SourceEvent := .change (fun c => { c with slot := none }) .done

/-- A disposal that came in between must not leave bundles behind. -/
def recheck : Steps Cache SourceEvent :=
  .look fun c => if c.lifecycle.stage = .disposed then clear else .done

/-- Makes the new bundles known. -/
def announce : Steps Cache SourceEvent :=
  .change (fun c => { c with lifecycle := c.lifecycle.makeReady })
    (.change (fun c => { c with lifecycle := c.lifecycle.publish }) recheck)

/-- Puts bundles in the slot. -/
def store (bundles : JwtBundleSet) : Steps Cache SourceEvent :=
  .act
    (fun _ => [.log .debug
      ("Installing JWT bundle set with " ++ toString bundles.size ++ " bundles")])
    (fun c => { c with slot := some bundles }) fun _ => announce

/-- Installs bundles, unless the source has been disposed of. -/
def install (bundles : JwtBundleSet) : Steps Cache SourceEvent :=
  .look fun c => if c.lifecycle.stage = .disposed then .done else store bundles

/-- Disposes of the source; all but the first time nothing happens. -/
def dispose : Steps Cache SourceEvent :=
  .act (fun c => if c.lifecycle.stage = .disposed then []
      else [.log .debug "Disposing JWT source"])
    (fun c => { c with lifecycle := c.lifecycle.dispose })
    fun c => if c.lifecycle.stage = .disposed then .done else clear

/-! ### Answers -/

/-- The bundles of the last update. -/
def bundles (c : Cache) : Except SourceError JwtBundleSet := c.lifecycle.read c.slot

/-- The bundle of a trust domain in the last update. -/
def bundle (c : Cache) (trustDomain : TrustDomain) : Except SourceError JwtBundle := do
  match (← bundles c).find? trustDomain with
  | some bundle => pure bundle
  | none => throw (.bundleNotFound trustDomain)

/-- The bundle of a trust domain, if there is one. -/
def bundle? (c : Cache) (trustDomain : TrustDomain) : Except SourceError (Option JwtBundle) :=
  return (← bundles c).find? trustDomain

/-- The source as one that tokens are verified with. -/
def source (c : Cache) : BundleSource JwtBundle := fun trustDomain =>
  (bundle? c trustDomain).mapError SourceError.message

/-- Makes a call to the agent, if the source may answer. -/
def whenReady {α : Type} (c : Cache) (call : Session → Except ApiError α × Session) (s : Session) :
    Except SourceError α × Session :=
  match c.lifecycle.check with
  | .error e => (.error e, s)
  | .ok () =>
    let (answer, s) := call s
    (answer.mapError .workloadApi, s)

end JwtSource
end WorkloadIdentity
