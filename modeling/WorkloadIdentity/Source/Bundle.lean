/-
# Sources of all bundles

The source keeps the X.509 bundles and the JWT bundles that the agent sent last,
each in a slot of its own. It is ready when both slots are full.

Key definitions: `BundlesSource.Cache`, `BundlesSource.install`,
`BundlesSource.dispose`, `BundlesSource.x509Bundles`,
`BundlesSource.jwtBundles`.
-/
import WorkloadIdentity.Source.Lifecycle

namespace WorkloadIdentity
namespace BundlesSource

/-- What the source keeps. -/
structure Cache where
  lifecycle : Lifecycle
  x509 : Option X509BundleSet
  jwt : Option JwtBundleSet

/-- A source without an update. -/
def Cache.fresh : Cache := ⟨.fresh, none, none⟩

/-! ### Updates -/

/-- Empties the slots, one after the other. -/
def clear : Steps Cache SourceEvent :=
  .change (fun c => { c with x509 := none }) (.change (fun c => { c with jwt := none }) .done)

/-- A disposal that came in between must not leave bundles behind. -/
def recheck : Steps Cache SourceEvent :=
  .look fun c => if c.lifecycle.stage = .disposed then clear else .done

/-- Counts the update. -/
def publish : Steps Cache SourceEvent :=
  .change (fun c => { c with lifecycle := c.lifecycle.publish }) recheck

/-- The source is ready. -/
def makeReady : Steps Cache SourceEvent :=
  .change (fun c => { c with lifecycle := c.lifecycle.makeReady }) publish

/-- Makes new bundles known: looks into one slot after the other to see whether
the source is ready. -/
def announce : Steps Cache SourceEvent :=
  .look fun c =>
    if c.x509.isSome then .look fun c => if c.jwt.isSome then makeReady else publish
    else publish

/-- Puts bundles in their slot, unless the source has been disposed of. -/
def install (kind : String) (store : Cache → Cache) : Steps Cache SourceEvent :=
  .look fun c =>
    if c.lifecycle.stage = .disposed then .done
    else .act (fun _ => [.log .debug ("Installing " ++ kind ++ " bundle set")]) store
      fun _ => announce

/-- Installs X.509 bundles. -/
def installX509 (bundles : X509BundleSet) : Steps Cache SourceEvent :=
  install "X.509" fun c => { c with x509 := some bundles }

/-- Installs JWT bundles. -/
def installJwt (bundles : JwtBundleSet) : Steps Cache SourceEvent :=
  install "JWT" fun c => { c with jwt := some bundles }

/-- Disposes of the source; all but the first time nothing happens. -/
def dispose : Steps Cache SourceEvent :=
  .act (fun c => if c.lifecycle.stage = .disposed then []
      else [.log .debug "Disposing bundle source"])
    (fun c => { c with lifecycle := c.lifecycle.dispose })
    fun c => if c.lifecycle.stage = .disposed then .done else clear

/-! ### Answers -/

/-- The X.509 bundles of the last update that had some. -/
def x509Bundles (c : Cache) : Except SourceError X509BundleSet := c.lifecycle.read c.x509

/-- The JWT bundles of the last update that had some. -/
def jwtBundles (c : Cache) : Except SourceError JwtBundleSet := c.lifecycle.read c.jwt

/-- The X.509 bundle of a trust domain. -/
def x509Bundle (c : Cache) (trustDomain : TrustDomain) : Except SourceError X509Bundle := do
  match (← x509Bundles c).find? trustDomain with
  | some bundle => pure bundle
  | none => throw (.bundleNotFound trustDomain)

/-- The JWT bundle of a trust domain. -/
def jwtBundle (c : Cache) (trustDomain : TrustDomain) : Except SourceError JwtBundle := do
  match (← jwtBundles c).find? trustDomain with
  | some bundle => pure bundle
  | none => throw (.bundleNotFound trustDomain)

end BundlesSource
end WorkloadIdentity
