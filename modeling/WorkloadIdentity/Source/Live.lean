/-
# Live sources

A live source has a task that watches the agent and installs every update. It is
handed out once it is ready. Before that, the token may fire, the task may end,
or time may run out; of several that have come about at once, the token counts
first, then an update, then the task. Whoever creates it polls when its task
waits, and then all updates that it has begun to install are through.

Disposing of a source does not stop its task; only the token does.

Key definitions: `SourceKind`, `SourceKind.x509`, `SourceKind.jwt`,
`SourceKind.bundles`, `SourceKind.poll`, `SourceKind.await`, `SourceKind.create`,
`SourceKind.sleep`, `SourceKind.disposeOf`.
-/
import WorkloadIdentity.Source.Bundle
import WorkloadIdentity.Source.Jwt
import WorkloadIdentity.Source.Wait
import WorkloadIdentity.Source.X509
import WorkloadIdentity.Watch.Schedule

namespace WorkloadIdentity

/-- A kind of source, which keeps a `C`. -/
structure SourceKind (C : Type) where
  title : String
  /-- The streams that its task watches. -/
  streams : List StreamKind
  fresh : C
  lifecycle : C → Lifecycle
  install : Update → Steps C SourceEvent
  dispose : Steps C SourceEvent
  /-- What errors of a stream are told under. -/
  errorTitle : StreamKind → String

/-- What a live source keeps. -/
structure Held (C : Type) where
  cache : C
  /-- The identities whose keys have been let go of, the last one first. -/
  released : List X509Svid

/-- A source of one's own identities. -/
def SourceKind.x509 (pick : Picker) : SourceKind X509Source.Cache where
  title := "X.509 source"
  streams := [.x509Context]
  fresh := .fresh
  lifecycle := (·.lifecycle)
  install
    | .x509Context context => X509Source.install pick context
    | _ => .done
  dispose := X509Source.dispose
  errorTitle _ := "X.509 source"

/-- A source of the keys of token issuers. -/
def SourceKind.jwt : SourceKind JwtSource.Cache where
  title := "JWT source"
  streams := [.jwtBundles]
  fresh := .fresh
  lifecycle := (·.lifecycle)
  install
    | .jwtBundles bundles => JwtSource.install bundles
    | _ => .done
  dispose := JwtSource.dispose
  errorTitle _ := "JWT source"

/-- A source of the bundles of both kinds. -/
def SourceKind.bundles : SourceKind BundlesSource.Cache where
  title := "Bundle source"
  streams := [.x509Bundles, .jwtBundles]
  fresh := .fresh
  lifecycle := (·.lifecycle)
  install
    | .x509Bundles bundles => BundlesSource.installX509 bundles
    | .jwtBundles bundles => BundlesSource.installJwt bundles
    | .x509Context _ => .done
  dispose := BundlesSource.dispose
  errorTitle
    | .jwtBundles => "Bundle source JWT"
    | _ => "Bundle source X.509"

/-- A live source: its task and what it keeps. -/
abbrev LiveSource (C : Type) := Watch.Schedule (Held C)

namespace SourceKind

variable {C : Type} (kind : SourceKind C)

/-- What an event of a source does. -/
def tell (w : Watch.World (Held C)) : SourceEvent → Watch.World (Held C)
  | .log level text => w.log level text
  | .released svid => { w with keep := { w.keep with released := svid :: w.keep.released } }

/-- Runs a program on what the source keeps. -/
def perform (program : Steps C SourceEvent) (w : Watch.World (Held C)) : Watch.World (Held C) :=
  let (events, cache) := program.run w.keep.cache
  events.foldl tell { w with keep := { w.keep with cache } }

/-- Installs every update. -/
def watcher : Watch.Watcher (Held C) where
  onUpdate _ update := perform (kind.install update)
  onError stream cause w :=
    w.log .debug (kind.errorTitle stream ++ " watch error: " ++ cause.message)

/-- What whoever creates the source can see; a source has one task. -/
def scene (s : LiveSource C) : Wait.Scene :=
  ⟨s.world.cancelled, kind.lifecycle s.world.keep.cache, s.results.head?.join,
    s.world.session.clock⟩

/-- A poll that nothing comes in between. -/
def poll (timeout : Option (Duration × Nat)) (seen : Option Nat) (s : LiveSource C) :
    Wait.Verdict :=
  Wait.poll timeout seen (kind.scene s) (kind.scene s) (kind.scene s) (kind.scene s)

/-- What is kept in mind from one poll to the next, as long as there is no answer. -/
def look (timeout : Option (Duration × Nat)) (seen : Nat) (s : LiveSource C) : Option Nat :=
  match kind.poll timeout (some seen) s with
  | .answer _ => none
  | .wait seen => some seen

/-- Polls until there is an answer; there is none if nothing is left to wait for. -/
def await (timeout : Option (Duration × Nat)) (s : LiveSource C) :
    Option (Except SourceError Unit × LiveSource C) :=
  match kind.poll timeout none s with
  | .answer answer => some (answer, s)
  | .wait seen =>
    (s.runLooking kind.watcher (timeout.map (·.2)) (kind.look timeout) s.fuel seen).bind
      fun (seen, s) => (kind.poll timeout (some seen) s).answer?.map fun answer => (answer, s)

/-- Creates a source, with a token that has fired already or fires at a time,
and waits until it is ready, at most for a timeout. There is no result if it
never becomes so. The source's delays are its own. -/
def create (session : Session) (cancelled : Bool) (fireAt : Option Nat)
    (timeout : Option Duration) : Option (Except SourceError Unit × LiveSource C) :=
  let session := { session with backoff := session.backoff.fresh }
  let timeout := timeout.map fun length => (length, session.clock + length.ceilMillis)
  let begun := Watch.Schedule.start session ⟨kind.fresh, []⟩ cancelled fireAt [kind.streams]
  (kind.await timeout begun).map fun
    | (.ok (), s) => (.ok (), { s with world := s.world.log .info (kind.title ++ " initialized") })
    | (.error e, s) => (.error e, s)

/-- Lets so many milliseconds pass. -/
def sleep (millis : Nat) (s : LiveSource C) : LiveSource C :=
  if millis = 0 then s
  else (s.runUntil kind.watcher (some (s.world.session.clock + millis)) fun _ => false).getD s

/-- Disposes of the source. -/
def disposeOf (s : LiveSource C) : LiveSource C :=
  { s with world := perform kind.dispose s.world }

/-- The number of updates so far. -/
def updates (s : LiveSource C) : Nat := (kind.lifecycle s.world.keep.cache).updates

end SourceKind
end WorkloadIdentity
