/-
# Recorded watches

Watches whose callbacks are recorded, with the clock, until all of them have
ended. The token fires at a time, or from inside the callback of a given number.

Key definitions: `Event`, `Recording`, `Session.watch`.
-/
import WorkloadIdentity.Watch.Schedule

namespace WorkloadIdentity
namespace Watch

/-- A callback. -/
structure Event where
  stream : StreamKind
  clock : Nat
  content : Except ApiError Update

/-- What recording callbacks keep. -/
structure Recording where
  /-- The callbacks, the last one first. -/
  events : List Event
  /-- The callback that fires the token. -/
  fireAfter : Option Nat

/-- Records a callback and fires the token if it is the one to do so. -/
def record (stream : StreamKind) (content : Except ApiError Update) (w : World Recording) :
    World Recording :=
  let events := ⟨stream, w.session.clock, content⟩ :: w.keep.events
  { w with
    keep := { w.keep with events }
    cancelled := w.cancelled || w.keep.fireAfter == some events.length }

/-- Records every callback. -/
def recorder : Watcher Recording where
  onUpdate stream value := record stream (.ok value)
  onError stream cause := record stream (.error cause)

/-- How watches went. -/
structure Report where
  events : List Event
  results : List (Option (Except ApiError Unit))
  session : Session

end Watch

/-- Watches streams side by side until all watches have ended: the token has
fired already, or fires in a callback or so many milliseconds from now. -/
def Session.watch (s : Session) (streams : List StreamKind) (cancelled : Bool)
    (fireAfter : Option Nat) (fireAt : Nat) : Option Watch.Report :=
  let schedule := Watch.Schedule.start s ⟨[], fireAfter⟩ cancelled (some (s.clock + fireAt))
    (streams.map fun stream => [stream])
  (schedule.runUntil Watch.recorder none Watch.Schedule.isOver).map fun after =>
    ⟨after.world.keep.events.reverse, after.results, after.world.session⟩

end WorkloadIdentity
