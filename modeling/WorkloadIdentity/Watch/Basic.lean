/-
# Watches

A watch asks an agent for a stream and hands on what its messages mean, until
the stream ends: because the agent closes it, because the agent refuses it or
sends a status, or because a message makes no sense. It then pauses for the next
delay of a backoff and asks again; a message handed on resets the backoff. A
terminal status ends the watch.

A token cancels the watch where it waits, for the agent or in a pause, and before
it asks for a stream. What has come in by then is handed on all the same.

A watch is a machine that moves in small steps. In the phases `awaiting` and
`sleeping` it is suspended: a step wakes it up if the token has fired or its
timer has run out.

Key definitions: `Phase`, `Effect`, `Surroundings`, `Watch.step`.
-/
import WorkloadIdentity.Agent.Client

namespace WorkloadIdentity
namespace Watch

/-- Where a watch stands. -/
inductive Phase (μ : Type) where
  /-- About to ask for a stream. -/
  | opening
  /-- Reads what a stream brings next. -/
  | reading (items : List (Item μ)) (closes : Bool)
  /-- An attempt has ended. -/
  | over (outcome : Except ApiError Unit)
  /-- About to pause. -/
  | pausing (delay : Duration)
  /-- Suspended until a stream brings something; none of that comes before the
  timer, and nothing at all without one. -/
  | awaiting (timer : Option Nat) (items : List (Item μ)) (closes : Bool)
  /-- Suspended until the pause is over. -/
  | sleeping (timer : Nat)
  | ended (result : Except ApiError Unit)

namespace Phase

variable {μ : Type}

/-- Does the watch wait? -/
def isSuspended : Phase μ → Bool
  | awaiting .. | sleeping _ => true
  | _ => false

/-- When the watch goes on by itself. -/
def timer? : Phase μ → Option Nat
  | awaiting timer _ _ => timer
  | sleeping timer => some timer
  | _ => none

/-- The result of a watch that has ended. -/
def result? : Phase μ → Option (Except ApiError Unit)
  | ended result => some result
  | _ => none

/-- How much a stream that has been opened may still bring. -/
def size : Phase μ → Nat
  | reading items _ | awaiting _ items _ => items.length
  | _ => 0

end Phase

/-- What a step does to those around a watch. -/
inductive Effect (ν : Type) where
  /-- The agent has been asked for a stream. -/
  | opened
  | update (value : ν)
  | failed (cause : ApiError)
  | log (level : LogLevel) (text : String)

/-- What a step depends on. -/
structure Surroundings (μ : Type) where
  /-- Has the token fired? -/
  cancelled : Bool
  clock : Nat
  backoff : Backoff
  /-- What comes of asking for a stream. -/
  next : Attempt μ

/-- What a step comes to. -/
structure Move (μ ν : Type) where
  phase : Phase μ
  backoff : Backoff
  effects : List (Effect ν)

section

variable {μ ν : Type} (name : String) (convert : μ → Except ApiError ν) (around : Surroundings μ)

/-- A step with no effect. -/
def goOn (phase : Phase μ) : Move μ ν := ⟨phase, around.backoff, []⟩

/-- The watch ends because the token has fired. -/
def stop : Move μ ν :=
  ⟨.ended (.ok ()), around.backoff, [.log .debug (name ++ " watch cancelled")]⟩

/-- The attempt begins. -/
def openStream : Move μ ν :=
  match around.next with
  | .rejected cause => ⟨.over (.error (.status cause)), around.backoff, [.opened]⟩
  | .opened items closes => ⟨.reading items closes, around.backoff, [.opened]⟩

/-- The next item of a stream is read. -/
def readItem (closes : Bool) : List (Item μ) → Move μ ν
  | [] => goOn around (if closes then .over (.ok ()) else .awaiting none [] false)
  | .message content :: rest =>
    match convert content with
    | .ok value => ⟨.reading rest closes, around.backoff.reset, [.update value]⟩
    | .error cause => goOn around (.over (.error cause))
  | .status cause :: _ => goOn around (.over (.error (.status cause)))
  | .delay 0 :: rest => goOn around (.reading rest closes)
  | .delay millis :: rest => goOn around (.awaiting (some (around.clock + millis)) rest closes)

/-- An attempt that the agent has closed is followed by a pause. -/
def closed : Move μ ν :=
  let (delay, backoff) := around.backoff.next
  ⟨.pausing delay, backoff,
    [.log .debug (name ++ " stream closed by the agent, reconnecting in " ++ delay.text)]⟩

/-- An attempt that has failed is followed by a pause, unless the failure is
terminal. -/
def failed (cause : ApiError) : Move μ ν :=
  if cause.isTerminal then
    ⟨.ended (.error cause), around.backoff,
      [.failed cause, .log .error (name ++ " watch stopped: " ++ cause.message)]⟩
  else
    let (delay, backoff) := around.backoff.next
    ⟨.pausing delay, backoff,
      [.failed cause,
        .log .warn (name ++ " watch failed, retrying in " ++ delay.text ++ ": " ++ cause.message)]⟩

/-- One step; there is none while the watch has to wait, nor when it has
ended. -/
def step : Phase μ → Option (Move μ ν)
  | .opening => some (if around.cancelled then stop name around else openStream around)
  | .reading items closes => some (readItem convert around closes items)
  | .over (.ok ()) => some (closed name around)
  | .over (.error cause) => some (failed name around cause)
  | .pausing delay => some (
    if around.cancelled then stop name around
    else if delay.ceilMillis = 0 then goOn around .opening
    else goOn around (.sleeping (around.clock + delay.ceilMillis)))
  | .awaiting timer items closes =>
    if around.cancelled then some (stop name around)
    else if timer.any (· ≤ around.clock) then some (goOn around (.reading items closes))
    else none
  | .sleeping timer =>
    if around.cancelled then some (stop name around)
    else if timer ≤ around.clock then some (goOn around .opening)
    else none
  | .ended _ => none

end

end Watch
end WorkloadIdentity
