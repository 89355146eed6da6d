/-
# Watches side by side

Tasks run side by side and take turns: a task runs until every watch in it
waits, then the next one in the queue does. A task is woken when a timer of its
watches runs out, in the order in which the timers were set, or when the token
fires, in the order in which the watches came to wait for it; a task that fires
the token itself goes behind those it wakes. The clock moves on only when no
task is in the queue, and then to the next timer.

A task holds watches that are joined: they run in turn, each time beginning with
another one, and one that ends with an error ends the task.

Key definitions: `Watcher`, `World`, `Task`, `Task.poll`, `Schedule`,
`Schedule.settle`, `Schedule.runLooking`, `Schedule.runUntil`.
-/
import WorkloadIdentity.Watch.Basic

namespace WorkloadIdentity
namespace Watch

/-- A session with watches on it and what their callbacks keep. -/
structure World (σ : Type) where
  session : Session
  /-- Has the token fired? -/
  cancelled : Bool
  /-- The steps taken so far, which date waits and timers. -/
  ticks : Nat
  keep : σ

/-- What is done about updates and errors. -/
structure Watcher (σ : Type) where
  onUpdate : StreamKind → Update → World σ → World σ
  onError : StreamKind → ApiError → World σ → World σ

/-- A watch in a task. -/
structure Running where
  stream : StreamKind
  phase : Phase Message
  /-- The tick at which it came to wait for the token. -/
  waitsSince : Nat
  /-- The tick at which its timer was set. -/
  timerSince : Nat

/-- Watches that are joined. -/
structure Task where
  watches : List Running
  /-- How often it has run. -/
  turns : Nat

variable {σ : Type}

namespace World

/-- Writes a record. -/
def log (w : World σ) (level : LogLevel) (text : String) : World σ :=
  { w with session := w.session.log level text }

/-- What an effect of a watch does. -/
def apply (watcher : Watcher σ) (stream : StreamKind) (w : World σ) : Effect Update → World σ
  | .opened =>
    { w with session :=
      { w.session.receive (.stream stream) with agent := w.session.agent.advance stream } }
  | .update value => watcher.onUpdate stream value w
  | .failed cause => watcher.onError stream cause w
  | .log level text => w.log level text

end World

namespace Running

/-- A watch that has not begun. -/
def start (stream : StreamKind) : Running := ⟨stream, .opening, 0, 0⟩

/-- What its next step depends on. -/
def surroundings (r : Running) (w : World σ) : Surroundings Message :=
  ⟨w.cancelled, w.session.clock, w.session.backoff, w.session.agent.next r.stream⟩

/-- The watch in its next phase, with a note of the tick: an attempt and a pause
are waits of their own. -/
def enter (r : Running) (phase : Phase Message) (ticks : Nat) : Running :=
  match r.phase, phase with
  | .opening, _ => { r with phase, waitsSince := ticks }
  | _, .sleeping _ => { r with phase, waitsSince := ticks, timerSince := ticks }
  | _, .awaiting .. => { r with phase, timerSince := ticks }
  | _, _ => { r with phase }

/-- Takes steps until the watch waits or has ended. -/
def go (watcher : Watcher σ) : Nat → Running → World σ → Running × World σ
  | 0, r, w => (r, w)
  | fuel + 1, r, w =>
    match step r.stream.name Message.toUpdate (r.surroundings w) r.phase with
    | none => (r, w)
    | some move =>
      let ticks := w.ticks + 1
      let w := { w with session := { w.session with backoff := move.backoff }, ticks }
      let w := move.effects.foldl (World.apply watcher r.stream) w
      let r := r.enter move.phase ticks
      if move.phase.isSuspended then (r, w) else go watcher fuel r w

end Running

namespace Task

/-- The result of a task: the first error, or none once all its watches have
ended. -/
def result? (t : Task) : Option (Except ApiError Unit) :=
  match t.watches.findSome? fun r => r.phase.result?.bind fun
    | .error cause => some cause
    | .ok () => none with
  | some cause => some (.error cause)
  | none => if t.watches.all (·.phase.result?.isSome) then some (.ok ()) else none

/-- The positions of the watches in the order of the next turn. -/
def order (t : Task) : List Nat :=
  (List.range t.watches.length).map fun i => (t.turns + i) % t.watches.length

/-- How much the streams that watches have open may still bring. -/
def openSize : List Running → Nat
  | [] => 0
  | r :: rest => r.phase.size + 1 + openSize rest

/-- More steps than the watches of a task can take in a turn. -/
def fuel (t : Task) (w : World σ) : Nat := 4 * (w.session.agent.size + openSize t.watches) + 8

/-- Lets the watch at a position run, unless one has ended with an error. -/
def runWatch (watcher : Watcher σ) (fuel : Nat) (state : Task × World σ) (i : Nat) :
    Task × World σ :=
  let (t, w) := state
  match t.result?, t.watches[i]? with
  | none, some r =>
    let (r, w) := r.go watcher fuel w
    ({ t with watches := t.watches.set i r }, w)
  | _, _ => (t, w)

/-- A turn of a task. -/
def poll (watcher : Watcher σ) (t : Task) (w : World σ) : Task × World σ :=
  let (after, w) := t.order.foldl (runWatch watcher (t.fuel w)) (t, w)
  ({ after with turns := t.turns + 1 }, w)

/-- The waits of a task that has not ended: when each began. -/
def waits (t : Task) : List Nat :=
  if t.result?.isSome then []
  else t.watches.filterMap fun r => if r.phase.isSuspended then some r.waitsSince else none

/-- The timers of a task that has not ended: when each was set and when it runs
out. -/
def timers (t : Task) : List (Nat × Nat) :=
  if t.result?.isSome then []
  else t.watches.filterMap fun r => r.phase.timer?.map fun timer => (r.timerSince, timer)

end Task

/-- What is in the queue. -/
inductive Job where
  /-- The turn of the task at a position. -/
  | turn (task : Nat)
  /-- The token fires. -/
  | fire
  deriving DecidableEq, Repr

/-- Tasks that take turns. -/
structure Schedule (σ : Type) where
  world : World σ
  tasks : List Task
  queue : List Job
  /-- When the token fires by itself; this timer was set before all others. -/
  fireAt : Option Nat

namespace Schedule

/-- Tasks on a session, none of which has run. -/
def start (session : Session) (keep : σ) (cancelled : Bool) (fireAt : Option Nat)
    (tasks : List (List StreamKind)) : Schedule σ where
  world := ⟨session, cancelled, 0, keep⟩
  tasks := tasks.map fun streams => ⟨streams.map Running.start, 0⟩
  queue := (List.range tasks.length).map .turn
  fireAt

/-- The positions of tasks in the order of what they are sorted by. -/
def inOrder (keyed : List (Nat × Nat)) : List Nat :=
  (keyed.mergeSort fun a b => a.1 ≤ b.1).map (·.2)

/-- Puts the turns of tasks behind the others, unless they are in the queue
already. -/
def enqueue (s : Schedule σ) (positions : List Nat) : Schedule σ :=
  { s with queue := positions.foldl (fun queue i =>
      if queue.contains (.turn i) then queue else queue ++ [.turn i]) s.queue }

/-- The tasks that wait for the token, except the one at a position. -/
def waiting (s : Schedule σ) (but : Option Nat) : List Nat :=
  inOrder (s.tasks.zipIdx.flatMap fun (t, i) =>
    if but = some i then [] else t.waits.map fun tick => (tick, i))

/-- The token fires. -/
def fire (s : Schedule σ) : Schedule σ :=
  if s.world.cancelled then s
  else { s with world := { s.world with cancelled := true } }.enqueue (s.waiting none)

/-- The turn of the task at a position. -/
def turn (watcher : Watcher σ) (s : Schedule σ) (i : Nat) : Schedule σ :=
  match s.tasks[i]? with
  | none => s
  | some t =>
    if t.result?.isSome then s
    else
      let (t, world) := t.poll watcher s.world
      let after := { s with world, tasks := s.tasks.set i t }
      if world.cancelled && !s.world.cancelled then
        after.enqueue (after.waiting (some i) ++ (if t.result?.isSome then [] else [i]))
      else after

/-- Empties the queue. -/
def settleIn (watcher : Watcher σ) : Nat → Schedule σ → Schedule σ
  | 0, s => s
  | fuel + 1, s =>
    match s.queue with
    | [] => s
    | .turn i :: queue => settleIn watcher fuel (turn watcher { s with queue } i)
    | .fire :: queue => settleIn watcher fuel { s with queue, fireAt := none }.fire

/-- Lets tasks take their turns until all of them wait. -/
def settle (watcher : Watcher σ) (s : Schedule σ) : Schedule σ :=
  settleIn watcher (s.queue.length + s.tasks.length + 1) s

/-- When the next timer runs out. -/
def nextTimer? (s : Schedule σ) : Option Nat :=
  (s.fireAt.toList ++ s.tasks.flatMap fun t => t.timers.map (·.2)).min?

/-- Sets the clock and wakes the tasks whose timers run out then. -/
def moveTo (s : Schedule σ) (clock : Nat) : Schedule σ :=
  let woken := inOrder (s.tasks.zipIdx.flatMap fun (t, i) =>
    t.timers.filterMap fun (set, timer) => if timer = clock then some (set, i) else none)
  { s with
    world := { s.world with session := { s.world.session with clock } }
    queue := if s.fireAt = some clock then s.queue ++ [Job.fire] else s.queue }.enqueue woken

/-- Runs while someone looks on who keeps something in mind from one look to the
next, until it has seen enough, or until a time comes. It looks whenever all
tasks wait; tasks with a timer for the time have not had their turns when that
comes. There is no result if nothing is left to wait for. -/
def runLooking {M : Type} (watcher : Watcher σ) (until? : Option Nat)
    (look : M → Schedule σ → Option M) : Nat → M → Schedule σ → Option (M × Schedule σ)
  | 0, _, _ => none
  | fuel + 1, mind, s =>
    let s := s.settle watcher
    match look mind s with
    | none => some (mind, s)
    | some mind =>
      match s.nextTimer?, until? with
      | none, none => none
      | none, some clock => some (mind, s.moveTo clock)
      | some timer, none => runLooking watcher until? look fuel mind (s.moveTo timer)
      | some timer, some clock =>
        if clock ≤ timer then some (mind, s.moveTo clock)
        else runLooking watcher until? look fuel mind (s.moveTo timer)

/-- Runs until a condition holds at a look, or until a time comes. -/
def runIn (watcher : Watcher σ) (until? : Option Nat) (holds : Schedule σ → Bool) (fuel : Nat)
    (s : Schedule σ) : Option (Schedule σ) :=
  (runLooking watcher until? (fun _ s => if holds s then none else some ()) fuel () s).map (·.2)

/-- More timers than can be set. -/
def fuel (s : Schedule σ) : Nat :=
  2 * (s.world.session.agent.size + Task.openSize (s.tasks.flatMap (·.watches))) + 4

/-- Runs until a condition holds while all tasks wait, or until a time comes. -/
def runUntil (watcher : Watcher σ) (until? : Option Nat) (holds : Schedule σ → Bool)
    (s : Schedule σ) : Option (Schedule σ) :=
  runIn watcher until? holds s.fuel s

/-- The results of the tasks that have ended. -/
def results (s : Schedule σ) : List (Option (Except ApiError Unit)) := s.tasks.map Task.result?

/-- Have all tasks ended? -/
def isOver (s : Schedule σ) : Bool := s.tasks.all (·.result?.isSome)

end Schedule
end Watch
end WorkloadIdentity
