/-
# Waiting for a source

Whoever waits for a source polls: it looks at the token, at the source, at the
task and at the clock, one after the other, and takes the first answer it finds.
If there is none it sleeps until one of them calls it, and polls again.

A source calls when the number of its updates changes. So a poll looks at the
stage only if the number is another one than when it was last looked at; the
first poll always does.

Key definitions: `Wait.Scene`, `Wait.Verdict`, `Wait.poll`.
-/
import WorkloadIdentity.Source.Lifecycle

namespace WorkloadIdentity
namespace Wait

/-- What there is to see at a moment. -/
structure Scene where
  /-- Has the token fired? -/
  cancelled : Bool
  lifecycle : Lifecycle
  /-- How the task has ended, if it has. -/
  result : Option (Except ApiError Unit)
  clock : Nat

/-- What a poll comes to. -/
inductive Verdict where
  | answer (answer : Except SourceError Unit)
  /-- There is no answer yet; the number of updates is kept in mind. -/
  | wait (seen : Nat)

/-- The answer, if there is one. -/
def Verdict.answer? : Verdict → Option (Except SourceError Unit)
  | answer a => some a
  | wait _ => none

theorem Verdict.answer?_eq_some_iff {verdict : Verdict} {a : Except SourceError Unit} :
    verdict.answer? = some a ↔ verdict = .answer a := by
  cases verdict with
  | answer a' => rw [answer?, Option.some.injEq, answer.injEq]
  | wait seen => exact ⟨nofun, nofun⟩

/-- A poll, with the number of updates that is kept in mind, if there has been one
before. Each of the four looks is at a moment of its own. A timeout comes with the
time at which it runs out. -/
def poll (timeout : Option (Duration × Nat)) (seen : Option Nat)
    (token ready task time : Scene) : Verdict :=
  if token.cancelled then .answer (.error .initializationCancelled)
  else if seen ≠ some ready.lifecycle.updates ∧ ready.lifecycle.stage = .initialized then
    .answer (.ok ())
  else
    match task.result, timeout with
    | some (.error cause), _ => .answer (.error (.workloadApi cause))
    | some (.ok ()), _ => .answer (.error .initializationCancelled)
    | none, some (length, deadline) =>
      if deadline ≤ time.clock then .answer (.error (.initializationTimeout length))
      else .wait ready.lifecycle.updates
    | none, none => .wait ready.lifecycle.updates

end Wait
end WorkloadIdentity
