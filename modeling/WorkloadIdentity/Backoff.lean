/-
# Reconnect delays

A `Backoff` hands out delays that grow by one initial delay per attempt up to a
cap. Its counter is a 32-bit word that wraps on increment, while the number of
attempts a delay is made from saturates; a reset puts the counter back to zero.
Where a product does not fit a duration, the cap stands in for it.

Key definitions: `Backoff`, `Backoff.delay`, `Backoff.next`, `Backoff.reset`.
-/
import WorkloadIdentity.Duration

namespace WorkloadIdentity

/-- A linear, capped backoff and its attempt counter. -/
structure Backoff where
  /-- The first delay, and what each further one grows by. -/
  initialDelay : Duration
  /-- No delay is longer. -/
  maxDelay : Duration
  /-- Delays handed out since the last reset. -/
  attempt : UInt32
  deriving DecidableEq, Repr

namespace Backoff

/-- A backoff that has handed out nothing. -/
def new (initialDelay maxDelay : Duration) : Backoff := ⟨initialDelay, maxDelay, 0⟩

/-- One second up to thirty. -/
def standard : Backoff := new ⟨1, 0⟩ ⟨30, 0⟩

/-- The delay after so many attempts before it: the attempts, this one
included, times the initial delay, or the cap if that is less. -/
def delay (b : Backoff) (attemptsBefore : UInt32) : Duration :=
  let attempts := Nat.min (attemptsBefore.toNat + 1) (Nat.pow 2 32 - 1)
  (b.initialDelay.checkedMul attempts).elim b.maxDelay (·.min b.maxDelay)

/-- The next delay, and the backoff after handing it out. -/
@[inline] def next (b : Backoff) : Duration × Backoff :=
  (b.delay b.attempt, { b with attempt := b.attempt + 1 })

/-- Starts the sequence of delays over. -/
def reset (b : Backoff) : Backoff := { b with attempt := 0 }

/-- The same delays, from the start. -/
def fresh (b : Backoff) : Backoff := new b.initialDelay b.maxDelay

end Backoff

end WorkloadIdentity
