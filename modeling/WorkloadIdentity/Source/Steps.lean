/-
# Programs in atomic steps

Several threads may work on one state. What each does is a program of steps that
happen as a whole: a step looks at the state, tells something, changes the
state, and goes on with what it has seen. The steps of different threads may
come in any order; a thread left alone runs to its end.

Key definitions: `Steps`, `Steps.run`.
-/

namespace WorkloadIdentity

/-- A program on a state of type `S` that tells things of type `E`. -/
inductive Steps (S E : Type) where
  | done
  /-- One step: what it tells, what it leaves, and how to go on; each depends on
  the state before the step. -/
  | act (tells : S → List E) (change : S → S) (next : S → Steps S E)

namespace Steps

variable {S E : Type}

/-- A step that only looks. -/
def look (next : S → Steps S E) : Steps S E := act (fun _ => []) id next

/-- A step that changes the state whatever it is. -/
def change (f : S → S) (next : Steps S E) : Steps S E := act (fun _ => []) f fun _ => next

/-- A step that tells one thing. -/
def tell (e : E) (next : Steps S E) : Steps S E := act (fun _ => [e]) id fun _ => next

/-- What a program left alone tells, and the state at its end. -/
def run : Steps S E → S → List E × S
  | done, s => ([], s)
  | act tells change next, s =>
    let (more, after) := (next s).run (change s)
    (tells s ++ more, after)

end Steps
end WorkloadIdentity
