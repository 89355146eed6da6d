/-
# What an agent's streams account for

What a watch tells of an attempt is settled by what the agent does in it: every
message before the first failure is handed on, then comes that failure, if there
is one, and a stream that is closed in time is passed over in silence. The next
attempt follows if this one ends, except after a final status. `account` puts
this together, attempt by attempt; it knows nothing of pauses, delays or the
order in which a watch finds things out.

Key definitions: `Item.failure?`, `Attempt.updates`, `Attempt.failure?`,
`Attempt.callbacks`, `Attempt.outcome?`, `ApiError.IsFinal`, `Watch.account`,
`Watch.Reached`.
-/
import Mathlib.Data.List.Basic
import WorkloadIdentity.Watch.Basic

namespace WorkloadIdentity

/-- The agent says that it does not want to be asked again. -/
def ApiError.IsFinal (cause : ApiError) : Prop :=
  ∃ status, cause = .status status ∧ (status.code = .cancelled ∨ status.code = .invalidArgument)

theorem ApiError.isTerminal_iff (cause : ApiError) : cause.isTerminal = true ↔ cause.IsFinal := by
  unfold IsFinal isTerminal
  cases cause with
  | status status => simp [code?, StatusCode.isTerminal]
  | _ => simp [code?]

variable {μ ν : Type} (convert : μ → Except ApiError ν)

/-! ### Items and attempts -/

namespace Item

/-- Why the stream is given up at the item, if it is. -/
def failure? : Item μ → Option ApiError
  | message content =>
    match convert content with
    | .ok _ => none
    | .error cause => some cause
  | status cause => some (.status cause)
  | delay _ => none

/-- What the item means. -/
def value? : Item μ → Option ν
  | message content => (convert content).toOption
  | _ => none

end Item

namespace Attempt

/-- What is handed on: what the messages before the first failure mean. -/
def updates : Attempt μ → List ν
  | rejected _ => []
  | opened items _ =>
    (items.takeWhile fun item => (item.failure? convert).isNone).filterMap (·.value? convert)

/-- The first failure. -/
def failure? : Attempt μ → Option ApiError
  | rejected cause => some (.status cause)
  | opened items _ => items.findSome? (·.failure? convert)

/-- Does the agent close the stream in the end? -/
def closes : Attempt μ → Bool
  | rejected _ => false
  | opened _ closes => closes

/-- The callbacks of a watch in the attempt. -/
def callbacks (attempt : Attempt μ) : List (Watch.Effect ν) :=
  (attempt.updates convert).map .update ++ (attempt.failure? convert).toList.map .failed

/-- How the attempt ends, if it does. -/
def outcome? (attempt : Attempt μ) : Option (Except ApiError Unit) :=
  match attempt.failure? convert with
  | some cause => some (.error cause)
  | none => if attempt.closes then some (.ok ()) else none

/-- The attempt ends, and the agent does not mind being asked again. -/
def IsRetried (attempt : Attempt μ) : Prop :=
  ∃ outcome, attempt.outcome? convert = some outcome ∧
    ∀ cause, outcome = .error cause → ¬ cause.IsFinal

variable (items : List (Item μ)) (closes : Bool)

theorem callbacks_opened_nil : (opened [] closes : Attempt μ).callbacks convert = [] := rfl

theorem outcome?_opened_nil :
    (opened [] closes : Attempt μ).outcome? convert = if closes then some (.ok ()) else none := rfl

theorem callbacks_opened_status (cause : Status) :
    (opened (.status cause :: items) closes).callbacks convert = [.failed (.status cause)] := rfl

theorem outcome?_opened_status (cause : Status) :
    (opened (.status cause :: items) closes).outcome? convert =
      some (.error (.status cause)) := rfl

theorem callbacks_opened_delay (millis : Nat) :
    (opened (.delay millis :: items) closes).callbacks convert =
      (opened items closes).callbacks convert := rfl

theorem outcome?_opened_delay (millis : Nat) :
    (opened (.delay millis :: items) closes).outcome? convert =
      (opened items closes).outcome? convert := rfl

variable {convert} {content : μ}

theorem callbacks_opened_ok {value : ν} (h : convert content = .ok value) :
    (opened (.message content :: items) closes).callbacks convert =
      .update value :: (opened items closes).callbacks convert := by
  have hfailure : (Item.message content).failure? convert = none := by simp [Item.failure?, h]
  have hvalue : (Item.message content).value? convert = some value := by
    simp [Item.value?, h, Except.toOption]
  simp [callbacks, updates, failure?, hfailure, hvalue]

theorem outcome?_opened_ok {value : ν} (h : convert content = .ok value) :
    (opened (.message content :: items) closes).outcome? convert =
      (opened items closes).outcome? convert := by
  have hfailure : (opened (.message content :: items) closes).failure? convert =
      (opened items closes).failure? convert := by simp [failure?, Item.failure?, h]
  unfold outcome?
  rw [hfailure]
  rfl

theorem callbacks_opened_error {cause : ApiError} (h : convert content = .error cause) :
    (opened (.message content :: items) closes).callbacks convert = [.failed cause] := by
  have hfailure : (Item.message content).failure? convert = some cause := by
    simp [Item.failure?, h]
  simp [callbacks, updates, failure?, hfailure]

theorem outcome?_opened_error {cause : ApiError} (h : convert content = .error cause) :
    (opened (.message content :: items) closes).outcome? convert = some (.error cause) := by
  have hfailure : (Item.message content).failure? convert = some cause := by
    simp [Item.failure?, h]
  simp [outcome?, failure?, hfailure]

end Attempt

/-! ### One attempt after another -/

namespace Watch

variable (script : Nat → Attempt μ)

/-- What a watch tells of so many attempts: that it has asked for each, and its
callbacks. -/
def account : Nat → List (Effect ν)
  | 0 => []
  | n + 1 => account n ++ .opened :: (script n).callbacks convert

/-- The attempts before this one have all ended, so it comes about. -/
def Reached (n : Nat) : Prop := ∀ k < n, (script k).IsRetried convert

variable {convert script} {n : Nat}

theorem Reached.succ (h : Reached convert script n) (hlast : (script n).IsRetried convert) :
    Reached convert script (n + 1) := by
  intro k hk
  rcases Nat.lt_succ_iff_lt_or_eq.mp hk with hlt | rfl
  · exact h k hlt
  · exact hlast

theorem Reached.of_le {m : Nat} (h : Reached convert script n) (hle : m ≤ n) :
    Reached convert script m :=
  fun k hk => h k (Nat.lt_of_lt_of_le hk hle)

end Watch
end WorkloadIdentity
