/-
# Watches from poll to poll

A watch that is polled takes a step, if there is one for what is around it then.
Its surroundings are not its own: the clock, the token and a backoff that other
watches may share are given poll by poll, and only what the agent does is a
script, of which each attempt is used up as its stream is asked for. `moment`
is what a watch has come to after so many polls: its phase, the number of
streams asked for, and all that it has told.

What is told without records only ever grows (`seen_le`), and while time
passes a watch that can go on does (`exists_step`).

Key definitions: `Watch.Poll`, `Watch.Moment`, `Watch.moment`,
`Watch.Moment.seen`, `Watch.Moment.callbacks`, `Watch.NeverCancelled`,
`Watch.TimePasses`, `Watch.LiveStep`, `Watch.Taken`.
Key theorems: `Watch.moment_inv`, `Watch.seen_le`, `Watch.liveStep_of_step`,
`Watch.taken_of_step`, `Watch.exists_step`.
-/
import Mathlib.Data.Nat.Find
import WorkloadIdentity.Proofs.Watch.Account

namespace WorkloadIdentity
namespace Watch

variable {μ ν : Type}

/-! ### Polls -/

/-- What is around a watch when it is polled, apart from the agent. -/
structure Poll where
  cancelled : Bool
  clock : Nat
  backoff : Backoff

/-- With what comes of asking for a stream. -/
def Poll.around (poll : Poll) (next : Attempt μ) : Surroundings μ :=
  ⟨poll.cancelled, poll.clock, poll.backoff, next⟩

/-- How far a watch has come. -/
structure Moment (μ ν : Type) where
  phase : Phase μ
  /-- How many streams it has asked for. -/
  opened : Nat
  /-- All effects so far, in order. -/
  told : List (Effect ν)

/-- Is this no more than a record? -/
def Effect.isRecord : Effect ν → Bool
  | .log .. => true
  | _ => false

/-- Has a stream been asked for? -/
def Effect.isOpening : Effect ν → Bool
  | .opened => true
  | _ => false

/-- What an effect calls back with. -/
def Effect.callback? : Effect ν → Option (Except ApiError ν)
  | .update value => some (.ok value)
  | .failed cause => some (.error cause)
  | _ => none

namespace Moment

/-- A watch that has not begun. -/
def start : Moment μ ν := ⟨.opening, 0, []⟩

/-- The streams asked for and the callbacks, in order. -/
def seen (m : Moment μ ν) : List (Effect ν) := m.told.filter (!·.isRecord)

/-- The callbacks, in order. -/
def callbacks (m : Moment μ ν) : List (Except ApiError ν) := m.told.filterMap Effect.callback?

/-- After a step, if there is one. -/
def after (m : Moment μ ν) : Option (Move μ ν) → Moment μ ν
  | none => m
  | some move =>
    ⟨move.phase, m.opened + move.effects.countP Effect.isOpening, m.told ++ move.effects⟩

end Moment

variable (name : String) (convert : μ → Except ApiError ν) (script : Nat → Attempt μ)
  (polls : Nat → Poll)

/-- The step that a watch takes when it is polled. -/
def move? (m : Moment μ ν) (poll : Poll) : Option (Move μ ν) :=
  step name convert (poll.around (script m.opened)) m.phase

/-- The watch after so many polls. -/
def moment : Nat → Moment μ ν
  | 0 => .start
  | i + 1 => (moment i).after (move? name convert script (moment i) (polls i))

/-- The token does not fire. -/
def NeverCancelled : Prop := ∀ i, (polls i).cancelled = false

/-- Whatever the time, it comes and does not come back. -/
def TimePasses : Prop := ∀ t, ∃ i, ∀ j, i ≤ j → t ≤ (polls j).clock

variable {name convert script polls} {i : Nat}

theorem seen_after (m : Moment μ ν) (move : Move μ ν) :
    (m.after (some move)).seen = m.seen ++ move.effects.filter (!·.isRecord) :=
  List.filter_append _ _

theorem callbacks_after (m : Moment μ ν) (move : Move μ ν) :
    (m.after (some move)).callbacks = m.callbacks ++ move.effects.filterMap Effect.callback? :=
  List.filterMap_append

/-- What is no more than a record does not call back. -/
theorem callbacks_of_seen (m : Moment μ ν) :
    m.seen.filterMap Effect.callback? = m.callbacks := by
  rw [Moment.seen, List.filterMap_filter]
  refine List.filterMap_congr fun e _ => ?_
  cases e <;> rfl

theorem moment_succ_of_some {move : Move μ ν}
    (h : move? name convert script (moment name convert script polls i) (polls i) = some move) :
    moment name convert script polls (i + 1) =
      (moment name convert script polls i).after (some move) := by
  rw [moment, h]

theorem moment_succ_of_none
    (h : move? name convert script (moment name convert script polls i) (polls i) = none) :
    moment name convert script polls (i + 1) = moment name convert script polls i := by
  rw [moment, h]
  rfl

/-- Only the polls so far matter. -/
theorem moment_congr {polls' : Nat → Poll} :
    ∀ {i : Nat}, (∀ j < i, polls j = polls' j) →
      moment name convert script polls i = moment name convert script polls' i
  | 0, _ => rfl
  | i + 1, h => by
    rw [moment, moment, moment_congr fun j hj => h j (Nat.lt_succ_of_lt hj),
      h i (Nat.lt_succ_self i)]

/-- An invariant that every step keeps holds at every moment. -/
theorem moment_inv {P : Moment μ ν → Prop} (hstart : P .start)
    (hstep : ∀ i move, P (moment name convert script polls i) →
      move? name convert script (moment name convert script polls i) (polls i) = some move →
      P ((moment name convert script polls i).after (some move))) :
    ∀ i, P (moment name convert script polls i)
  | 0 => hstart
  | i + 1 => by
    have ih := moment_inv hstart hstep i
    cases hmove : move? name convert script (moment name convert script polls i) (polls i) with
    | none => rwa [moment_succ_of_none hmove]
    | some move =>
      rw [moment_succ_of_some hmove]
      exact hstep i move ih hmove

/-- What has been told stays told. -/
theorem seen_le {j : Nat} (hij : i ≤ j) :
    (moment name convert script polls i).seen <+: (moment name convert script polls j).seen := by
  induction hij with
  | refl => exact List.prefix_refl _
  | @step j _ ih =>
    refine ih.trans ?_
    cases hmove : move? name convert script (moment name convert script polls j) (polls j) with
    | none => exact (moment_succ_of_none hmove).symm ▸ List.prefix_refl _
    | some move =>
      rw [moment_succ_of_some hmove, seen_after]
      exact List.prefix_append _ _

/-! ### Steps with the token not fired -/

/-- What a step comes to in each phase as long as the token has not fired. -/
inductive LiveStep (name : String) (convert : μ → Except ApiError ν) (around : Surroundings μ) :
    Phase μ → Move μ ν → Prop
  | opening : LiveStep name convert around .opening (openStream around)
  | reading (items : List (Item μ)) (closes : Bool) :
    LiveStep name convert around (.reading items closes) (readItem convert around closes items)
  | closed : LiveStep name convert around (.over (.ok ())) (closed name around)
  | failed (cause : ApiError) :
    LiveStep name convert around (.over (.error cause)) (failed name around cause)
  | skipping (delay : Duration) (h : delay.ceilMillis = 0) :
    LiveStep name convert around (.pausing delay) (goOn around .opening)
  | pausing (delay : Duration) (h : delay.ceilMillis ≠ 0) :
    LiveStep name convert around (.pausing delay)
      (goOn around (.sleeping (around.clock + delay.ceilMillis)))
  | arriving (timer : Nat) (items : List (Item μ)) (closes : Bool) (h : timer ≤ around.clock) :
    LiveStep name convert around (.awaiting (some timer) items closes)
      (goOn around (.reading items closes))
  | waking (timer : Nat) (h : timer ≤ around.clock) :
    LiveStep name convert around (.sleeping timer) (goOn around .opening)

theorem liveStep_of_step {around : Surroundings μ} {phase : Phase μ} {move : Move μ ν}
    (hlive : around.cancelled = false) (hmove : step name convert around phase = some move) :
    LiveStep name convert around phase move := by
  cases phase with
  | opening =>
    simp only [step, hlive, Bool.false_eq_true, if_false] at hmove
    obtain rfl := Option.some.inj hmove
    exact .opening
  | reading items closes =>
    obtain rfl := Option.some.inj hmove
    exact .reading items closes
  | «over» outcome =>
    cases outcome <;> obtain rfl := Option.some.inj hmove
    · exact .failed _
    · exact .closed
  | pausing delay =>
    simp only [step, hlive, Bool.false_eq_true, if_false] at hmove
    obtain rfl := Option.some.inj hmove
    split
    · rename_i h
      exact .skipping delay h
    · rename_i h
      exact .pausing delay h
  | awaiting timer items closes =>
    cases timer with
    | none => simp [step, hlive] at hmove
    | some timer =>
      simp only [step, hlive, Bool.false_eq_true, if_false] at hmove
      split at hmove
      · rename_i h
        obtain rfl := Option.some.inj hmove
        exact .arriving timer items closes (of_decide_eq_true h)
      · cases hmove
  | sleeping timer =>
    simp only [step, hlive, Bool.false_eq_true, if_false] at hmove
    split at hmove
    · rename_i h
      obtain rfl := Option.some.inj hmove
      exact .waking timer h
    · cases hmove
  | ended result => cases hmove

/-! ### All steps -/

section

variable {around : Surroundings μ} {phase : Phase μ} {move : Move μ ν}

/-- The phases in which a watch looks at its token. -/
def Phase.IsGuarded : Phase μ → Prop
  | .opening | .pausing _ | .awaiting .. | .sleeping _ => True
  | _ => False

theorem Phase.ne_opening (h : ¬ phase.IsGuarded) : phase ≠ .opening := by
  rintro rfl
  exact h trivial

theorem step_of_isGuarded (h : phase.IsGuarded) (hcancelled : around.cancelled = true) :
    step name convert around phase = some (stop name around) := by
  cases phase with
  | opening | pausing | awaiting | sleeping => simp [step, hcancelled]
  | _ => exact h.elim

/-- Elsewhere the token makes no difference. -/
theorem step_of_not_isGuarded (h : ¬ phase.IsGuarded) (cancelled : Bool) :
    step name convert { around with cancelled } phase = step name convert around phase := by
  cases phase with
  | opening | pausing | awaiting | sleeping => exact absurd trivial h
  | reading items closes => rfl
  | «over» outcome => cases outcome <;> rfl
  | ended result => rfl

/-- A step that the token does not cut short is one of a watch that goes on. -/
theorem liveStep_of_not_isGuarded (h : ¬ phase.IsGuarded)
    (hmove : step name convert around phase = some move) :
    LiveStep name convert { around with cancelled := false } phase move :=
  liveStep_of_step rfl ((step_of_not_isGuarded h false).trans hmove)

/-- What follows upon a failure that is not terminal. -/
def retry (name : String) (around : Surroundings μ) (cause : ApiError) : Move μ ν :=
  ⟨.pausing around.backoff.next.1, around.backoff.next.2,
    [.failed cause, .log .warn (name ++ " watch failed, retrying in " ++
      around.backoff.next.1.text ++ ": " ++ cause.message)]⟩

/-- Everything that a step can come to, and when. -/
inductive Taken (name : String) (convert : μ → Except ApiError ν) (around : Surroundings μ) :
    Phase μ → Move μ ν → Prop
  | stopped (phase : Phase μ) (h : phase.IsGuarded) (hcancelled : around.cancelled = true) :
    Taken name convert around phase (stop name around)
  | rejected (cause : Status) (h : around.next = .rejected cause) :
    Taken name convert around .opening
      ⟨.over (.error (.status cause)), around.backoff, [.opened]⟩
  | opened (items : List (Item μ)) (closes : Bool) (h : around.next = .opened items closes) :
    Taken name convert around .opening ⟨.reading items closes, around.backoff, [.opened]⟩
  | closing : Taken name convert around (.reading [] true) (goOn around (.over (.ok ())))
  | silent : Taken name convert around (.reading [] false) (goOn around (.awaiting none [] false))
  | handed (content : μ) (value : ν) (rest : List (Item μ)) (closes : Bool)
    (h : convert content = .ok value) :
    Taken name convert around (.reading (.message content :: rest) closes)
      ⟨.reading rest closes, around.backoff.reset, [.update value]⟩
  | unread (content : μ) (cause : ApiError) (rest : List (Item μ)) (closes : Bool)
    (h : convert content = .error cause) :
    Taken name convert around (.reading (.message content :: rest) closes)
      (goOn around (.over (.error cause)))
  | status (cause : Status) (rest : List (Item μ)) (closes : Bool) :
    Taken name convert around (.reading (.status cause :: rest) closes)
      (goOn around (.over (.error (.status cause))))
  | passing (rest : List (Item μ)) (closes : Bool) :
    Taken name convert around (.reading (.delay 0 :: rest) closes)
      (goOn around (.reading rest closes))
  | waiting (millis : Nat) (rest : List (Item μ)) (closes : Bool) (h : millis ≠ 0) :
    Taken name convert around (.reading (.delay millis :: rest) closes)
      (goOn around (.awaiting (some (around.clock + millis)) rest closes))
  | closed : Taken name convert around (.over (.ok ())) (closed name around)
  | final (cause : ApiError) (h : cause.isTerminal = true) :
    Taken name convert around (.over (.error cause))
      ⟨.ended (.error cause), around.backoff,
        [.failed cause, .log .error (name ++ " watch stopped: " ++ cause.message)]⟩
  | retried (cause : ApiError) (h : cause.isTerminal = false) :
    Taken name convert around (.over (.error cause)) (retry name around cause)
  | skipping (delay : Duration) (h : delay.ceilMillis = 0) :
    Taken name convert around (.pausing delay) (goOn around .opening)
  | pausing (delay : Duration) (h : delay.ceilMillis ≠ 0) :
    Taken name convert around (.pausing delay)
      (goOn around (.sleeping (around.clock + delay.ceilMillis)))
  | arriving (timer : Nat) (items : List (Item μ)) (closes : Bool) (h : timer ≤ around.clock) :
    Taken name convert around (.awaiting (some timer) items closes)
      (goOn around (.reading items closes))
  | waking (timer : Nat) (h : timer ≤ around.clock) :
    Taken name convert around (.sleeping timer) (goOn around .opening)

theorem taken_reading (items : List (Item μ)) (closes : Bool) :
    Taken name convert around (.reading items closes) (readItem convert around closes items) :=
  match items with
  | [] => by
    cases closes
    · exact .silent
    · exact .closing
  | .message content :: rest => by
    cases hconvert : convert content with
    | ok value =>
      simp only [readItem, hconvert]
      exact .handed content value rest closes hconvert
    | error cause =>
      simp only [readItem, hconvert]
      exact .unread content cause rest closes hconvert
  | .status cause :: rest => .status cause rest closes
  | .delay 0 :: rest => .passing rest closes
  | .delay (millis + 1) :: rest => .waiting (millis + 1) rest closes (Nat.succ_ne_zero millis)

theorem taken_failed (cause : ApiError) :
    Taken name convert around (.over (.error cause)) (failed name around cause) := by
  unfold failed
  cases hterminal : cause.isTerminal with
  | true => exact .final cause hterminal
  | false => exact .retried cause hterminal

theorem taken_of_step (hmove : step name convert around phase = some move) :
    Taken name convert around phase move := by
  by_cases hstops : phase.IsGuarded ∧ around.cancelled = true
  · obtain ⟨hguarded, hcancelled⟩ := hstops
    have hstop : step name convert around phase = some (stop name around) :=
      step_of_isGuarded hguarded hcancelled
    obtain rfl := Option.some.inj (hmove.symm.trans hstop)
    exact .stopped phase hguarded hcancelled
  · -- the step does not depend on the token
    have hlive : step name convert { around with cancelled := false } phase = some move := by
      by_cases hguarded : phase.IsGuarded
      · have hcancelled : around.cancelled = false :=
          Bool.eq_false_iff.mpr fun hcancelled => hstops ⟨hguarded, hcancelled⟩
        rw [← hcancelled]
        exact hmove
      · exact (step_of_not_isGuarded hguarded false).trans hmove
    cases liveStep_of_step rfl hlive with
    | opening =>
      unfold openStream
      dsimp only
      cases hnext : around.next with
      | rejected cause => exact .rejected cause hnext
      | opened items closes => exact .opened items closes hnext
    | reading items closes => exact taken_reading items closes
    | closed => exact .closed
    | failed cause => exact taken_failed cause
    | skipping delay h => exact .skipping delay h
    | pausing delay h => exact .pausing delay h
    | arriving timer items closes h => exact .arriving timer items closes h
    | waking timer h => exact .waking timer h

end

/-! ### Waiting -/

/-- There is nothing more for the watch to do, whatever the clock: it has ended,
or its stream is silent. -/
def Phase.IsAtRest : Phase μ → Prop
  | .awaiting none _ _ => True
  | .ended _ => True
  | _ => False

theorem moment_add_of_none {d : Nat}
    (h : ∀ j, i ≤ j → j < i + d →
      move? name convert script (moment name convert script polls i) (polls j) = none) :
    moment name convert script polls (i + d) = moment name convert script polls i := by
  induction d with
  | zero => rfl
  | succ d ih =>
    have hd := ih fun j hij hj => h j hij (Nat.lt_succ_of_lt hj)
    rw [← Nat.add_assoc, moment_succ_of_none, hd]
    rw [hd]
    exact h _ (Nat.le_add_right _ _) (Nat.lt_succ_self _)

/-- A watch that is not at rest takes a step once its timer has run out. -/
theorem step_isSome {around : Surroundings μ} {phase : Phase μ} (h : ¬ phase.IsAtRest)
    (htimer : ∀ timer, phase.timer? = some timer → timer ≤ around.clock) :
    (step name convert around phase).isSome := by
  cases phase with
  | opening | reading | pausing => rfl
  | «over» outcome => cases outcome <;> rfl
  | awaiting timer items closes =>
    cases timer with
    | none => exact absurd trivial h
    | some timer =>
      have hle := htimer timer rfl
      simp only [step, Option.any_some, decide_eq_true hle]
      split <;> rfl
  | sleeping timer =>
    have hle := htimer timer rfl
    simp only [step, if_pos hle]
    split <;> rfl
  | ended result => exact absurd trivial h

/-- While time passes, a watch that is not at rest goes on some time: until then
it stays as it is. -/
theorem exists_step (htime : TimePasses polls)
    (h : ¬ (moment name convert script polls i).phase.IsAtRest) :
    ∃ j move, i ≤ j ∧ moment name convert script polls j = moment name convert script polls i ∧
      move? name convert script (moment name convert script polls j) (polls j) = some move := by
  let m := moment name convert script polls i
  have hsome : ∃ j, i ≤ j ∧ (move? name convert script m (polls j)).isSome := by
    obtain ⟨late, hlate⟩ := htime (m.phase.timer?.getD 0)
    refine ⟨max i late, Nat.le_max_left _ _, step_isSome h fun timer htimer => ?_⟩
    have hclock := hlate (max i late) (Nat.le_max_right _ _)
    rwa [htimer] at hclock
  classical
  -- the first poll from here on at which there is a step
  obtain ⟨hij, hmove⟩ := Nat.find_spec hsome
  have hbefore : ∀ k, i ≤ k → k < Nat.find hsome →
      move? name convert script m (polls k) = none := by
    intro k hik hk
    have hnot := Nat.find_min hsome hk
    rw [← Option.not_isSome_iff_eq_none]
    exact fun hk' => hnot ⟨hik, hk'⟩
  have hsame : moment name convert script polls (Nat.find hsome) = m := by
    obtain ⟨d, hd⟩ := Nat.exists_eq_add_of_le hij
    rw [hd] at hbefore ⊢
    exact moment_add_of_none hbefore
  obtain ⟨move, hmove⟩ := Option.isSome_iff_exists.mp hmove
  exact ⟨Nat.find hsome, move, hij, hsame, by rw [hsame]; exact hmove⟩

end Watch
end WorkloadIdentity
