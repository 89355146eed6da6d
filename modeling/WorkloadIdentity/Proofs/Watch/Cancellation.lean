/-
# Cancellation cuts a watch short

A watch looks at its token before it asks for a stream, while it waits for one and
before and in its pauses; in between it goes on as if nothing had happened. So a
watch whose token fires is, poll by poll, the watch whose token does not, until it
looks at the token and ends there (`moment_eq_or_stopped`). A stream that takes its
time to open is one that begins with a silence, so that the token may fire in the
meantime.

Key definitions: `Watch.unfired`, `Watch.Moment.stopped`, `Watch.Excuses`.
Key theorems: `Watch.moment_eq_or_stopped`, `Watch.seen_of_unfired`,
`Watch.moment_excuses`, `Watch.cancellation_truncates`.
-/
import WorkloadIdentity.Proofs.Watch.Delivery

namespace WorkloadIdentity
namespace Watch

variable {μ ν : Type} {name : String} {convert : μ → Except ApiError ν}
  {script : Nat → Attempt μ} {polls : Nat → Poll} {i k : Nat}

/-! ### Had the token not fired -/

/-- The same polls, had the token not fired. -/
def unfired (polls : Nat → Poll) (i : Nat) : Poll := { polls i with cancelled := false }

/-- The watch ends there because of its token. -/
def Moment.stopped (name : String) (m : Moment μ ν) : Moment μ ν :=
  ⟨.ended (.ok ()), m.opened, m.told ++ [.log .debug (name ++ " watch cancelled")]⟩

theorem Moment.seen_stopped (name : String) (m : Moment μ ν) : (m.stopped name).seen = m.seen := by
  simp [seen, stopped, Effect.isRecord]

variable (name convert script polls) in
/-- A watch is where it would be had its token not fired, or it has ended where it
looked at the token. -/
theorem moment_eq_or_stopped (i : Nat) :
    moment name convert script polls i = moment name convert script (unfired polls) i ∨
    ∃ j < i, moment name convert script polls i =
      (moment name convert script (unfired polls) j).stopped name := by
  induction i with
  | zero => exact .inl rfl
  | succ i ih =>
    rcases ih with hsame | ⟨j, hj, hstopped⟩
    · by_cases hguarded : (moment name convert script polls i).phase.IsGuarded
      · cases hcancelled : (polls i).cancelled with
        | false =>
          have hpoll : unfired polls i = polls i := by
            rw [unfired, ← hcancelled]
          refine .inl ?_
          rw [moment, moment, hpoll, ← hsame]
        | true =>
          refine .inr ⟨i, Nat.lt_succ_self i, ?_⟩
          have hstop : move? name convert script (moment name convert script polls i) (polls i) =
              some (stop name ((polls i).around _)) := step_of_isGuarded hguarded hcancelled
          rw [moment_succ_of_some hstop, ← hsame]
          rfl
      · let around := (polls i).around (script (moment name convert script polls i).opened)
        have hmove : step name convert { around with cancelled := false } _ =
            step name convert around _ := step_of_not_isGuarded hguarded false
        change move? name convert script (moment name convert script polls i) (unfired polls i) =
          move? name convert script (moment name convert script polls i) (polls i) at hmove
        refine .inl ?_
        rw [moment, moment, ← hsame, hmove]
    · refine .inr ⟨j, Nat.lt_succ_of_lt hj, ?_⟩
      have hended : (moment name convert script polls i).phase = .ended (.ok ()) := by
        rw [hstopped, Moment.stopped]
      rw [moment_of_ended (Nat.le_succ i) hended, hstopped]

variable (name convert script polls) in
/-- What a watch has told is what it would have told some time before, had its
token not fired. -/
theorem seen_of_unfired (i : Nat) :
    ∃ j ≤ i, (moment name convert script polls i).seen =
      (moment name convert script (unfired polls) j).seen := by
  rcases moment_eq_or_stopped name convert script polls i with hsame | ⟨j, hj, hstopped⟩
  · exact ⟨i, Nat.le_refl i, by rw [hsame]⟩
  · exact ⟨j, Nat.le_of_lt hj, by rw [hstopped, Moment.seen_stopped]⟩

variable (name convert script polls) in
/-- What a watch has told is the beginning of the account of the agent's streams,
whether its token has fired or not. -/
theorem seen_of_account (i : Nat) :
    ∃ n, (moment name convert script polls i).seen <+: account convert script n ∧
      ∀ m < n, Reached convert script m := by
  obtain ⟨j, -, hseen⟩ := seen_of_unfired name convert script polls i
  have hlive : NeverCancelled (unfired polls) := fun _ => rfl
  have hfits := moment_fits name convert script hlive j
  refine ⟨_, hseen ▸ hfits.seen_of_account, fun m => hfits.reached⟩

/-- Any watch on the same streams comes to tell as much some time, as long as its
token does not fire and time passes. -/
theorem exists_seen {others : Nat → Poll} (hlive : NeverCancelled others)
    (htime : TimePasses others) (i : Nat) :
    ∃ j, (moment name convert script polls i).seen <+:
      (moment name convert script others j).seen := by
  obtain ⟨n, hseen, hreached⟩ := seen_of_account name convert script polls i
  cases n with
  | zero => exact ⟨0, hseen⟩
  | succ n =>
    obtain ⟨j, -, htold, -⟩ := exists_told name hlive htime (hreached n (Nat.lt_succ_self n))
    exact ⟨j, htold ▸ hseen⟩

/-! ### Once the token has fired -/

/-- A step after the token has fired does not ask for a stream. -/
theorem opened_succ_of_cancelled (h : (polls i).cancelled = true) :
    (moment name convert script polls (i + 1)).opened =
      (moment name convert script polls i).opened := by
  cases hmove : move? name convert script (moment name convert script polls i) (polls i) with
  | none => rw [moment_succ_of_none hmove]
  | some move =>
    rw [moment_succ_of_some hmove]
    by_cases hguarded : (moment name convert script polls i).phase.IsGuarded
    · have hstop : move? name convert script (moment name convert script polls i) (polls i) =
          some (stop name ((polls i).around _)) := step_of_isGuarded hguarded h
      obtain rfl := Option.some.inj (hmove.symm.trans hstop)
      rfl
    · have hopening := Phase.ne_opening hguarded
      have hnone := (left_step hopening (liveStep_of_not_isGuarded hguarded hmove)).1
      rw [Moment.after, hnone, Nat.add_zero]

theorem opened_of_cancelled (h : ∀ i, k ≤ i → (polls i).cancelled = true) (hki : k ≤ i) :
    (moment name convert script polls i).opened = (moment name convert script polls k).opened := by
  induction hki with
  | refl => rfl
  | @step i hki ih => exact (opened_succ_of_cancelled (h i hki)).trans ih

variable (name convert script) in
/-- A watch whose token has fired ends after a few more steps, without any time
passing. -/
theorem exists_ended_of_cancelled (h : ∀ i, k ≤ i → (polls i).cancelled = true) (hki : k ≤ i) :
    ∃ j result, i ≤ j ∧ (moment name convert script polls j).phase = .ended result := by
  -- induction on the steps left
  induction hleft : (moment name convert script polls i).phase.left using Nat.strong_induction_on
    generalizing i with
  | _ left ih =>
    by_cases hguarded : (moment name convert script polls i).phase.IsGuarded
    · refine ⟨i + 1, .ok (), Nat.le_succ i, ?_⟩
      have hstop : move? name convert script (moment name convert script polls i) (polls i) =
          some (stop name ((polls i).around _)) := step_of_isGuarded hguarded (h i hki)
      rw [moment_succ_of_some hstop]
      rfl
    cases hmove : move? name convert script (moment name convert script polls i) (polls i) with
    | none =>
      cases hphase : (moment name convert script polls i).phase with
      | ended result => exact ⟨i, result, Nat.le_refl i, hphase⟩
      | reading items closes => simp [move?, hphase, step] at hmove
      | «over» outcome => cases outcome <;> simp [move?, hphase, step] at hmove
      | _ => exact absurd (hphase ▸ trivial) hguarded
    | some move =>
      have hopening := Phase.ne_opening hguarded
      have hless := (left_step hopening (liveStep_of_not_isGuarded hguarded hmove)).2
      have hphase : (moment name convert script polls (i + 1)).phase = move.phase := by
        rw [moment_succ_of_some hmove, Moment.after]
      obtain ⟨j, result, hij, hended⟩ :=
        ih _ (by rw [← hleft, hphase]; exact hless) (Nat.le_succ_of_le hki) rfl
      exact ⟨j, result, Nat.le_of_succ_le hij, hended⟩

/-! ### The result -/

/-- The callbacks do not go against the phase: a watch that has not ended with an
error has told of no final one, and one that has told of it last. -/
def Excuses (callbacks : List (Except ApiError ν)) : Phase μ → Prop
  | .ended (.error cause) => cause.IsFinal ∧ callbacks.getLast? = some (.error cause)
  | _ => ∀ cause, .error cause ∈ callbacks → ¬ cause.IsFinal

theorem Taken.excuses {around : Surroundings μ} {phase : Phase μ} {move : Move μ ν}
    {callbacks : List (Except ApiError ν)} (htaken : Taken name convert around phase move)
    (h : ∀ cause, .error cause ∈ callbacks → ¬ cause.IsFinal) :
    Excuses (callbacks ++ move.effects.filterMap Effect.callback?) move.phase := by
  cases htaken with
  | final cause hterminal => exact ⟨cause.isTerminal_iff.mp hterminal, List.getLast?_concat⟩
  | retried cause hretried =>
    intro cause' hmem
    rcases List.mem_append.mp hmem with hmem | hmem
    · exact h cause' hmem
    · have hsame : cause' = cause := by simpa [Effect.callback?, retry] using hmem
      rw [hsame, ← ApiError.isTerminal_iff, hretried]
      exact Bool.false_ne_true
  | handed => simpa [Excuses, Effect.callback?] using h
  | stopped => simpa [Excuses, Effect.callback?, stop] using h
  | closed => simpa [Excuses, Effect.callback?, Watch.closed] using h
  | rejected | opened => simpa [Excuses, Effect.callback?] using h
  | _ => simpa [Excuses, goOn] using h

variable (name convert script polls) in
theorem moment_excuses (i : Nat) :
    Excuses (moment name convert script polls i).callbacks
      (moment name convert script polls i).phase := by
  refine moment_inv (P := fun m => Excuses m.callbacks m.phase) (fun _ => nofun)
    (fun i move h hmove => ?_) i
  generalize moment name convert script polls i = m at h hmove
  have hnone : ∀ cause, .error cause ∈ m.callbacks → ¬ cause.IsFinal := by
    cases hphase : m.phase with
    | ended result => rw [move?, hphase] at hmove; cases hmove
    | _ => rw [hphase] at h; exact h
  rw [callbacks_after]
  exact (taken_of_step hmove).excuses hnone

/-- The result of a watch is its last callback if that is of a final status, and
none otherwise. -/
theorem result_of_ended {result : Except ApiError Unit}
    (h : (moment name convert script polls i).phase = .ended result) :
    (∃ cause, (moment name convert script polls i).callbacks.getLast? = some (.error cause) ∧
      cause.IsFinal ∧ result = .error cause) ∨
    ((∀ cause, (moment name convert script polls i).callbacks.getLast? = some (.error cause) →
      ¬ cause.IsFinal) ∧ result = .ok ()) := by
  have hexcuses := moment_excuses name convert script polls i
  rw [h] at hexcuses
  cases result with
  | error cause => exact .inl ⟨cause, hexcuses.2, hexcuses.1, rfl⟩
  | ok => exact .inr ⟨fun cause hlast => hexcuses cause (List.mem_of_getLast? hlast), rfl⟩

/-- **Cancelling a watch only truncates it.** Whatever the agent does and at
whichever poll the token fires: until then the watch is the one whose token does
not fire; at every poll the streams it has asked for and its callbacks are the first
ones of that watch, and of every other watch on the same streams that goes on long
enough; once the token has fired it asks for no more streams, and does and tells
nothing if that was before it began; it ends, and stays so; and its result is the
final status that it has told of last, if it has, and none otherwise. -/
theorem cancellation_truncates (name : String) (convert : μ → Except ApiError ν)
    (script : Nat → Attempt μ) {polls : Nat → Poll} {k : Nat}
    (hfires : ∀ i, (polls i).cancelled = true ↔ k ≤ i) :
    let watch := moment name convert script polls
    let uncancelled := moment name convert script (unfired polls)
    (∀ i, i ≤ k → watch i = uncancelled i) ∧
    (∀ i, (watch i).seen <+: (uncancelled i).seen ∧
      (watch i).callbacks <+: (uncancelled i).callbacks) ∧
    (∀ others, NeverCancelled others → TimePasses others → ∀ i, ∃ j,
      (watch i).seen <+: (moment name convert script others j).seen) ∧
    (∀ i, k ≤ i → (watch i).opened = (watch k).opened) ∧
    (k = 0 → ∀ i, (watch i).opened = 0 ∧ (watch i).callbacks = []) ∧
    (∃ j result, ∀ i, j ≤ i → (watch i).phase = .ended result) ∧
    (∀ i result, (watch i).phase = .ended result →
      (∃ cause, (watch i).callbacks.getLast? = some (.error cause) ∧ cause.IsFinal ∧
        result = .error cause) ∨
      ((∀ cause, (watch i).callbacks.getLast? = some (.error cause) → ¬ cause.IsFinal) ∧
        result = .ok ())) := by
  intro watch uncancelled
  have hcancelled : ∀ i, k ≤ i → (polls i).cancelled = true := fun i => (hfires i).mpr
  have hopened : ∀ i, k ≤ i → (watch i).opened = (watch k).opened :=
    fun i => opened_of_cancelled hcancelled
  refine ⟨fun i hik => moment_congr fun j hj => ?_, fun i => ?_,
    fun others hlive htime => exists_seen hlive htime, hopened, ?_, ?_,
    fun i result => result_of_ended⟩
  · have hunfired : (polls j).cancelled = false := by
      rw [← Bool.not_eq_true, hfires]
      omega
    rw [unfired, ← hunfired]
  · obtain ⟨j, hj, hseen⟩ := seen_of_unfired name convert script polls i
    have hle : (watch i).seen <+: (uncancelled i).seen := hseen ▸ seen_le hj
    refine ⟨hle, ?_⟩
    rw [← callbacks_of_seen, ← callbacks_of_seen]
    exact hle.filterMap _
  · rintro rfl i
    have hnone : (watch i).opened = 0 := hopened i (Nat.zero_le i)
    refine ⟨hnone, ?_⟩
    cases i with
    | zero => rfl
    | succ i =>
      have hfirst : watch 1 = Moment.start.stopped name := by
        have hstop : move? name convert script .start (polls 0) =
            some (stop name ((polls 0).around _)) :=
          step_of_isGuarded trivial (hcancelled 0 (Nat.le_refl 0))
        exact moment_succ_of_some hstop
      have hended : (watch 1).phase = .ended (.ok ()) := by rw [hfirst, Moment.stopped]
      have hsame : watch (i + 1) = watch 1 := moment_of_ended (Nat.succ_pos i) hended
      rw [hsame, hfirst]
      rfl
  · obtain ⟨j, result, -, hended⟩ :=
      exists_ended_of_cancelled name convert script hcancelled (Nat.le_refl k)
    refine ⟨j, result, fun i hij => ?_⟩
    exact (congrArg Moment.phase (moment_of_ended hij hended)).trans hended

/-- A token that fires while the stream is silent between two messages: the second
one is not waited for, and no stream is asked for again. -/
theorem cancellation_truncates_silence :
    let script : Nat → Attempt Nat := fun _ => .opened [.message 7, .delay 5, .message 8] true
    let polls : Nat → Poll := fun i => ⟨decide (3 ≤ i), i, .standard⟩
    let watch := moment "JWT bundles" Except.ok script polls
    (∀ i, (polls i).cancelled = true ↔ 3 ≤ i) ∧
      (∀ i, (watch i).callbacks <+:
        (moment "JWT bundles" Except.ok script (unfired polls) i).callbacks) ∧
      (∀ i, 3 ≤ i → (watch i).opened = 1) ∧
      ∃ j, ∀ i, j ≤ i → (watch i).phase = .ended (.ok ()) := by
  intro script polls watch
  have hfires : ∀ i, (polls i).cancelled = true ↔ 3 ≤ i := fun i => decide_eq_true_iff
  obtain ⟨-, htold, -, hopened, -, ⟨j, result, hended⟩, hresult⟩ :=
    cancellation_truncates "JWT bundles" Except.ok script hfires
  refine ⟨hfires, fun i => (htold i).2, fun i hi => hopened i hi, j, fun i hij => ?_⟩
  have hfirst : (watch 4).phase = .ended (.ok ()) := rfl
  have hlast : (watch (max 4 j)).phase = .ended (.ok ()) :=
    (congrArg Moment.phase (moment_of_ended (Nat.le_max_left 4 j) hfirst)).trans hfirst
  have hsame : Phase.ended result = .ended (.ok ()) :=
    (hended _ (Nat.le_max_right 4 j)).symm.trans hlast
  exact (hended i hij).trans hsame

end Watch
end WorkloadIdentity
