/-
# A schedule of one task, given time

Whoever looks at a schedule of one task finds the task about to take its turn, or ended,
or all its watches waiting (`Schedule.IsPoised`). As long as the token is not set to fire,
that is so again whenever the schedule is looked at later. Whenever it goes on from a
timer, there is less before it than the time before (`Schedule.left`), so it goes on only
so often: given time, the task has ended, or all its watches are at rest.

A task that has ended stays as it is, however long the schedule runs on.

Key definitions: `Watch.Schedule.Stays`, `Watch.Task.Waits`, `Watch.Task.IsQuiet`,
`Watch.Schedule.IsPoised`, `Watch.Schedule.left`.
Key theorems: `Watch.Schedule.runIn_of_ended`, `Watch.Schedule.IsPoised.runIn`,
`Watch.Schedule.IsPoised.exists_runUntil`.
-/
import WorkloadIdentity.Proofs.Watch.Settling

namespace WorkloadIdentity
namespace Watch

variable {σ : Type}

namespace Schedule

variable {watcher : Watcher σ} {s s' s'' : Schedule σ} {t : Task}

/-! ### A task that has ended -/

/-- The tasks are where they were, and nothing else is kept. -/
structure Stays (s s' : Schedule σ) : Prop where
  tasks : s'.tasks = s.tasks
  keep : s'.world.keep = s.world.keep

theorem Stays.refl : s.Stays s := ⟨rfl, rfl⟩

theorem Stays.trans (h : s.Stays s') (h' : s'.Stays s'') : s.Stays s'' :=
  ⟨h'.tasks.trans h.tasks, h'.keep.trans h.keep⟩

theorem stays_fire (s : Schedule σ) : s.Stays s.fire := by
  unfold fire
  split
  · exact .refl
  · exact ⟨rfl, rfl⟩

theorem stays_moveTo (s : Schedule σ) (clock : Nat) : s.Stays (s.moveTo clock) := ⟨rfl, rfl⟩

section

variable (htasks : s.tasks = [t]) (hended : t.result?.isSome = true)
include htasks hended

theorem turn_of_ended (i : Nat) : s.turn watcher i = s := by
  unfold turn
  rw [htasks]
  cases i with
  | zero => simp [hended]
  | succ i => rfl

theorem settleIn_of_ended (fuel : Nat) : s.Stays (s.settleIn watcher fuel) := by
  induction fuel generalizing s with
  | zero => exact .refl
  | succ fuel ih =>
    unfold settleIn
    split
    · exact .refl
    · rename_i i queue _
      have hqueue : s.Stays { s with queue } := ⟨rfl, rfl⟩
      have hsame : ({ s with queue } : Schedule σ).turn watcher i = { s with queue } :=
        turn_of_ended (s := { s with queue }) htasks hended i
      rw [hsame]
      exact hqueue.trans (ih htasks)
    · rename_i queue _
      have hqueue : s.Stays { s with queue, fireAt := none } := ⟨rfl, rfl⟩
      have hfire : s.Stays { s with queue, fireAt := none }.fire := hqueue.trans (stays_fire _)
      exact hfire.trans (ih (hfire.tasks.trans htasks))

/-- **A task that has ended stays as it is,** and nothing is done for it any more. -/
theorem runIn_of_ended {until? : Option Nat} {holds : Schedule σ → Bool} (fuel : Nat)
    {after : Schedule σ} (h : s.runIn watcher until? holds fuel = some after) :
    s.Stays after := by
  induction fuel generalizing s with
  | zero => cases h
  | succ fuel ih =>
    have hsettled : s.Stays (s.settle watcher) := settleIn_of_ended htasks hended _
    have hmoved : ∀ clock, s.Stays ((s.settle watcher).moveTo clock) :=
      fun clock => hsettled.trans (stays_moveTo _ clock)
    rcases runIn_succ watcher until? holds fuel s with ⟨-, hrun⟩ |
      ⟨-, ⟨-, -, hrun⟩ | ⟨clock, -, -, hrun⟩ | ⟨timer, -, -, hrun⟩⟩
    · cases hrun.symm.trans h
      exact hsettled
    · cases hrun.symm.trans h
    · cases hrun.symm.trans h
      exact hmoved _
    · exact (hmoved _).trans (ih ((hmoved _).tasks.trans htasks) (hrun.symm.trans h))

end

end Schedule

/-! ### Between two waits -/

namespace Task

/-- The task has ended, or all its watches have to wait. -/
def Waits (t : Task) (clock : Nat) : Prop :=
  t.result?.isSome = true ∨ ∀ r ∈ t.watches, r.phase.Rests clock

/-- The task has ended, or there is nothing more for its watches to do. -/
def IsQuiet (t : Task) : Prop :=
  t.result?.isSome = true ∨ ∀ r ∈ t.watches, r.phase.IsAtRest

end Task

namespace Schedule

variable {watcher : Watcher σ} {s : Schedule σ} {t : Task}

/-- The only task is about to take its turn, or does not have one before something comes;
the token has not fired and is not set to. -/
structure IsPoised (s : Schedule σ) (t : Task) : Prop where
  tasks : s.tasks = [t]
  live : s.world.cancelled = false
  fireAt : s.fireAt = none
  queue : s.queue = [.turn 0] ∨ (s.queue = [] ∧ t.Waits s.world.session.clock)

theorem isPoised_start (session : Session) (keep : σ) (streams : List StreamKind) :
    (start session keep false none [streams]).IsPoised ⟨streams.map .start, 0⟩ :=
  ⟨rfl, rfl, rfl, .inl rfl⟩

/-- A bound on how often a watch of the schedule waits for something that comes. -/
def left (s : Schedule σ) : Nat := s.world.session.agent.size + Task.timersOf s.watches

theorem left_eq (htasks : s.tasks = [t]) :
    s.left = s.world.session.agent.size + t.timersLeft := by
  simp [left, watches, htasks, Task.timersLeft]

theorem isOver_eq (htasks : s.tasks = [t]) : s.isOver = t.result?.isSome := by
  simp [isOver, htasks]

/-- The only task is not woken when none of its timers runs out. -/
theorem moveTo_idle {clock : Nat} (htasks : s.tasks = [t]) (hqueue : s.queue = [])
    (hfire : s.fireAt ≠ some clock) (hnone : ∀ set, (set, clock) ∉ t.timers) :
    (s.moveTo clock).queue = [] := by
  have hwoken : (t.timers.filterMap fun x => if x.2 = clock then some (x.1, 0) else none) = [] := by
    rw [List.filterMap_eq_nil_iff]
    rintro ⟨set, timer⟩ hmem
    refine if_neg ?_
    rintro rfl
    exact hnone set hmem
  simp [moveTo, htasks, hfire, hqueue, hwoken, inOrder, enqueue]

namespace IsPoised

theorem fireAt_ne (h : s.IsPoised t) (clock : Nat) : s.fireAt ≠ some clock := by
  rw [h.fireAt]
  exact (Option.some_ne_none clock).symm

/-- What comes next is the first of the timers that have been set. -/
theorem nextTimer?_eq (h : s.IsPoised t) : s.nextTimer? = (t.timers.map (·.2)).min? := by
  rw [nextTimer?, h.fireAt, h.tasks, List.flatMap_singleton]
  rfl

theorem mem_of_nextTimer? (h : s.IsPoised t) {timer : Nat} (hnext : s.nextTimer? = some timer) :
    ∃ set, (set, timer) ∈ t.timers := by
  rw [h.nextTimer?_eq] at hnext
  obtain ⟨⟨set, _⟩, hset, rfl⟩ := List.mem_map.mp (List.min?_mem hnext)
  exact ⟨set, hset⟩

theorem exists_nextTimer? (h : s.IsPoised t) {timer set : Nat} (hset : (set, timer) ∈ t.timers) :
    ∃ first, s.nextTimer? = some first ∧ first ≤ timer := by
  have hmem : timer ∈ t.timers.map (·.2) := List.mem_map_of_mem (f := Prod.snd) hset
  cases hnext : s.nextTimer? with
  | none =>
    rw [h.nextTimer?_eq, List.min?_eq_none_iff] at hnext
    rw [hnext] at hmem
    cases hmem
  | some first =>
    rw [h.nextTimer?_eq] at hnext
    exact ⟨first, rfl, (List.min?_eq_some_iff.mp hnext).2 timer hmem⟩

/-- The schedule stays poised when the clock is set, up to the next timer. -/
theorem moveTo {clock : Nat} (h : s.IsPoised t) (hqueue : s.queue = [])
    (hwaits : t.Waits s.world.session.clock)
    (hnext : ∀ timer, s.nextTimer? = some timer → clock ≤ timer) :
    (s.moveTo clock).IsPoised t := by
  refine ⟨h.tasks, h.live, h.fireAt, ?_⟩
  by_cases hdue : ∃ set, (set, clock) ∈ t.timers
  · obtain ⟨set, hset⟩ := hdue
    exact .inl (moveTo_wakes h.tasks hqueue (h.fireAt_ne _) hset)
  · have hnone : ∀ set, (set, clock) ∉ t.timers := not_exists.mp hdue
    refine .inr ⟨moveTo_idle h.tasks hqueue (h.fireAt_ne clock) hnone, ?_⟩
    cases hresult : t.result? with
    | some result => exact .inl (by rw [hresult]; rfl)
    | none =>
      have hrests := hwaits.resolve_left (by simp [hresult])
      refine .inr fun r hr => (hrests r hr).imp_right ?_
      rintro ⟨timer, htimer, -⟩
      have hset : (r.timerSince, timer) ∈ t.timers :=
        (Task.mem_timers hresult).mpr ⟨r, hr, htimer, rfl⟩
      -- the timer is still to come, and not due now
      obtain ⟨first, hfirst, hle⟩ := h.exists_nextTimer? hset
      refine ⟨timer, htimer, Nat.lt_of_le_of_ne (Nat.le_trans (hnext first hfirst) hle) ?_⟩
      rintro rfl
      exact hnone _ hset

/-- The schedule stays poised when the clock is set to the next timer or before it. -/
theorem moveTo_of_le {timer clock : Nat} (h : s.IsPoised t) (hqueue : s.queue = [])
    (hwaits : t.Waits s.world.session.clock) (hnext : s.nextTimer? = some timer)
    (hle : clock ≤ timer) : (s.moveTo clock).IsPoised t :=
  h.moveTo hqueue hwaits fun first hfirst => by rwa [← Option.some.inj (hnext.symm.trans hfirst)]

theorem moveTo_of_none (h : s.IsPoised t) (hqueue : s.queue = [])
    (hwaits : t.Waits s.world.session.clock) (hnext : s.nextTimer? = none) (clock : Nat) :
    (s.moveTo clock).IsPoised t :=
  h.moveTo hqueue hwaits fun timer htimer => by rw [hnext] at htimer; cases htimer

/-- Without a next timer nothing more comes. -/
theorem isQuiet_of_nextTimer? (h : s.IsPoised t) (hwaits : t.Waits s.world.session.clock)
    (hnext : s.nextTimer? = none) : t.IsQuiet := by
  cases hresult : t.result? with
  | some result => exact .inl (by rw [hresult]; rfl)
  | none =>
    have hrests := hwaits.resolve_left (by simp [hresult])
    have hrest := (isAtRest_of_nextTimer? h.tasks hresult hrests hnext).2
    exact .inr fun r hr => hrest r (by simpa [watches, h.tasks] using hr)

section

variable (hdiscreet : watcher.Discreet) (htoken : watcher.LeavesToken)
include hdiscreet htoken

/-- Once the only task has had its turn, it waits; it has no more before it than it had. -/
theorem settle (h : s.IsPoised t) :
    ∃ t', (s.settle watcher).IsPoised t' ∧ (s.settle watcher).queue = [] ∧
      t'.Waits (s.settle watcher).world.session.clock ∧ (s.settle watcher).left ≤ s.left := by
  rcases h.queue with hqueue | ⟨hqueue, hwaits⟩
  · cases hresult : t.result? with
    | some result =>
      have hended : t.result?.isSome = true := by rw [hresult]; rfl
      have hsettle : s.settle watcher = { s with queue := [] } := by
        have hturn : ({ s with queue := [] } : Schedule σ).turn watcher 0 =
            { s with queue := [] } := turn_of_ended (s := { s with queue := [] }) h.tasks hended 0
        rw [Schedule.settle, settleIn_turn hqueue, hturn, h.tasks, List.length_singleton]
        rfl
      rw [hsettle]
      exact ⟨t, ⟨h.tasks, h.live, h.fireAt, .inr ⟨rfl, .inl hended⟩⟩, rfl, .inl hended,
        Nat.le_refl _⟩
    | none =>
      have hspends := Task.poll_spends hdiscreet htoken t s.world
      have hrests : (t.poll watcher s.world).1.Waits s.world.session.clock :=
        Task.poll_rests hdiscreet htoken t h.live
      have hleft := hspends.timers
      rw [← hspends.clock] at hrests
      rw [left_eq h.tasks, settle_turn htoken hdiscreet h.tasks hresult hqueue]
      refine ⟨_, ⟨rfl, hspends.cancelled.trans h.live, h.fireAt, .inr ⟨rfl, hrests⟩⟩, rfl, hrests, ?_⟩
      rw [left_eq rfl]
      exact hleft
  · have hsettle : s.settle watcher = s := by
      simp [Schedule.settle, settleIn, hqueue]
    rw [hsettle]
    exact ⟨t, h, hqueue, hwaits, Nat.le_refl _⟩

/-- A schedule is poised whenever it is looked at. -/
theorem runLooking {M : Type} {until? : Option Nat} {look : M → Schedule σ → Option M}
    (fuel : Nat) {mind mind' : M} {s after : Schedule σ} {t : Task} (h : s.IsPoised t)
    (hafter : s.runLooking watcher until? look fuel mind = some (mind', after)) :
    ∃ t', after.IsPoised t' := by
  induction fuel generalizing s t mind with
  | zero => cases hafter
  | succ fuel ih =>
    obtain ⟨t', hsettled, hqueue, hwaits, -⟩ := h.settle hdiscreet htoken
    rcases runLooking_succ watcher until? look fuel mind s with
      ⟨-, hrun⟩ | ⟨_, -, ⟨-, -, hrun⟩ | ⟨clock, -, hnext, hrun⟩ | ⟨timer, hnext, -, hrun⟩⟩
    · cases hrun.symm.trans hafter
      exact ⟨t', hsettled⟩
    · cases hrun.symm.trans hafter
    · cases hrun.symm.trans hafter
      exact ⟨t', hsettled.moveTo hqueue hwaits hnext⟩
    · exact ih (hsettled.moveTo_of_le hqueue hwaits hnext (Nat.le_refl _)) (hrun.symm.trans hafter)

theorem runIn {until? : Option Nat} {holds : Schedule σ → Bool} (fuel : Nat) {s after : Schedule σ}
    {t : Task} (h : s.IsPoised t) (hafter : s.runIn watcher until? holds fuel = some after) :
    ∃ t', after.IsPoised t' := by
  obtain ⟨⟨_, _⟩, hrun, rfl⟩ := Option.map_eq_some_iff.mp hafter
  exact h.runLooking hdiscreet htoken fuel hrun

/-- A schedule that has gone on from a timer has less before it, unless its task has
ended. -/
theorem left_lt (h : s.IsPoised t) (hqueue : s.queue = []) {timer : Nat}
    (hnext : s.nextTimer? = some timer) :
    ((s.moveTo timer).settle watcher).isOver = true ∨
      ((s.moveTo timer).settle watcher).left < s.left := by
  obtain ⟨set, hset⟩ := h.mem_of_nextTimer? hnext
  have hresult : t.result? = none := by
    by_contra hsome
    rw [Task.timers, if_pos (Option.isSome_iff_ne_none.mpr hsome)] at hset
    cases hset
  obtain ⟨r, hr, htimer, -⟩ := (Task.mem_timers hresult).mp hset
  have hturn : (s.moveTo timer).queue = [.turn 0] := moveTo_wakes h.tasks hqueue (h.fireAt_ne _) hset
  have hmoved : (s.moveTo timer).tasks = [t] := h.tasks
  rw [settle_turn htoken hdiscreet hmoved hresult hturn, isOver_eq rfl, left_eq rfl,
    left_eq h.tasks]
  exact Task.poll_wakes hdiscreet htoken t
    (w := { s.world with session := { s.world.session with clock := timer } }) h.live hr
    (Phase.isSuspended_of_timer? htimer) (Phase.not_rests_of_timer? htimer)

/-- A schedule that has settled and has no next timer runs up to any time. -/
theorem runIn_of_none (h : s.IsPoised t) (hnext : (s.settle watcher).nextTimer? = none)
    (fuel time : Nat) :
    ∃ after t', s.runIn watcher (some time) (fun _ => false) (fuel + 1) = some after ∧
      after.IsPoised t' ∧ t'.IsQuiet := by
  obtain ⟨t', hsettled, hqueue, hwaits, -⟩ := h.settle hdiscreet htoken
  refine ⟨(s.settle watcher).moveTo time, t', ?_,
    hsettled.moveTo_of_none hqueue hwaits hnext time, hsettled.isQuiet_of_nextTimer? hwaits hnext⟩
  rcases runIn_succ watcher (some time) (fun _ => false) fuel s with ⟨hholds, -⟩ |
    ⟨-, ⟨-, huntil, -⟩ | ⟨clock, huntil, -, hrun⟩ | ⟨timer, htimer, -, -⟩⟩
  · cases hholds
  · cases huntil
  · rw [hrun, Option.some.inj huntil]
  · cases hnext.symm.trans htimer

/-- A task that has ended has no next timer. -/
theorem nextTimer?_of_isOver (h : s.IsPoised t) (hover : (s.settle watcher).isOver = true) :
    (s.settle watcher).nextTimer? = none := by
  obtain ⟨t', hsettled, -⟩ := h.settle hdiscreet htoken
  rw [isOver_eq hsettled.tasks] at hover
  rw [hsettled.nextTimer?_eq, Task.timers, if_pos hover]
  rfl

/-- With fuel for what is left, the schedule has come to an end after some time. -/
theorem exists_runIn (fuel : Nat) {s : Schedule σ} {t : Task} (h : s.IsPoised t)
    (hfuel : (s.settle watcher).left + 1 < fuel) :
    ∃ soon, ∀ time, soon ≤ time → ∃ after t',
      s.runIn watcher (some time) (fun _ => false) fuel = some after ∧
        after.IsPoised t' ∧ t'.IsQuiet := by
  -- each time the schedule goes on from a timer, less is left
  induction fuel generalizing s t with
  | zero => cases hfuel
  | succ fuel ih =>
    obtain ⟨t', hsettled, hqueue, hwaits, -⟩ := h.settle hdiscreet htoken
    cases hnext : (s.settle watcher).nextTimer? with
    | none => exact ⟨0, fun time _ => h.runIn_of_none hdiscreet htoken hnext fuel time⟩
    | some timer =>
      have hmoved : ((s.settle watcher).moveTo timer).IsPoised t' :=
        hsettled.moveTo_of_le hqueue hwaits hnext (Nat.le_refl _)
      have hgoes : ∀ time, timer < time →
          s.runIn watcher (some time) (fun _ => false) (fuel + 1) =
            ((s.settle watcher).moveTo timer).runIn watcher (some time) (fun _ => false) fuel := by
        intro time htime
        rcases runIn_succ watcher (some time) (fun _ => false) fuel s with ⟨hholds, -⟩ |
          ⟨-, ⟨-, huntil, -⟩ | ⟨clock, huntil, hle, -⟩ | ⟨timer', htimer, -, hrun⟩⟩
        · cases hholds
        · cases huntil
        · have hle := hle timer hnext
          rw [← Option.some.inj huntil] at hle
          omega
        · rw [hrun, Option.some.inj (hnext.symm.trans htimer)]
      rcases hsettled.left_lt hdiscreet htoken hqueue hnext with hover | hless
      · obtain ⟨fuel, rfl⟩ : ∃ k, fuel = k + 1 := Nat.exists_eq_add_one.mpr (by omega)
        refine ⟨timer + 1, fun time htime => ?_⟩
        rw [hgoes time htime]
        exact hmoved.runIn_of_none hdiscreet htoken
          (hmoved.nextTimer?_of_isOver hdiscreet htoken hover) fuel time
      · obtain ⟨soon, hsoon⟩ := ih hmoved (by omega)
        refine ⟨max (timer + 1) soon, fun time htime => ?_⟩
        rw [hgoes time (Nat.le_trans (Nat.le_max_left _ _) htime)]
        exact hsoon time (Nat.le_trans (Nat.le_max_right _ _) htime)

/-- **Given time, a schedule of one task comes to an end:** its task has ended, or all its
watches are at rest. -/
theorem exists_runUntil (h : s.IsPoised t) :
    ∃ soon, ∀ time, soon ≤ time → ∃ after t',
      s.runUntil watcher (some time) (fun _ => false) = some after ∧
        after.IsPoised t' ∧ t'.IsQuiet := by
  refine h.exists_runIn hdiscreet htoken s.fuel ?_
  obtain ⟨-, -, -, -, hless⟩ := h.settle hdiscreet htoken
  have htimers : t.timersLeft ≤ 2 * Task.openSize t.watches := Task.timersOf_le t.watches
  have hfuel : s.fuel = 2 * (s.world.session.agent.size + Task.openSize t.watches) + 4 := by
    simp [fuel, h.tasks]
  rw [left_eq h.tasks] at hless
  omega

end

end IsPoised
end Schedule
end Watch
end WorkloadIdentity
