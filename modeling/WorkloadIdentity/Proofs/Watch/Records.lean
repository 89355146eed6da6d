/-
# Records make no difference

What watches do does not depend on the records that have been written, if their callbacks
do not. So a schedule with other records than a crew, and with the same watches in the same
world otherwise, goes on as the crew does (`Schedule.Follows`): a record that is written
between two waits does not change what comes of the watches.

Key definitions: `Watch.World.withLogs`, `Watch.Watcher.IgnoresLogs`,
`Watch.Schedule.Follows`.
Key theorems: `Watch.Crew.run_withLogs`, `Watch.Schedule.Follows.exists_run`.
-/
import WorkloadIdentity.Proofs.Watch.Crew

namespace WorkloadIdentity
namespace Watch

variable {σ : Type}

/-- The same with other records. -/
def World.withLogs (w : World σ) (logs : List LogRecord) : World σ :=
  { w with session := { w.session with logs } }

/-- What the callbacks do does not depend on the records. -/
structure Watcher.IgnoresLogs (watcher : Watcher σ) : Prop where
  onUpdate : ∀ stream value (w : World σ) logs, ∃ logs',
    watcher.onUpdate stream value (w.withLogs logs) = (watcher.onUpdate stream value w).withLogs logs'
  onError : ∀ stream cause (w : World σ) logs, ∃ logs',
    watcher.onError stream cause (w.withLogs logs) = (watcher.onError stream cause w).withLogs logs'

/-- The same with other records. -/
def Crew.withLogs (c : Crew σ) (logs : List LogRecord) : Crew σ :=
  { c with world := c.world.withLogs logs }

section

variable {watcher : Watcher σ} (hblind : watcher.IgnoresLogs)
include hblind

theorem World.afterMove_withLogs (stream : StreamKind) (w : World σ) (move : Move Message Update)
    (logs : List LogRecord) :
    ∃ logs', (w.withLogs logs).afterMove watcher stream move =
      (w.afterMove watcher stream move).withLogs logs' := by
  have hfold : ∀ (effects : List (Effect Update)) (w : World σ) (logs : List LogRecord), ∃ logs',
      effects.foldl (World.apply watcher stream) (w.withLogs logs) =
        (effects.foldl (World.apply watcher stream) w).withLogs logs' := by
    intro effects
    induction effects with
    | nil => exact fun w logs => ⟨logs, rfl⟩
    | cons e rest ih =>
      intro w logs
      have hfirst : ∃ logs', (w.withLogs logs).apply watcher stream e =
          (w.apply watcher stream e).withLogs logs' := by
        cases e with
        | opened => exact ⟨logs, rfl⟩
        | update value => exact hblind.onUpdate stream value w logs
        | failed cause => exact hblind.onError stream cause w logs
        | log level text => exact ⟨⟨level, text⟩ :: logs, rfl⟩
      obtain ⟨logs', hfirst⟩ := hfirst
      rw [List.foldl_cons, List.foldl_cons, hfirst]
      exact ih _ logs'
  exact hfold move.effects
    { w with session := { w.session with backoff := move.backoff }, ticks := w.ticks + 1 } logs

theorem Crew.stride_withLogs (c : Crew σ) (i : Nat) (r : Running) (move : Move Message Update)
    (logs : List LogRecord) :
    ∃ logs', (c.withLogs logs).stride watcher i r move =
      (c.stride watcher i r move).withLogs logs' := by
  obtain ⟨logs', hworld⟩ := World.afterMove_withLogs hblind r.stream c.world move logs
  refine ⟨logs', ?_⟩
  have hwatches : (c.withLogs logs).watches = c.watches := rfl
  have hhistory : (c.withLogs logs).history = c.history := rfl
  rw [stride, hwatches, hhistory]
  exact congrArg (fun world : World σ => (⟨c.watches.set i (r.enter move.phase (c.world.ticks + 1)),
    world, ⟨i, r.surroundings c.world, r.phase, move⟩ :: c.history⟩ : Crew σ)) hworld

theorem Crew.after_withLogs (c : Crew σ) (turn : Turn) (logs : List LogRecord) :
    ∃ logs', (c.withLogs logs).after watcher turn = (c.after watcher turn).withLogs logs' := by
  cases turn with
  | time clock => exact ⟨logs, rfl⟩
  | fire => exact ⟨logs, rfl⟩
  | poll i =>
    change ∃ logs', (c.withLogs logs).poll watcher i = (c.poll watcher i).withLogs logs'
    have hwatches : (c.withLogs logs).watches = c.watches := rfl
    unfold poll
    rw [hwatches]
    cases c.watches[i]? with
    | none => exact ⟨logs, rfl⟩
    | some r =>
      have hmove : r.move? (c.withLogs logs).world = r.move? c.world := rfl
      dsimp only
      rw [hmove]
      cases r.move? c.world with
      | none => exact ⟨logs, rfl⟩
      | some move => exact stride_withLogs hblind c i r move logs

theorem Crew.run_withLogs (turns : List Turn) (c : Crew σ) (logs : List LogRecord) :
    ∃ logs', (c.withLogs logs).run watcher turns = (c.run watcher turns).withLogs logs' := by
  induction turns generalizing c logs with
  | nil => exact ⟨logs, rfl⟩
  | cons turn rest ih =>
    obtain ⟨logs', hturn⟩ := after_withLogs hblind c turn logs
    change ∃ logs'', ((c.withLogs logs).after watcher turn).run watcher rest =
      ((c.after watcher turn).run watcher rest).withLogs logs''
    rw [hturn]
    exact ih _ logs'

end

/-- A schedule is at what a crew has come to, the records apart. -/
structure Schedule.Follows (s : Schedule σ) (c : Crew σ) : Prop where
  watches : s.watches = c.watches
  world : ∃ logs, s.world = c.world.withLogs logs

namespace Schedule.Follows

variable {s s' : Schedule σ} {c : Crew σ}

theorem of_isCrew (h : s.IsCrew c) : s.Follows c := ⟨h.2, _, h.1⟩

theorem cancelled (h : s.Follows c) : s.world.cancelled = c.world.cancelled := by
  obtain ⟨logs, hworld⟩ := h.world
  rw [hworld]
  rfl

theorem log (h : s.Follows c) (level : LogLevel) (text : String) :
    Schedule.Follows { s with world := s.world.log level text } c := by
  obtain ⟨logs, hworld⟩ := h.world
  refine ⟨h.watches, ⟨level, text⟩ :: logs, ?_⟩
  dsimp only
  rw [hworld]
  rfl

/-- Whatever the schedule comes to, the crew comes to. -/
theorem exists_run {watcher : Watcher σ} (hblind : watcher.IgnoresLogs) (h : s.Follows c)
    (hreaches : Reaches watcher s s') : ∃ turns, s'.Follows (c.run watcher turns) := by
  obtain ⟨logs, hworld⟩ := h.world
  obtain ⟨turns, history, hturns⟩ := hreaches.turns c.history
  have hcrew : (⟨s.watches, s.world, c.history⟩ : Crew σ) = c.withLogs logs := by
    rw [h.watches, hworld]
    rfl
  obtain ⟨logs', hrun⟩ := Crew.run_withLogs hblind turns c logs
  rw [hcrew, hrun] at hturns
  refine ⟨turns, ?_, logs', ?_⟩
  · exact (congrArg Crew.watches hturns).symm
  · exact (congrArg Crew.world hturns).symm

end Schedule.Follows
end Watch
end WorkloadIdentity
