/-
# Watches on one session, in any order

Watches that share a session - its agent, its clock and its backoff - and a token
are polled one at a time, in whatever order, while the clock is set and the token
fires. `Crew.run` is what they have come to after so many turns, and the history of
a crew has every step together with the watch that took it.

A schedule is one such order: whatever is in its queue and wherever it is
interrupted, its watches and its world are those of a crew after some turns
(`Schedule.reaches_runUntil`). So what every step of a watch keeps holds of a crew
after any turns (`Crew.run_inv`) and of a schedule whenever it is looked at.

Key definitions: `Watch.Stride`, `Watch.Crew`, `Watch.Turn`, `Watch.Crew.run`,
`Watch.Crew.told`, `Watch.attempts`, `Watch.Watcher.Discreet`, `Watch.Reaches`,
`Watch.Schedule.IsCrew`.
Key theorems: `Watch.Crew.run_inv`, `Watch.Schedule.reaches_runUntil`,
`Watch.Schedule.IsCrew.exists_run`.
-/
import WorkloadIdentity.Proofs.Watch.Run
import WorkloadIdentity.Watch.Schedule

namespace WorkloadIdentity
namespace Watch

variable {σ : Type}

/-! ### Crews -/

/-- A step that a watch has taken. -/
structure Stride where
  /-- The position of the watch. -/
  watch : Nat
  around : Surroundings Message
  before : Phase Message
  move : Move Message Update

/-- Watches on one session. -/
structure Crew (σ : Type) where
  watches : List Running
  world : World σ
  /-- The steps taken, the last one first. -/
  history : List Stride

/-- What happens next. -/
inductive Turn where
  /-- The watch at a position is polled. -/
  | poll (watch : Nat)
  /-- The clock is set. -/
  | time (clock : Nat)
  /-- The token fires. -/
  | fire

/-- The step that a watch takes when it is polled. -/
def Running.move? (r : Running) (w : World σ) : Option (Move Message Update) :=
  step r.stream.name Message.toUpdate (r.surroundings w) r.phase

/-- The world after a step of a watch. -/
def World.afterMove (watcher : Watcher σ) (stream : StreamKind) (w : World σ)
    (move : Move Message Update) : World σ :=
  move.effects.foldl (World.apply watcher stream)
    { w with session := { w.session with backoff := move.backoff }, ticks := w.ticks + 1 }

theorem Running.go_succ (watcher : Watcher σ) (fuel : Nat) (r : Running) (w : World σ) :
    r.go watcher (fuel + 1) w =
      match r.move? w with
      | none => (r, w)
      | some move =>
        let after := r.enter move.phase (w.ticks + 1)
        let w' := w.afterMove watcher r.stream move
        if move.phase.isSuspended then (after, w') else after.go watcher fuel w' := rfl

theorem Running.enter_stream (r : Running) (phase : Phase Message) (ticks : Nat) :
    (r.enter phase ticks).stream = r.stream := by
  unfold enter
  split <;> rfl

theorem Running.enter_phase (r : Running) (phase : Phase Message) (ticks : Nat) :
    (r.enter phase ticks).phase = phase := by
  unfold enter
  split <;> rfl

namespace Crew

/-- Watches of streams, none of which has begun. -/
def start (session : Session) (keep : σ) (cancelled : Bool) (streams : List StreamKind) :
    Crew σ :=
  ⟨streams.map .start, ⟨session, cancelled, 0, keep⟩, []⟩

variable (watcher : Watcher σ)

/-- The watch at a position takes a step. -/
def stride (c : Crew σ) (i : Nat) (r : Running) (move : Move Message Update) : Crew σ where
  watches := c.watches.set i (r.enter move.phase (c.world.ticks + 1))
  world := c.world.afterMove watcher r.stream move
  history := ⟨i, r.surroundings c.world, r.phase, move⟩ :: c.history

/-- The watch at a position is polled. -/
def poll (c : Crew σ) (i : Nat) : Crew σ :=
  match c.watches[i]? with
  | none => c
  | some r =>
    match r.move? c.world with
    | none => c
    | some move => c.stride watcher i r move

/-- The clock is set. -/
def setClock (c : Crew σ) (clock : Nat) : Crew σ :=
  { c with world := { c.world with session := { c.world.session with clock } } }

/-- The token fires. -/
def fire (c : Crew σ) : Crew σ := { c with world := { c.world with cancelled := true } }

/-- After a turn. -/
def after (c : Crew σ) : Turn → Crew σ
  | .poll i => c.poll watcher i
  | .time clock => c.setClock clock
  | .fire => c.fire

/-- After so many turns. -/
def run (c : Crew σ) (turns : List Turn) : Crew σ := turns.foldl (after watcher) c

/-- All that the watch at a position has told, in order. -/
def told (c : Crew σ) (i : Nat) : List (Effect Update) :=
  (c.history.filter (·.watch = i)).reverse.flatMap (·.move.effects)

variable {watcher} {c : Crew σ}

theorem run_append (turns more : List Turn) :
    c.run watcher (turns ++ more) = (c.run watcher turns).run watcher more :=
  List.foldl_append

variable (watcher) in
/-- In a turn a watch takes a step, or none does. -/
theorem after_cases (c : Crew σ) (turn : Turn) :
    ((c.after watcher turn).history = c.history ∧
      (c.after watcher turn).world.keep = c.world.keep) ∨
      ∃ i r move, c.watches[i]? = some r ∧ r.move? c.world = some move ∧
        c.after watcher turn = c.stride watcher i r move := by
  cases turn with
  | time clock => exact .inl ⟨rfl, rfl⟩
  | fire => exact .inl ⟨rfl, rfl⟩
  | poll i =>
    change ((c.poll watcher i).history = _ ∧ (c.poll watcher i).world.keep = _) ∨
      ∃ j r move, _ ∧ _ ∧ c.poll watcher i = _
    unfold poll
    split
    · exact .inl ⟨rfl, rfl⟩
    · rename_i r hr
      split
      · exact .inl ⟨rfl, rfl⟩
      · rename_i move hmove
        exact .inr ⟨i, r, move, hr, hmove, rfl⟩

/-- What every step of a watch keeps, the clock and the token apart, holds after any
turns. -/
theorem run_inv {P : Crew σ → Prop} (hstart : P c)
    (hstride : ∀ c i r move, P c → c.watches[i]? = some r → r.move? c.world = some move →
      P (c.stride watcher i r move))
    (htime : ∀ c clock, P c → P (c.setClock clock)) (hfire : ∀ c, P c → P c.fire)
    (turns : List Turn) : P (c.run watcher turns) := by
  induction turns generalizing c with
  | nil => exact hstart
  | cons turn rest ih =>
    refine ih ?_
    cases turn with
    | time clock => exact htime c clock hstart
    | fire => exact hfire c hstart
    | poll i =>
      change P (c.poll watcher i)
      unfold poll
      split
      · exact hstart
      · rename_i r hr
        split
        · exact hstart
        · rename_i move hmove
          exact hstride c i r move hstart hr hmove

theorem run_length (turns : List Turn) :
    (c.run watcher turns).watches.length = c.watches.length :=
  run_inv (P := fun c' => c'.watches.length = c.watches.length) rfl
    (fun _ _ _ _ h _ _ => List.length_set.trans h) (fun _ _ => id) (fun _ => id) turns

theorem told_stride (i j : Nat) (r : Running) (move : Move Message Update) :
    (c.stride watcher i r move).told j =
      c.told j ++ (if i = j then move.effects else []) := by
  unfold told stride
  by_cases h : i = j
  · simp [h]
  · simp [h]

end Crew

/-! ### What callbacks leave alone -/

/-- What an agent has in store for a stream. -/
def attempts (agent : Agent) (stream : StreamKind) : Nat → Attempt Message
  | 0 => agent.next stream
  | n + 1 => attempts (agent.advance stream) stream n

/-- The agent after being asked for a stream so many times. -/
def advances (agent : Agent) (stream : StreamKind) : Nat → Agent
  | 0 => agent
  | n + 1 => advances (agent.advance stream) stream n

/-- Asking for a stream does not use up what is in store for another one. -/
theorem attempts_advance_of_ne {stream other : StreamKind} (h : other ≠ stream) :
    ∀ (k : Nat) (agent : Agent), attempts (agent.advance other) stream k = attempts agent stream k
  | 0, agent => by cases other <;> cases stream <;> first | rfl | exact absurd rfl h
  | k + 1, agent => by
    have hswap : (agent.advance other).advance stream = (agent.advance stream).advance other := by
      cases other <;> cases stream <;> rfl
    rw [attempts, attempts, hswap, attempts_advance_of_ne h k]

/-- What has been asked for is used up, of that stream alone. -/
theorem attempts_advances (stream other : StreamKind) (k : Nat) :
    ∀ (n : Nat) (agent : Agent), attempts (advances agent stream n) other k =
      attempts agent other (k + if other = stream then n else 0)
  | 0, agent => by simp [advances]
  | n + 1, agent => by
    rw [advances, attempts_advances stream other k n]
    by_cases hother : other = stream
    · subst hother
      rw [if_pos rfl, if_pos rfl]
      rfl
    · rw [if_neg hother, if_neg hother]
      exact attempts_advance_of_ne (Ne.symm hother) _ _

/-- The agent, the clock and the backoff are the same, and the token has not come
back. -/
structure World.Spares (w w' : World σ) : Prop where
  agent : w'.session.agent = w.session.agent
  clock : w'.session.clock = w.session.clock
  backoff : w'.session.backoff = w.session.backoff
  cancelled : w.cancelled = true → w'.cancelled = true

/-- The callbacks only keep things, write records and fire the token. -/
structure Watcher.Discreet (watcher : Watcher σ) : Prop where
  onUpdate : ∀ stream value w, World.Spares w (watcher.onUpdate stream value w)
  onError : ∀ stream cause w, World.Spares w (watcher.onError stream cause w)

namespace Watcher.Discreet

variable {watcher : Watcher σ} {stream : StreamKind} {w : World σ} {move : Move Message Update}

/-- What becomes of the session and the token when a step takes effect. -/
theorem foldl_apply (h : watcher.Discreet) (effects : List (Effect Update)) (w : World σ) :
    let w' := effects.foldl (World.apply watcher stream) w
    w'.session.clock = w.session.clock ∧ w'.session.backoff = w.session.backoff ∧
      (w.cancelled = true → w'.cancelled = true) ∧
      w'.session.agent = advances w.session.agent stream (effects.countP Effect.isOpening) := by
  induction effects generalizing w with
  | nil => exact ⟨rfl, rfl, id, rfl⟩
  | cons e rest ih =>
    obtain ⟨hclock, hbackoff, hcancelled, hagent⟩ := ih (w.apply watcher stream e)
    have hspared : (e.isOpening = false → World.Spares w (w.apply watcher stream e)) := by
      intro hopening
      cases e with
      | opened => cases hopening
      | update value => exact h.onUpdate stream value w
      | failed cause => exact h.onError stream cause w
      | log level text => exact ⟨rfl, rfl, rfl, id⟩
    cases hopening : e.isOpening with
    | false =>
      have hsame := hspared hopening
      refine ⟨hclock.trans hsame.clock, hbackoff.trans hsame.backoff,
        fun hfired => hcancelled (hsame.cancelled hfired), ?_⟩
      rw [List.foldl_cons, hagent, hsame.agent, List.countP_cons_of_neg (by simp [hopening])]
    | true =>
      obtain rfl : e = .opened := by cases e <;> first | rfl | cases hopening
      refine ⟨hclock, hbackoff, hcancelled, ?_⟩
      rw [List.foldl_cons, hagent, List.countP_cons_of_pos (by rfl)]
      rfl

theorem clock_afterMove (h : watcher.Discreet) :
    (w.afterMove watcher stream move).session.clock = w.session.clock :=
  (h.foldl_apply move.effects _).1

theorem backoff_afterMove (h : watcher.Discreet) :
    (w.afterMove watcher stream move).session.backoff = move.backoff :=
  (h.foldl_apply move.effects _).2.1

theorem cancelled_afterMove (h : watcher.Discreet) (hfired : w.cancelled = true) :
    (w.afterMove watcher stream move).cancelled = true :=
  (h.foldl_apply move.effects _).2.2.1 hfired

theorem agent_afterMove (h : watcher.Discreet) :
    (w.afterMove watcher stream move).session.agent =
      advances w.session.agent stream (move.effects.countP Effect.isOpening) :=
  (h.foldl_apply move.effects _).2.2.2

theorem attempts_afterMove (h : watcher.Discreet) (other : StreamKind) (k : Nat) :
    attempts (w.afterMove watcher stream move).session.agent other k =
      attempts w.session.agent other
        (k + if other = stream then move.effects.countP Effect.isOpening else 0) := by
  rw [h.agent_afterMove, attempts_advances]

end Watcher.Discreet

/-! ### Schedules are crews -/

/-- Watches in a world come to others in another one, by some turns. -/
def Reaches (watcher : Watcher σ) (watches : List Running) (w : World σ)
    (watches' : List Running) (w' : World σ) : Prop :=
  ∀ history, ∃ turns history',
    Crew.run watcher ⟨watches, w, history⟩ turns = ⟨watches', w', history'⟩

namespace Reaches

variable {watcher : Watcher σ} {watches watches' watches'' : List Running} {w w' w'' : World σ}

theorem refl : Reaches watcher watches w watches w := fun history => ⟨[], history, rfl⟩

theorem trans (h : Reaches watcher watches w watches' w')
    (h' : Reaches watcher watches' w' watches'' w'') :
    Reaches watcher watches w watches'' w'' := by
  intro history
  obtain ⟨turns, history', hturns⟩ := h history
  obtain ⟨more, history'', hmore⟩ := h' history'
  exact ⟨turns ++ more, history'', by rw [Crew.run_append, hturns, hmore]⟩

/-- One turn is enough. -/
theorem of_turn (turn : Turn)
    (h : ∀ history, ∃ history', Crew.after watcher ⟨watches, w, history⟩ turn =
      ⟨watches', w', history'⟩) : Reaches watcher watches w watches' w' := fun history =>
  have ⟨history', hturn⟩ := h history
  ⟨[turn], history', hturn⟩

theorem setClock (clock : Nat) :
    Reaches watcher watches w watches { w with session := { w.session with clock } } :=
  of_turn (.time clock) fun history => ⟨history, rfl⟩

theorem fire : Reaches watcher watches w watches { w with cancelled := true } :=
  of_turn .fire fun history => ⟨history, rfl⟩

/-- A step of a watch, wherever it stands. -/
theorem poll (front back : List Running) {r : Running} {move : Move Message Update}
    (hmove : r.move? w = some move) :
    Reaches watcher (front ++ r :: back) w
      (front ++ r.enter move.phase (w.ticks + 1) :: back)
      (w.afterMove watcher r.stream move) := by
  refine of_turn (.poll front.length) fun history =>
    ⟨⟨front.length, r.surroundings w, r.phase, move⟩ :: history, ?_⟩
  have hwatch : (front ++ r :: back)[front.length]? = some r := by simp
  have hset : (front ++ r :: back).set front.length (r.enter move.phase (w.ticks + 1)) =
      front ++ r.enter move.phase (w.ticks + 1) :: back := by simp
  simp only [Crew.after, Crew.poll, hwatch, hmove, Crew.stride, hset]

variable (watcher) in
/-- A watch that takes as many steps as it can. -/
theorem go (front back : List Running) (fuel : Nat) (r : Running) (w : World σ) :
    Reaches watcher (front ++ r :: back) w (front ++ (r.go watcher fuel w).1 :: back)
      (r.go watcher fuel w).2 := by
  induction fuel generalizing r w with
  | zero => exact refl
  | succ fuel ih =>
    rw [Running.go_succ]
    cases hmove : r.move? w with
    | none => exact refl
    | some move =>
      have hstep : Reaches watcher (front ++ r :: back) w
          (front ++ r.enter move.phase (w.ticks + 1) :: back)
          (w.afterMove watcher r.stream move) := poll front back hmove
      dsimp only
      split
      · exact hstep
      · exact hstep.trans (ih _ _)

end Reaches

namespace Task

variable (watcher : Watcher σ) {w : World σ}

theorem reaches_runWatch (front back : List Running) (fuel : Nat) (t : Task) (w : World σ)
    (i : Nat) :
    Reaches watcher (front ++ t.watches ++ back) w
      (front ++ (runWatch watcher fuel (t, w) i).1.watches ++ back)
      (runWatch watcher fuel (t, w) i).2 := by
  unfold runWatch
  dsimp only
  split
  · rename_i r hr
    obtain ⟨hi, rfl⟩ := List.getElem?_eq_some_iff.mp hr
    obtain ⟨before, behind, hwatches, -, hset⟩ :=
      @List.exists_of_set _ i (t.watches[i].go watcher fuel w).1 _ hi
    have hgo := Reaches.go watcher (front ++ before) (behind ++ back) fuel t.watches[i] w
    dsimp only
    rw [hset]
    nth_rewrite 1 [hwatches]
    simpa using hgo
  · exact Reaches.refl

/-- A turn of a task is made of turns of its watches. -/
theorem reaches_poll (front back : List Running) (t : Task) (w : World σ) :
    Reaches watcher (front ++ t.watches ++ back) w
      (front ++ (t.poll watcher w).1.watches ++ back) (t.poll watcher w).2 := by
  have hfold : ∀ (order : List Nat) (fuel : Nat) (t : Task) (w : World σ),
      Reaches watcher (front ++ t.watches ++ back) w
        (front ++ (order.foldl (runWatch watcher fuel) (t, w)).1.watches ++ back)
        (order.foldl (runWatch watcher fuel) (t, w)).2 := by
    intro order fuel
    induction order with
    | nil => exact fun _ _ => Reaches.refl
    | cons i rest ih =>
      exact fun t w => (reaches_runWatch watcher front back fuel t w i).trans (ih _ _)
  exact hfold t.order (t.fuel w) t w

end Task

namespace Schedule

/-- The watches of all tasks. -/
def watches (s : Schedule σ) : List Running := s.tasks.flatMap (·.watches)

/-- A schedule comes to another one with as many tasks, by turns of its watches, of
the clock and of the token. -/
structure Reaches (watcher : Watcher σ) (s s' : Schedule σ) : Prop where
  turns : Watch.Reaches watcher s.watches s.world s'.watches s'.world
  tasks : s'.tasks.length = s.tasks.length

variable {watcher : Watcher σ} {s s' s'' : Schedule σ}

theorem Reaches.refl : Reaches watcher s s := ⟨.refl, rfl⟩

theorem Reaches.trans (h : Reaches watcher s s') (h' : Reaches watcher s' s'') :
    Reaches watcher s s'' :=
  ⟨h.turns.trans h'.turns, h'.tasks.trans h.tasks⟩

theorem reaches_fire (s : Schedule σ) : Reaches watcher s s.fire := by
  unfold fire
  split
  · exact .refl
  · exact ⟨.fire, rfl⟩

theorem reaches_turn (s : Schedule σ) (i : Nat) : Reaches watcher s (s.turn watcher i) := by
  unfold turn
  split
  · exact .refl
  · rename_i t ht
    split
    · exact .refl
    · obtain ⟨hi, rfl⟩ := List.getElem?_eq_some_iff.mp ht
      obtain ⟨before, behind, htasks, -, hset⟩ :=
        @List.exists_of_set _ i (s.tasks[i].poll watcher s.world).1 _ hi
      have hpoll := Task.reaches_poll watcher (before.flatMap (·.watches))
        (behind.flatMap (·.watches)) s.tasks[i] s.world
      have hbefore : s.watches =
          before.flatMap (·.watches) ++ s.tasks[i].watches ++ behind.flatMap (·.watches) := by
        rw [watches]
        nth_rewrite 1 [htasks]
        simp
      have hafter : (s.tasks.set i (s.tasks[i].poll watcher s.world).1).flatMap (·.watches) =
          before.flatMap (·.watches) ++ (s.tasks[i].poll watcher s.world).1.watches ++
            behind.flatMap (·.watches) := by
        rw [hset]
        simp
      rw [← hbefore, ← hafter] at hpoll
      dsimp only
      split
      · exact ⟨hpoll, List.length_set⟩
      · exact ⟨hpoll, List.length_set⟩

theorem reaches_settleIn (fuel : Nat) (s : Schedule σ) :
    Reaches watcher s (s.settleIn watcher fuel) := by
  induction fuel generalizing s with
  | zero => exact .refl
  | succ fuel ih =>
    unfold settleIn
    split
    · exact .refl
    · rename_i i queue _
      have hqueue : Reaches watcher s { s with queue } := ⟨.refl, rfl⟩
      exact (hqueue.trans (reaches_turn _ i)).trans (ih _)
    · rename_i queue _
      have hqueue : Reaches watcher s { s with queue, fireAt := none } := ⟨.refl, rfl⟩
      exact (hqueue.trans (reaches_fire _)).trans (ih _)

theorem reaches_moveTo (s : Schedule σ) (clock : Nat) : Reaches watcher s (s.moveTo clock) :=
  ⟨.setClock clock, rfl⟩

/-- How a schedule goes on from a look: it has come to an end, or it comes to the time up
to which it runs, or to the next timer. -/
theorem runLooking_succ {M : Type} (watcher : Watcher σ) (until? : Option Nat)
    (look : M → Schedule σ → Option M) (fuel : Nat) (mind : M) (s : Schedule σ) :
    let s' := s.settle watcher
    let after := s.runLooking watcher until? look (fuel + 1) mind
    (look mind s' = none ∧ after = some (mind, s')) ∨
    ∃ mind', look mind s' = some mind' ∧
      ((s'.nextTimer? = none ∧ until? = none ∧ after = none) ∨
      (∃ clock, until? = some clock ∧ (∀ timer, s'.nextTimer? = some timer → clock ≤ timer) ∧
        after = some (mind', s'.moveTo clock)) ∨
      ∃ timer, s'.nextTimer? = some timer ∧ (∀ clock, until? = some clock → timer < clock) ∧
        after = (s'.moveTo timer).runLooking watcher until? look fuel mind') := by
  intro s' after
  have hafter : after = s.runLooking watcher until? look (fuel + 1) mind := rfl
  rw [runLooking] at hafter
  rw [hafter]
  cases hlook : look mind s' with
  | none => exact .inl ⟨rfl, rfl⟩
  | some mind' =>
    refine .inr ⟨mind', rfl, ?_⟩
    cases hnext : s'.nextTimer? with
    | none =>
      cases until? with
      | none => exact .inl ⟨rfl, rfl, rfl⟩
      | some clock => exact .inr (.inl ⟨clock, rfl, nofun, rfl⟩)
    | some timer =>
      cases until? with
      | none => exact .inr (.inr ⟨timer, rfl, nofun, rfl⟩)
      | some clock =>
        by_cases hclock : clock ≤ timer
        · exact .inr (.inl ⟨clock, rfl, fun _ h => Option.some.inj h ▸ hclock, if_pos hclock⟩)
        · exact .inr (.inr ⟨timer, rfl, fun _ h => Option.some.inj h ▸ Nat.not_le.mp hclock,
            if_neg hclock⟩)

/-- The same, if nothing is kept in mind. -/
theorem runIn_succ (watcher : Watcher σ) (until? : Option Nat) (holds : Schedule σ → Bool)
    (fuel : Nat) (s : Schedule σ) :
    let s' := s.settle watcher
    let after := s.runIn watcher until? holds (fuel + 1)
    (holds s' = true ∧ after = some s') ∨
    (holds s' = false ∧
      ((s'.nextTimer? = none ∧ until? = none ∧ after = none) ∨
      (∃ clock, until? = some clock ∧ (∀ timer, s'.nextTimer? = some timer → clock ≤ timer) ∧
        after = some (s'.moveTo clock)) ∨
      ∃ timer, s'.nextTimer? = some timer ∧ (∀ clock, until? = some clock → timer < clock) ∧
        after = (s'.moveTo timer).runIn watcher until? holds fuel)) := by
  intro s' after
  have hsucc := runLooking_succ watcher until? (fun _ s => if holds s then none else some ())
    fuel () s
  have hafter : after = (s.runLooking watcher until?
    (fun _ s => if holds s then none else some ()) (fuel + 1) ()).map (·.2) := rfl
  rw [hafter]
  rcases hsucc with ⟨hlook, hrun⟩ | ⟨_, hlook, hrest⟩
  · rw [hrun]
    exact .inl ⟨by simpa using hlook, rfl⟩
  · refine .inr ⟨by simpa using hlook, ?_⟩
    rcases hrest with ⟨hnext, huntil, hrun⟩ | ⟨clock, huntil, hnext, hrun⟩ |
      ⟨timer, hnext, huntil, hrun⟩
    · exact .inl ⟨hnext, huntil, by rw [hrun]; rfl⟩
    · exact .inr (.inl ⟨clock, huntil, hnext, by rw [hrun]; rfl⟩)
    · exact .inr (.inr ⟨timer, hnext, huntil, by rw [hrun]; rfl⟩)

theorem reaches_runLooking {M : Type} {until? : Option Nat} {look : M → Schedule σ → Option M}
    (fuel : Nat) {mind mind' : M} {s after : Schedule σ}
    (h : s.runLooking watcher until? look fuel mind = some (mind', after)) :
    Reaches watcher s after := by
  induction fuel generalizing s mind with
  | zero => cases h
  | succ fuel ih =>
    have hsettled : Reaches watcher s (s.settle watcher) := reaches_settleIn _ s
    rcases runLooking_succ watcher until? look fuel mind s with
      ⟨-, hrun⟩ | ⟨_, -, ⟨-, -, hrun⟩ | ⟨clock, -, -, hrun⟩ | ⟨timer, -, -, hrun⟩⟩
    · cases hrun.symm.trans h
      exact hsettled
    · cases hrun.symm.trans h
    · cases hrun.symm.trans h
      exact hsettled.trans (reaches_moveTo _ _)
    · exact hsettled.trans ((reaches_moveTo _ _).trans (ih (hrun.symm.trans h)))

theorem reaches_runIn {until? : Option Nat} {holds : Schedule σ → Bool} (fuel : Nat)
    {s after : Schedule σ} (h : s.runIn watcher until? holds fuel = some after) :
    Reaches watcher s after := by
  obtain ⟨⟨_, _⟩, hrun, rfl⟩ := Option.map_eq_some_iff.mp h
  exact reaches_runLooking fuel hrun

theorem reaches_runUntil {until? : Option Nat} {holds : Schedule σ → Bool}
    {s after : Schedule σ} (h : s.runUntil watcher until? holds = some after) :
    Reaches watcher s after :=
  reaches_runIn s.fuel h

/-- What the steps of watches keep, the clock and the token apart, holds of the world
whatever a schedule comes to. -/
theorem Reaches.inv_of_step {P : World σ → Prop} (h : Reaches watcher s s') (hstart : P s.world)
    (hmove : ∀ w (r : Running) move, P w → r.move? w = some move →
      P (w.afterMove watcher r.stream move))
    (htime : ∀ w clock, P w → P { w with session := { w.session with clock } })
    (hfire : ∀ w, P w → P { w with cancelled := true }) : P s'.world := by
  obtain ⟨turns, history, hturns⟩ := h.turns []
  have hrun : P (Crew.run watcher ⟨s.watches, s.world, []⟩ turns).world :=
    Crew.run_inv (P := fun c => P c.world) hstart
      (fun c _ r move hc _ hstep => hmove c.world r move hc hstep)
      (fun c clock hc => htime c.world clock hc) (fun c hc => hfire c.world hc) turns
  rwa [hturns] at hrun

/-- What any steps keep holds of the world whatever a schedule comes to. -/
theorem Reaches.inv {P : World σ → Prop} (h : Reaches watcher s s') (hstart : P s.world)
    (hmove : ∀ w stream move, P w → P (w.afterMove watcher stream move))
    (htime : ∀ w clock, P w → P { w with session := { w.session with clock } })
    (hfire : ∀ w, P w → P { w with cancelled := true }) : P s'.world :=
  h.inv_of_step hstart (fun w r move hw _ => hmove w r.stream move hw) htime hfire

/-- The watches of a crew are those of a schedule, task by task. -/
def IsCrew (s : Schedule σ) (c : Crew σ) : Prop := s.world = c.world ∧ s.watches = c.watches

theorem isCrew_start (session : Session) (keep : σ) (cancelled : Bool) (fireAt : Option Nat)
    (tasks : List (List StreamKind)) :
    (start session keep cancelled fireAt tasks).IsCrew
      (.start session keep cancelled tasks.flatten) := by
  refine ⟨rfl, ?_⟩
  rw [watches, start, Crew.start, List.map_flatten, List.flatMap_def, List.map_map]
  rfl

/-- **Whatever a schedule comes to, its crew comes to in some order of turns.** -/
theorem IsCrew.exists_run {c : Crew σ} (h : s.IsCrew c) (hreaches : Reaches watcher s s') :
    ∃ turns, s'.IsCrew (c.run watcher turns) := by
  obtain ⟨turns, history, hturns⟩ := hreaches.turns c.history
  rw [h.1, h.2] at hturns
  exact ⟨turns, by rw [hturns], by rw [hturns]⟩

/-- In a schedule of one task, all watches are in it. -/
theorem IsCrew.tasks_eq {c : Crew σ} (h : s.IsCrew c) (hlength : s.tasks.length = 1) :
    ∃ turns, s.tasks = [⟨c.watches, turns⟩] := by
  obtain ⟨t, ht⟩ := List.length_eq_one_iff.mp hlength
  have hwatches : s.watches = t.watches := by simp [watches, ht]
  exact ⟨t.turns, by rw [ht, ← h.2, hwatches]⟩

end Schedule
end Watch
end WorkloadIdentity
