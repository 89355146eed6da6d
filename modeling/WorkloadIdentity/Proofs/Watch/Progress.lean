/-
# Turns are long enough

A turn of a task is given fuel for the steps of its watches, and it does not run out.
Between two waits a watch takes at most four steps per attempt and one per item
(`Phase.toWait`), so that after a turn every watch has to wait (`Phase.Rests`), unless
one has ended with an error. Every time a watch waits for something that comes, this
uses up an item or an attempt (`Phase.timersLeft`).

Key definitions: `Watch.Phase.toWait`, `Watch.Phase.timersLeft`, `Watch.Phase.Rests`,
`Watch.Uses`, `Watch.Watcher.LeavesToken`, `Watch.Spends`.
Key theorems: `Watch.Taken.uses`, `Watch.Running.go_rests`, `Watch.Task.poll_spends`,
`Watch.Task.poll_rests`, `Watch.Task.poll_wakes`.
-/
import WorkloadIdentity.Proofs.Watch.Crew

namespace WorkloadIdentity
namespace Watch

variable {σ : Type}

/-! ### What an agent has left -/

theorem size_map {μ ν : Type} (f : μ → ν) (attempt : Attempt μ) :
    (attempt.map f).size = attempt.size := by
  cases attempt with
  | rejected cause => rfl
  | opened items closes => simp [Attempt.map, Attempt.size]

theorem queueSize_tail {μ : Type} (f : μ → Message) (queue : List (Attempt μ)) :
    (((queue.headD .silent).map f = .opened [] false ∧ queue.tail = queue) ∨
      Agent.queueSize queue.tail + ((queue.headD .silent).map f).size = Agent.queueSize queue) := by
  cases queue with
  | nil => exact .inl ⟨rfl, rfl⟩
  | cons attempt rest =>
    right
    rw [List.headD_cons, List.tail_cons, size_map, Agent.queueSize, Nat.add_comm]

/-- Asking for a stream uses up what comes of it, unless nothing does. -/
theorem size_advance (agent : Agent) (stream : StreamKind) :
    (agent.next stream = .opened [] false ∧ agent.advance stream = agent) ∨
      (agent.advance stream).size + (agent.next stream).size = agent.size := by
  cases stream with
  | x509Context =>
    rcases queueSize_tail Message.x509Svids agent.x509Svids with ⟨hsilent, htail⟩ | hsize
    · exact .inl ⟨hsilent, by rw [Agent.advance, htail]⟩
    · right
      simp only [Agent.advance, Agent.next, Agent.size]
      omega
  | x509Bundles =>
    rcases queueSize_tail Message.x509Bundles agent.x509Bundles with ⟨hsilent, htail⟩ | hsize
    · exact .inl ⟨hsilent, by rw [Agent.advance, htail]⟩
    · right
      simp only [Agent.advance, Agent.next, Agent.size]
      omega
  | jwtBundles =>
    rcases queueSize_tail Message.jwtBundles agent.jwtBundles with ⟨hsilent, htail⟩ | hsize
    · exact .inl ⟨hsilent, by rw [Agent.advance, htail]⟩
    · right
      simp only [Agent.advance, Agent.next, Agent.size]
      omega

/-! ### What a step uses up -/

section

variable {μ : Type}

/-- What a stream may still make of it: nothing if it stays silent, and otherwise the
items and its end. -/
def yield (items : List (Item μ)) (closes : Bool) : Nat :=
  if items.isEmpty && !closes then 0 else items.length + 1

theorem yield_le (items : List (Item μ)) (closes : Bool) :
    yield items closes ≤ items.length + 1 := by
  unfold yield
  split <;> omega

theorem yield_cons (item : Item μ) (rest : List (Item μ)) (closes : Bool) :
    yield (item :: rest) closes = rest.length + 2 := by
  simp [yield]

/-- A bound on the steps that it takes to read so much, and to pause if the stream
ends. -/
def toRead (items : List (Item μ)) (closes : Bool) : Nat :=
  if yield items closes = 0 then 1 else yield items closes + 4

theorem toRead_le (items : List (Item μ)) (closes : Bool) :
    toRead items closes ≤ items.length + 5 := by
  have hyield := yield_le items closes
  unfold toRead
  split <;> omega

theorem toRead_cons (item : Item μ) (rest : List (Item μ)) (closes : Bool) :
    toRead (item :: rest) closes = rest.length + 6 := by
  simp [toRead, yield_cons]

namespace Phase

/-- A bound on the steps until the watch waits, apart from those of further
attempts. -/
def toWait : Phase μ → Nat
  | .opening => 2
  | .reading items closes => toRead items closes
  | .over _ => 4
  | .pausing _ => 3
  | .awaiting _ items _ => items.length + 6
  | .sleeping _ => 3
  | .ended _ => 0

/-- A bound on the times at which the watch waits for something that comes, apart from
those of further attempts. -/
def timersLeft : Phase μ → Nat
  | .opening => 0
  | .reading items closes => yield items closes
  | .over _ => 1
  | .pausing _ => 1
  | .awaiting none _ _ => 0
  | .awaiting (some _) items closes => yield items closes + 1
  | .sleeping _ => 1
  | .ended _ => 0

theorem toWait_le (phase : Phase μ) : phase.toWait ≤ phase.size + 6 := by
  cases phase with
  | reading items closes =>
    have hread := toRead_le items closes
    simp only [toWait, size]
    omega
  | _ => simp [toWait, size]

theorem timersLeft_le (phase : Phase μ) : phase.timersLeft ≤ 2 * (phase.size + 1) := by
  cases phase with
  | reading items closes =>
    have hyield := yield_le items closes
    simp only [timersLeft, size]
    omega
  | awaiting timer items closes =>
    have hyield := yield_le items closes
    cases timer <;> simp only [timersLeft, size] <;> omega
  | _ => simp [timersLeft, size]


/-- The watch has to wait, for something that is yet to come if it comes at all. -/
def Rests (clock : Nat) (phase : Phase μ) : Prop :=
  phase.IsAtRest ∨ ∃ timer, phase.timer? = some timer ∧ clock < timer

theorem isSuspended_of_timer? {phase : Phase μ} {timer : Nat} (h : phase.timer? = some timer) :
    phase.isSuspended = true := by
  cases phase <;> first | rfl | cases h

/-- A watch whose timer has run out does not have to wait any longer. -/
theorem not_rests_of_timer? {phase : Phase μ} {clock : Nat} (h : phase.timer? = some clock) :
    ¬ phase.Rests clock := by
  rintro (hrest | ⟨timer, htimer, hlater⟩)
  · cases phase with
    | awaiting timer items closes =>
      rw [timer?] at h
      subst h
      exact hrest
    | sleeping timer => exact hrest
    | _ => cases h
  · rw [htimer] at h
    obtain rfl := Option.some.inj h
    exact Nat.lt_irrefl _ hlater

end Phase
end

/-- What a step uses up, of the agent and of what the watch has before it. A step that
does not lead to a wait brings the watch closer to one, and one that ends a wait uses up
something. -/
structure Uses (cancelled : Bool) (agent agent' : Agent) (phase phase' : Phase Message) :
    Prop where
  size : agent'.size ≤ agent.size
  timers : agent'.size + phase'.timersLeft ≤ agent.size + phase.timersLeft
  closer : phase'.isSuspended = false →
    4 * agent'.size + phase'.toWait < 4 * agent.size + phase.toWait
  wakes : cancelled = false → phase.isSuspended = true →
    agent'.size + phase'.timersLeft < agent.size + phase.timersLeft

/-- A step in which the agent is not asked for anything. -/
theorem Uses.same {cancelled : Bool} {agent : Agent} {phase phase' : Phase Message}
    (htimers : phase'.timersLeft ≤ phase.timersLeft)
    (hcloser : phase'.isSuspended = false → phase'.toWait < phase.toWait)
    (hwakes : cancelled = false → phase.isSuspended = true → phase'.timersLeft < phase.timersLeft) :
    Uses cancelled agent agent phase phase' where
  size := Nat.le_refl _
  timers := Nat.add_le_add_left htimers _
  closer h := Nat.add_lt_add_left (hcloser h) _
  wakes hlive h := Nat.add_lt_add_left (hwakes hlive h) _

theorem Taken.uses {name : String} {convert : Message → Except ApiError Update}
    {around : Surroundings Message} {phase : Phase Message} {move : Move Message Update}
    {agent : Agent} {stream : StreamKind} (h : Taken name convert around phase move)
    (hnext : around.next = agent.next stream) :
    Uses around.cancelled agent
      (advances agent stream (move.effects.countP Effect.isOpening)) phase move.phase := by
  have hadvance := size_advance agent stream
  rw [← hnext] at hadvance
  cases h with
  | rejected cause hcause =>
    rw [hcause] at hadvance
    have hsize : (agent.advance stream).size + 1 = agent.size :=
      hadvance.resolve_left fun h => nomatch h.1
    change Uses _ agent (agent.advance stream) _ _
    refine ⟨by omega, ?_, fun _ => ?_, nofun⟩
    · simp only [Phase.timersLeft]
      omega
    · simp only [Phase.toWait]
      omega
  | opened items closes hitems =>
    rw [hitems] at hadvance
    have hyield := yield_le items closes
    change Uses _ agent (agent.advance stream) _ _
    rcases hadvance with ⟨hsilent, hagent⟩ | hsize
    · obtain ⟨rfl, rfl⟩ := Attempt.opened.inj hsilent
      rw [hagent]
      exact .same (Nat.le_refl 0) (fun _ => by simp [Phase.toWait, toRead, yield]) nofun
    · have hread := toRead_le items closes
      simp only [Attempt.size] at hsize
      refine ⟨by omega, ?_, fun _ => ?_, nofun⟩
      · simp only [Phase.timersLeft]
        omega
      · simp only [Phase.toWait]
        omega
  | stopped _ hguarded hcancelled =>
    refine .same (Nat.zero_le _) (fun _ => ?_) fun hlive => ?_
    · cases phase <;> first | exact hguarded.elim | simp [Phase.toWait, stop]
    · rw [hcancelled] at hlive
      cases hlive
  | closing =>
    exact .same (Nat.le_refl 1) (fun _ => by simp [Phase.toWait, goOn, toRead, yield]) nofun
  | silent => exact .same (Nat.le_refl 0) nofun nofun
  | handed content value rest closes | passing rest closes =>
    have hyield := yield_le rest closes
    have hread := toRead_le rest closes
    refine .same ?_ (fun _ => ?_) nofun
    · simp only [Phase.timersLeft, goOn, yield_cons]
      omega
    · simp only [Phase.toWait, goOn, toRead_cons]
      omega
  | waiting millis rest closes =>
    have hyield := yield_le rest closes
    refine .same ?_ nofun nofun
    simp only [Phase.timersLeft, goOn, yield_cons]
    omega
  | unread content cause rest closes | status cause rest closes =>
    refine .same ?_ (fun _ => ?_) nofun
    · simp [Phase.timersLeft, goOn, yield_cons]
    · simp [Phase.toWait, goOn, toRead_cons]
  | closed | final | retried =>
    exact .same (by simp [Phase.timersLeft, Watch.closed, retry])
      (fun _ => by simp [Phase.toWait, Watch.closed, retry]) nofun
  | skipping => exact .same (Nat.zero_le _) (fun _ => by simp [Phase.toWait, goOn]) nofun
  | pausing => exact .same (Nat.le_refl 1) nofun nofun
  | arriving timer items closes =>
    have hread := toRead_le items closes
    refine .same (Nat.le_succ _) (fun _ => ?_) fun _ _ => Nat.lt_succ_self _
    simp only [Phase.toWait, goOn]
    omega
  | waking =>
    exact .same (Nat.zero_le _) (fun _ => by simp [Phase.toWait, goOn]) fun _ _ => Nat.one_pos

/-- A step into a wait is one that has to be waited for. -/
theorem Taken.rests {name : String} {convert : Message → Except ApiError Update}
    {around : Surroundings Message} {phase : Phase Message} {move : Move Message Update}
    (h : Taken name convert around phase move) (hsuspended : move.phase.isSuspended = true) :
    move.phase.Rests around.clock := by
  cases h with
  | silent => exact .inl trivial
  | waiting millis rest closes hmillis =>
    exact .inr ⟨_, rfl, Nat.lt_add_of_pos_right (Nat.pos_of_ne_zero hmillis)⟩
  | pausing delay hdelay =>
    exact .inr ⟨_, rfl, Nat.lt_add_of_pos_right (Nat.pos_of_ne_zero hdelay)⟩
  | _ => cases hsuspended

/-- A watch that does not go on has to wait. -/
theorem Running.rests_of_move? {r : Running} {w : World σ} (hmove : r.move? w = none) :
    r.phase.Rests w.session.clock := by
  by_contra hnot
  obtain ⟨hrest, htimer⟩ := not_or.mp hnot
  have hsome : (r.move? w).isSome := step_isSome hrest fun timer hphase => by
    by_contra hlater
    exact htimer ⟨timer, hphase, Nat.lt_of_not_le hlater⟩
  rw [hmove] at hsome
  cases hsome

/-- A watch that has to wait does not go on. -/
theorem Running.move?_of_rests {r : Running} {w : World σ} (hlive : w.cancelled = false)
    (hrests : r.phase.Rests w.session.clock) : r.move? w = none := by
  unfold move?
  rcases hrests with hrest | ⟨timer, htimer, hlater⟩
  · cases hphase : r.phase with
    | awaiting timer items closes =>
      cases timer with
      | none => simp [step, surroundings, hlive]
      | some timer => rw [hphase] at hrest; exact hrest.elim
    | ended result => rfl
    | _ => rw [hphase] at hrest; exact hrest.elim
  · have hclock : ¬ timer ≤ w.session.clock := Nat.not_le.mpr hlater
    cases hphase : r.phase with
    | awaiting timer? items closes =>
      rw [hphase, Phase.timer?] at htimer
      simp [step, surroundings, hlive, htimer, hclock]
    | sleeping timer' =>
      rw [hphase, Phase.timer?, Option.some.injEq] at htimer
      simp [step, surroundings, hlive, htimer, hclock]
    | _ => rw [hphase] at htimer; cases htimer

/-! ### Turns -/

/-- The callbacks leave the token alone. -/
structure Watcher.LeavesToken (watcher : Watcher σ) : Prop where
  onUpdate : ∀ stream value w, (watcher.onUpdate stream value w).cancelled = w.cancelled
  onError : ∀ stream cause w, (watcher.onError stream cause w).cancelled = w.cancelled

theorem Watcher.LeavesToken.cancelled_afterMove {watcher : Watcher σ} (h : watcher.LeavesToken)
    (stream : StreamKind) (w : World σ) (move : Move Message Update) :
    (w.afterMove watcher stream move).cancelled = w.cancelled := by
  have hfold : ∀ (effects : List (Effect Update)) (w : World σ),
      (effects.foldl (World.apply watcher stream) w).cancelled = w.cancelled := by
    intro effects
    induction effects with
    | nil => exact fun w => rfl
    | cons e rest ih =>
      intro w
      rw [List.foldl_cons, ih]
      cases e with
      | opened => rfl
      | update value => exact h.onUpdate stream value w
      | failed cause => exact h.onError stream cause w
      | log level text => rfl
  exact hfold move.effects _

/-- What a turn uses up, of the agent and of what watches have before them. The clock
and the token are left alone. -/
structure Spends (w w' : World σ) (timers timers' : Nat) : Prop where
  cancelled : w'.cancelled = w.cancelled
  clock : w'.session.clock = w.session.clock
  size : w'.session.agent.size ≤ w.session.agent.size
  timers : w'.session.agent.size + timers' ≤ w.session.agent.size + timers

namespace Spends

variable {w w' w'' : World σ} {timers timers' timers'' : Nat}

theorem refl : Spends w w timers timers := ⟨rfl, rfl, Nat.le_refl _, Nat.le_refl _⟩

theorem trans (h : Spends w w' timers timers') (h' : Spends w' w'' timers' timers'') :
    Spends w w'' timers timers'' :=
  ⟨h'.cancelled.trans h.cancelled, h'.clock.trans h.clock, Nat.le_trans h'.size h.size,
    Nat.le_trans h'.timers h.timers⟩

end Spends

namespace Task

variable {watcher : Watcher σ}

/-- A bound on the times at which watches wait for something that comes. -/
def timersOf : List Running → Nat
  | [] => 0
  | r :: rest => r.phase.timersLeft + timersOf rest

/-- For the watches of the task. -/
def timersLeft (t : Task) : Nat := timersOf t.watches

theorem timersOf_append (front back : List Running) :
    timersOf (front ++ back) = timersOf front + timersOf back := by
  induction front with
  | nil => exact (Nat.zero_add _).symm
  | cons r rest ih => rw [List.cons_append, timersOf, timersOf, ih, Nat.add_assoc]

theorem timersOf_le (watches : List Running) : timersOf watches ≤ 2 * openSize watches := by
  induction watches with
  | nil => exact Nat.le_refl 0
  | cons r rest ih =>
    have hfirst := r.phase.timersLeft_le
    rw [timersOf, openSize]
    omega

theorem timersLeft_set {t : Task} {i : Nat} {r : Running} (hr : t.watches[i]? = some r)
    (after : Running) :
    timersLeft { t with watches := t.watches.set i after } + r.phase.timersLeft =
      t.timersLeft + after.phase.timersLeft := by
  obtain ⟨hi, rfl⟩ := List.getElem?_eq_some_iff.mp hr
  obtain ⟨before, behind, hwatches, -, hset⟩ := @List.exists_of_set _ i after _ hi
  have hbefore : t.timersLeft =
      timersOf before + (t.watches[i].phase.timersLeft + timersOf behind) := by
    rw [timersLeft]
    nth_rewrite 1 [hwatches]
    rw [timersOf_append, timersOf]
  have hafter : timersLeft { t with watches := t.watches.set i after } =
      timersOf before + (after.phase.timersLeft + timersOf behind) := by
    rw [timersLeft, hset, timersOf_append, timersOf]
  omega

theorem mem_timers {t : Task} (hresult : t.result? = none) {set timer : Nat} :
    (set, timer) ∈ t.timers ↔
      ∃ r ∈ t.watches, r.phase.timer? = some timer ∧ r.timerSince = set := by
  simp only [timers, hresult, Option.isSome_none, Bool.false_eq_true, if_false, List.mem_filterMap,
    Option.map_eq_some_iff, Prod.mk.injEq]
  constructor
  · rintro ⟨r, hr, timer', htimer, rfl, rfl⟩
    exact ⟨r, hr, htimer, rfl⟩
  · rintro ⟨r, hr, htimer, rfl⟩
    exact ⟨r, hr, timer, htimer, rfl, rfl⟩

/-- Every watch is at a position in the order of the next turn. -/
theorem mem_order {t : Task} {i : Nat} : i ∈ t.order ↔ i < t.watches.length := by
  rw [order, List.mem_map]
  constructor
  · rintro ⟨j, hj, rfl⟩
    exact Nat.mod_lt _ (Nat.zero_lt_of_lt (List.mem_range.mp hj))
  · intro hi
    have hpos : 0 < t.watches.length := Nat.zero_lt_of_lt hi
    have hturns := Nat.mod_lt t.turns hpos
    refine ⟨(i + (t.watches.length - t.turns % t.watches.length)) % t.watches.length,
      List.mem_range.mpr (Nat.mod_lt _ hpos), ?_⟩
    have hsum : t.turns % t.watches.length +
        (i + (t.watches.length - t.turns % t.watches.length)) = i + t.watches.length := by omega
    rw [Nat.add_mod_mod, ← Nat.mod_add_mod, hsum, Nat.add_mod_right, Nat.mod_eq_of_lt hi]

theorem size_lt_openSize {r : Running} : ∀ {watches : List Running}, r ∈ watches →
    r.phase.size < openSize watches
  | first :: rest, h => by
    rw [openSize]
    rcases List.mem_cons.mp h with rfl | h
    · omega
    · have hrest := size_lt_openSize h
      omega

theorem runWatch_of_isSome {t : Task} (h : t.result?.isSome = true) (fuel : Nat) (w : World σ)
    (i : Nat) : runWatch watcher fuel (t, w) i = (t, w) := by
  obtain ⟨result, hresult⟩ := Option.isSome_iff_exists.mp h
  simp only [runWatch, hresult]

theorem runWatch_of_none {t : Task} (hresult : t.result? = none) (fuel : Nat) (w : World σ)
    {i : Nat} {r : Running} (hr : t.watches[i]? = some r) :
    runWatch watcher fuel (t, w) i =
      ({ t with watches := t.watches.set i (r.go watcher fuel w).1 }, (r.go watcher fuel w).2) := by
  simp only [runWatch, hresult, hr]

theorem foldl_of_isSome {t : Task} (h : t.result?.isSome = true) (fuel : Nat) (w : World σ)
    (order : List Nat) : order.foldl (runWatch watcher fuel) (t, w) = (t, w) := by
  induction order with
  | nil => rfl
  | cons i rest ih => rw [List.foldl_cons, runWatch_of_isSome h, ih]

theorem foldl_length (order : List Nat) (fuel : Nat) (t : Task) (w : World σ) :
    (order.foldl (runWatch watcher fuel) (t, w)).1.watches.length = t.watches.length := by
  induction order generalizing t w with
  | nil => rfl
  | cons i rest ih =>
    have hfirst : (runWatch watcher fuel (t, w) i).1.watches.length = t.watches.length := by
      unfold runWatch
      dsimp only
      split
      · exact List.length_set
      · rfl
    rw [List.foldl_cons, ih, hfirst]

end Task

section

variable {watcher : Watcher σ} (hdiscreet : watcher.Discreet)
include hdiscreet

namespace Running

theorem uses_move {r : Running} {w : World σ} {move : Move Message Update}
    (hmove : r.move? w = some move) :
    Uses w.cancelled w.session.agent (w.afterMove watcher r.stream move).session.agent r.phase
      move.phase := by
  rw [hdiscreet.agent_afterMove]
  exact (taken_of_step hmove).uses rfl

variable (htoken : watcher.LeavesToken)
include htoken

theorem spends_move {r : Running} {w : World σ} {move : Move Message Update}
    (hmove : r.move? w = some move) :
    Spends w (w.afterMove watcher r.stream move) r.phase.timersLeft move.phase.timersLeft :=
  have huses := uses_move hdiscreet hmove
  ⟨htoken.cancelled_afterMove _ _ _, hdiscreet.clock_afterMove, huses.size, huses.timers⟩

theorem go_spends (fuel : Nat) (r : Running) (w : World σ) :
    Spends w (r.go watcher fuel w).2 r.phase.timersLeft
      (r.go watcher fuel w).1.phase.timersLeft := by
  induction fuel generalizing r w with
  | zero => exact .refl
  | succ fuel ih =>
    rw [go_succ]
    cases hmove : r.move? w with
    | none => exact .refl
    | some move =>
      have hspends := spends_move hdiscreet htoken hmove
      have hphase : (r.enter move.phase (w.ticks + 1)).phase = move.phase := enter_phase _ _ _
      rw [← hphase] at hspends
      dsimp only
      split
      · exact hspends
      · exact hspends.trans (ih _ _)

/-- A watch that has enough fuel goes on until it has to wait. -/
theorem go_rests {r : Running} {w : World σ} {fuel : Nat} (hlive : w.cancelled = false)
    (hfuel : 4 * w.session.agent.size + r.phase.toWait < fuel) :
    (r.go watcher fuel w).1.phase.Rests w.session.clock := by
  induction fuel generalizing r w with
  | zero => cases hfuel
  | succ fuel ih =>
    rw [go_succ]
    cases hmove : r.move? w with
    | none => exact rests_of_move? hmove
    | some move =>
      have hspends := spends_move hdiscreet htoken hmove
      have hphase : (r.enter move.phase (w.ticks + 1)).phase = move.phase := enter_phase _ _ _
      dsimp only
      cases hsuspended : move.phase.isSuspended with
      | true =>
        rw [if_pos rfl, hphase]
        exact (taken_of_step hmove).rests hsuspended
      | false =>
        have hcloser := (uses_move hdiscreet hmove).closer hsuspended
        rw [if_neg Bool.false_ne_true, ← hspends.clock]
        refine ih (hspends.cancelled.trans hlive) ?_
        rw [hphase]
        omega

theorem go_rests_of_ready {r : Running} {w : World σ} {fuel : Nat} (hlive : w.cancelled = false)
    (h : r.phase.Rests w.session.clock ∨ 4 * w.session.agent.size + r.phase.toWait < fuel) :
    (r.go watcher fuel w).1.phase.Rests w.session.clock := by
  rcases h with hrests | hfuel
  · cases fuel with
    | zero => exact hrests
    | succ fuel =>
      rw [go_succ, move?_of_rests hlive hrests]
      exact hrests
  · exact go_rests hdiscreet htoken hlive hfuel

/-- A watch that has waited for something that has come uses something up. -/
theorem go_wakes {r : Running} {w : World σ} (fuel : Nat) (hlive : w.cancelled = false)
    (hsuspended : r.phase.isSuspended = true) (hnot : ¬ r.phase.Rests w.session.clock) :
    (r.go watcher (fuel + 1) w).2.session.agent.size +
      (r.go watcher (fuel + 1) w).1.phase.timersLeft <
        w.session.agent.size + r.phase.timersLeft := by
  rw [go_succ]
  cases hmove : r.move? w with
  | none => exact absurd (rests_of_move? hmove) hnot
  | some move =>
    have hwakes := (uses_move hdiscreet hmove).wakes hlive hsuspended
    have hphase : (r.enter move.phase (w.ticks + 1)).phase = move.phase := enter_phase _ _ _
    rw [← hphase] at hwakes
    dsimp only
    split
    · exact hwakes
    · exact Nat.lt_of_le_of_lt (go_spends hdiscreet htoken _ _ _).timers hwakes

end Running

namespace Task

variable (htoken : watcher.LeavesToken)
include htoken

theorem runWatch_spends {t : Task} (fuel : Nat) (w : World σ) {i : Nat} {r : Running}
    (hr : t.watches[i]? = some r) :
    Spends w (r.go watcher fuel w).2 t.timersLeft
      (timersLeft { t with watches := t.watches.set i (r.go watcher fuel w).1 }) := by
  have hspends := Running.go_spends hdiscreet htoken fuel r w
  have hset := timersLeft_set hr (r.go watcher fuel w).1
  have htimers := hspends.timers
  exact ⟨hspends.cancelled, hspends.clock, hspends.size, by omega⟩

theorem foldl_spends (fuel : Nat) (order : List Nat) (t : Task) (w : World σ)
    (horder : ∀ i ∈ order, i < t.watches.length) :
    Spends w (order.foldl (runWatch watcher fuel) (t, w)).2 t.timersLeft
      (order.foldl (runWatch watcher fuel) (t, w)).1.timersLeft := by
  induction order generalizing t w with
  | nil => exact .refl
  | cons i rest ih =>
    cases hresult : t.result? with
    | some result =>
      rw [foldl_of_isSome (by rw [hresult]; rfl)]
      exact .refl
    | none =>
      have hlength := horder i List.mem_cons_self
      have hi : t.watches[i]? = some t.watches[i] := List.getElem?_eq_getElem hlength
      rw [List.foldl_cons, runWatch_of_none hresult fuel w hi]
      refine (runWatch_spends hdiscreet htoken fuel w hi).trans (ih _ _ fun j hj => ?_)
      rw [List.length_set]
      exact horder j (.tail _ hj)

/-- Once all watches have had their turn, every one of them has to wait, unless one has
ended with an error. -/
theorem foldl_rests {fuel : Nat} (order : List Nat) (t : Task) (w : World σ)
    (hlive : w.cancelled = false) (horder : ∀ i ∈ order, i < t.watches.length)
    (hready : ∀ (i : Nat) (r : Running), t.watches[i]? = some r → r.phase.Rests w.session.clock ∨
      4 * w.session.agent.size + r.phase.toWait < fuel) :
    (order.foldl (runWatch watcher fuel) (t, w)).1.result?.isSome = true ∨
      ∀ (i : Nat) (r : Running),
        (order.foldl (runWatch watcher fuel) (t, w)).1.watches[i]? = some r →
        (i ∈ order ∨ ∃ before : Running, t.watches[i]? = some before ∧
          before.phase.Rests w.session.clock) → r.phase.Rests w.session.clock := by
  -- a watch has had its turn, and has to wait since, or is still to have it
  induction order generalizing t w with
  | nil =>
    refine .inr fun i r hr hrests => ?_
    rcases hrests with hmem | ⟨before, hbefore, hrests⟩
    · cases hmem
    · obtain rfl := Option.some.inj (hr.symm.trans hbefore)
      exact hrests
  | cons k rest ih =>
    cases hresult : t.result? with
    | some result =>
      rw [foldl_of_isSome (by rw [hresult]; rfl)]
      exact .inl (by rw [hresult]; rfl)
    | none =>
      have hlength := horder k List.mem_cons_self
      have hk : t.watches[k]? = some t.watches[k] := List.getElem?_eq_getElem hlength
      rw [List.foldl_cons, runWatch_of_none hresult fuel w hk]
      let after := (t.watches[k].go watcher fuel w).1
      have hspends := runWatch_spends hdiscreet htoken fuel w hk
      have hrests : after.phase.Rests w.session.clock :=
        Running.go_rests_of_ready hdiscreet htoken hlive (hready k _ hk)
      have hself : (t.watches.set k after)[k]? = some after := List.getElem?_set_self hlength
      rw [← hspends.clock] at hready hrests ⊢
      refine (ih { t with watches := t.watches.set k after } _ (hspends.cancelled.trans hlive)
        (fun i hi => ?_) fun i r hr => ?_).imp_right fun hall i r hr hi => hall i r hr ?_
      · rw [List.length_set]
        exact horder i (.tail _ hi)
      · -- the others have no more before them than they had
        by_cases hik : k = i
        · subst hik
          obtain rfl := Option.some.inj (hself.symm.trans hr)
          exact .inl hrests
        · refine (hready i r ((List.getElem?_set_ne hik).symm.trans hr)).imp_right fun hfuel => ?_
          have hsize := hspends.size
          omega
      · by_cases hik : k = i
        · subst hik
          exact .inr ⟨after, hself, hrests⟩
        · rcases hi with hmem | ⟨before, hbefore, hbrests⟩
          · exact .inl ((List.mem_cons.mp hmem).resolve_left (Ne.symm hik))
          · exact .inr ⟨before, (List.getElem?_set_ne hik).trans hbefore, hbrests⟩

/-- A watch that has waited for something that has come uses something up in its turn,
unless another one ends with an error before that. -/
theorem foldl_wakes (fuel : Nat) (order : List Nat) (t : Task) (w : World σ)
    (hlive : w.cancelled = false) (horder : ∀ i ∈ order, i < t.watches.length) {i : Nat}
    {r : Running} (hi : i ∈ order) (hr : t.watches[i]? = some r)
    (hsuspended : r.phase.isSuspended = true) (hnot : ¬ r.phase.Rests w.session.clock) :
    (order.foldl (runWatch watcher (fuel + 1)) (t, w)).1.result?.isSome = true ∨
      (order.foldl (runWatch watcher (fuel + 1)) (t, w)).2.session.agent.size +
        (order.foldl (runWatch watcher (fuel + 1)) (t, w)).1.timersLeft <
          w.session.agent.size + t.timersLeft := by
  induction order generalizing t w with
  | nil => cases hi
  | cons k rest ih =>
    cases hresult : t.result? with
    | some result =>
      rw [foldl_of_isSome (by rw [hresult]; rfl)]
      exact .inl (by rw [hresult]; rfl)
    | none =>
      have hlength := horder k List.mem_cons_self
      have hk : t.watches[k]? = some t.watches[k] := List.getElem?_eq_getElem hlength
      rw [List.foldl_cons, runWatch_of_none hresult (fuel + 1) w hk]
      have hspends := runWatch_spends hdiscreet htoken (fuel + 1) w hk
      have hrest : ∀ j ∈ rest, j < (t.watches.set k
          (t.watches[k].go watcher (fuel + 1) w).1).length := by
        intro j hj
        rw [List.length_set]
        exact horder j (.tail _ hj)
      by_cases hki : k = i
      · -- the watch that wakes up; what comes after it uses up no less
        subst hki
        obtain rfl := Option.some.inj (hk.symm.trans hr)
        have hwakes := Running.go_wakes hdiscreet htoken fuel hlive hsuspended hnot
        have hset := timersLeft_set hk (t.watches[k].go watcher (fuel + 1) w).1
        have hlater := (foldl_spends hdiscreet htoken (fuel + 1) rest
          { t with watches := t.watches.set k (t.watches[k].go watcher (fuel + 1) w).1 }
          (t.watches[k].go watcher (fuel + 1) w).2 hrest).timers
        exact .inr (by omega)
      · have hmem := (List.mem_cons.mp hi).resolve_left (Ne.symm hki)
        have htimers := hspends.timers
        refine (ih _ _ (hspends.cancelled.trans hlive) hrest hmem
          ((List.getElem?_set_ne hki).trans hr) ?_).imp_right fun hless => by omega
        rwa [hspends.clock]

theorem poll_spends (t : Task) (w : World σ) :
    Spends w (t.poll watcher w).2 t.timersLeft (t.poll watcher w).1.timersLeft :=
  foldl_spends hdiscreet htoken (t.fuel w) t.order t w fun _ => mem_order.mp

/-- After its turn every watch has to wait, unless one has ended with an error. -/
theorem poll_rests (t : Task) {w : World σ} (hlive : w.cancelled = false) :
    (t.poll watcher w).1.result?.isSome = true ∨
      ∀ r ∈ (t.poll watcher w).1.watches, r.phase.Rests w.session.clock := by
  have hlength := (foldl_length t.order (t.fuel w) t w : (t.poll watcher w).1.watches.length = _)
  refine (foldl_rests hdiscreet htoken t.order t w hlive (fun _ => mem_order.mp)
    fun i r hr => .inr ?_).imp_right fun hall r hmem => ?_
  · have hsize := size_lt_openSize (List.mem_of_getElem? hr)
    have hwait := r.phase.toWait_le
    rw [fuel]
    omega
  · obtain ⟨i, hi, hr⟩ := List.getElem_of_mem hmem
    refine hall i r ?_ (.inl (mem_order.mpr ?_))
    · rw [← hr]
      exact List.getElem?_eq_getElem hi
    · rwa [← hlength]

theorem poll_wakes (t : Task) {w : World σ} (hlive : w.cancelled = false) {r : Running}
    (hr : r ∈ t.watches) (hsuspended : r.phase.isSuspended = true)
    (hnot : ¬ r.phase.Rests w.session.clock) :
    (t.poll watcher w).1.result?.isSome = true ∨
      (t.poll watcher w).2.session.agent.size + (t.poll watcher w).1.timersLeft <
        w.session.agent.size + t.timersLeft := by
  obtain ⟨i, hi, hget⟩ := List.getElem_of_mem hr
  have hfuel : t.fuel w = (t.fuel w - 1) + 1 := by
    rw [fuel]
    omega
  have hwakes := foldl_wakes hdiscreet htoken (t.fuel w - 1) t.order t w hlive
    (fun _ => mem_order.mp) (mem_order.mpr hi) (hget ▸ List.getElem?_eq_getElem hi) hsuspended hnot
  rwa [← hfuel] at hwakes

end Task
end

end Watch
end WorkloadIdentity
