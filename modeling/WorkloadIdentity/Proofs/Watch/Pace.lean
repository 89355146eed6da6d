/-
# Pauses grow with the attempts that have ended

Watches on one session share its backoff. Each takes a delay whenever one of its
attempts has ended and another one is to follow, and an update that any of them hands
on starts the delays over. So the counter of the backoff is the number of attempts
that have ended since the last update, whichever watch they were of
(`Watch.endsSince`), however their steps come in between each other. An attempt counts
from the step on in which its watch takes the delay; between that step and the next
attempt of the watch there is nothing but the pause.

Key definitions: `Watch.Stride.ends`, `Watch.Stride.delivers`, `Watch.endsSince`,
`Watch.Linked`, `Watch.Paused`.
Key theorems: `Watch.Crew.run_paced`, `Watch.Crew.run_linked`,
`Watch.Linked.paused`, `Watch.reconnects_paced`.
-/
import WorkloadIdentity.Proofs.Backoff
import WorkloadIdentity.Proofs.Watch.Cancellation
import WorkloadIdentity.Proofs.Watch.Scheduled

namespace WorkloadIdentity
namespace Watch

variable {σ : Type}

/-! ### What counts -/

namespace Stride

/-- An attempt has ended, and another one is to follow. -/
def ends (s : Stride) : Bool :=
  match s.before with
  | .over (.ok ()) => true
  | .over (.error cause) => !cause.isTerminal
  | _ => false

/-- An update is handed on. -/
def delivers (s : Stride) : Bool :=
  s.move.effects.any fun
    | .update _ => true
    | _ => false

/-- The stride is a step of a watch. -/
def IsStep (s : Stride) : Prop :=
  ∃ name, step name Message.toUpdate s.around s.before = some s.move

/-- What becomes of the backoff in a step. -/
inductive Paces (s : Stride) : Prop
  | ended (hends : s.ends = true) (hdelivers : s.delivers = false)
    (hphase : s.move.phase = .pausing s.around.backoff.next.1)
    (hbackoff : s.move.backoff = s.around.backoff.next.2)
  | delivered (hends : s.ends = false) (hdelivers : s.delivers = true)
    (hphase : ∀ delay, s.move.phase ≠ .pausing delay)
    (hbackoff : s.move.backoff = s.around.backoff.reset)
  | other (hends : s.ends = false) (hdelivers : s.delivers = false)
    (hphase : ∀ delay, s.move.phase ≠ .pausing delay)
    (hbackoff : s.move.backoff = s.around.backoff)

theorem IsStep.paces {s : Stride} (h : s.IsStep) : s.Paces := by
  obtain ⟨name, hmove⟩ := h
  obtain ⟨i, around, before, move⟩ := s
  change step name Message.toUpdate around before = some move at hmove
  cases taken_of_step hmove with
  | closed => exact .ended rfl rfl rfl rfl
  | retried cause hretried => exact .ended (by simp [ends, hretried]) rfl rfl rfl
  | final cause hterminal => exact .other (by simp [ends, hterminal]) rfl nofun rfl
  | handed => exact .delivered rfl rfl nofun rfl
  | stopped _ hguarded =>
    refine .other ?_ rfl nofun rfl
    cases before <;> first | rfl | exact hguarded.elim
  | _ => exact .other rfl rfl nofun rfl

/-- Only an attempt that has ended leads to a pause. -/
theorem IsStep.ends_of_pausing {s : Stride} (h : s.IsStep) {delay : Duration}
    (hphase : s.move.phase = .pausing delay) : s.ends = true := by
  cases h.paces with
  | ended hends => exact hends
  | delivered _ _ hnot => exact absurd hphase (hnot delay)
  | other _ _ hnot => exact absurd hphase (hnot delay)

/-- Only a pause leads to sleep, for as long as it takes. -/
theorem IsStep.of_sleeping {s : Stride} (h : s.IsStep) {timer : Nat}
    (hphase : s.move.phase = .sleeping timer) :
    ∃ delay, s.before = .pausing delay ∧ timer = s.around.clock + delay.ceilMillis := by
  obtain ⟨name, hmove⟩ := h
  obtain ⟨i, around, before, move⟩ := s
  change step name Message.toUpdate around before = some move at hmove
  cases taken_of_step hmove with
  | pausing delay => exact ⟨delay, rfl, (Phase.sleeping.inj hphase).symm⟩
  | _ => cases hphase

/-- Only the end of a pause leads to another attempt. -/
theorem IsStep.of_opening {s : Stride} (h : s.IsStep) (hphase : s.move.phase = .opening) :
    (∃ delay, s.before = .pausing delay ∧ delay.ceilMillis = 0) ∨
      ∃ timer, s.before = .sleeping timer ∧ timer ≤ s.around.clock := by
  obtain ⟨name, hmove⟩ := h
  obtain ⟨i, around, before, move⟩ := s
  change step name Message.toUpdate around before = some move at hmove
  cases taken_of_step hmove with
  | skipping delay hzero => exact .inl ⟨delay, rfl, hzero⟩
  | waking timer hclock => exact .inr ⟨timer, rfl, hclock⟩
  | _ => cases hphase

end Stride

/-- How many attempts have ended since the last update; the history has the last step
first. -/
def endsSince (history : List Stride) : Nat :=
  (history.takeWhile (!·.delivers)).countP (·.ends)

variable {s : Stride} {earlier : List Stride}

theorem endsSince_of_delivers (h : s.delivers = true) : endsSince (s :: earlier) = 0 := by
  simp [endsSince, h]

theorem endsSince_of_not_delivers (h : s.delivers = false) :
    endsSince (s :: earlier) = endsSince earlier + if s.ends then 1 else 0 := by
  simp only [endsSince, List.takeWhile_cons, h, Bool.not_false, if_true, List.countP_cons]

/-! ### Delays -/

namespace Crew

variable {watcher : Watcher σ} {c : Crew σ} {initial max : Duration}

/-- The counter of the backoff is the number of attempts that have ended since the
last update, and every delay has been made from it. -/
structure IsPaced (initial max : Duration) (c : Crew σ) : Prop where
  backoff : c.world.session.backoff = ⟨initial, max, .ofNat (endsSince c.history)⟩
  delays : ∀ s earlier, s :: earlier <:+ c.history → s.ends = true →
    s.move.phase = .pausing (Backoff.next ⟨initial, max, .ofNat (endsSince earlier)⟩).1

/-- Every step of a watch keeps the pace. -/
theorem IsPaced.stride (hdiscreet : watcher.Discreet) (h : c.IsPaced initial max) {i : Nat}
    {r : Running} {move : Move Message Update} (hmove : r.move? c.world = some move) :
    (c.stride watcher i r move).IsPaced initial max := by
  let s : Stride := ⟨i, r.surroundings c.world, r.phase, move⟩
  have hstep : s.IsStep := ⟨r.stream.name, hmove⟩
  have hbefore : s.around.backoff = ⟨initial, max, .ofNat (endsSince c.history)⟩ := h.backoff
  have hafter : (c.stride watcher i r move).world.session.backoff = s.move.backoff :=
    hdiscreet.backoff_afterMove
  refine ⟨?_, fun s' earlier hsuffix hends => ?_⟩
  · rw [hafter]
    change _ = Backoff.mk initial max (.ofNat (endsSince (s :: c.history)))
    cases hstep.paces with
    | ended hends hdelivers _ hbackoff =>
      rw [hbackoff, hbefore, endsSince_of_not_delivers hdelivers, if_pos hends, UInt32.ofNat_add]
      rfl
    | delivered _ hdelivers _ hbackoff =>
      rw [hbackoff, hbefore, endsSince_of_delivers hdelivers]
      rfl
    | other hends hdelivers _ hbackoff =>
      rw [hbackoff, hbefore, endsSince_of_not_delivers hdelivers, hends]
      rfl
  · rcases List.suffix_cons_iff.mp hsuffix with heq | hsuffix
    · obtain ⟨rfl, rfl⟩ := List.cons.inj heq
      cases hstep.paces with
      | ended _ _ hphase => rw [← hbefore]; exact hphase
      | delivered hnot => exact absurd hends (Bool.eq_false_iff.mp hnot)
      | other hnot => exact absurd hends (Bool.eq_false_iff.mp hnot)
    · exact h.delays s' earlier hsuffix hends

theorem run_paced (hdiscreet : watcher.Discreet) (initial max : Duration) (session : Session)
    (keep : σ) (cancelled : Bool) (streams : List StreamKind) (turns : List Turn) :
    ((start { session with backoff := .new initial max } keep cancelled streams).run watcher
      turns).IsPaced initial max :=
  run_inv ⟨rfl, fun _ _ hsuffix => by cases List.suffix_nil.mp hsuffix⟩
    (fun _ _ _ _ h _ hmove => h.stride hdiscreet hmove) (fun _ _ h => ⟨h.backoff, h.delays⟩)
    (fun _ h => ⟨h.backoff, h.delays⟩) turns

end Crew

/-! ### Pauses -/

/-- Steps of one watch, the last one first: each begins where the one before it has
led, and the first one at the beginning. -/
def Linked : List Stride → Phase Message → Prop
  | [], phase => phase = .opening
  | s :: earlier, phase => s.move.phase = phase ∧ s.IsStep ∧ Linked earlier s.before

/-- A pause has just come to an end: an attempt has ended, the pause has begun, and
the watch has woken up, no earlier than the pause was over. A pause that takes no time
ends where it begins. -/
inductive Paused (delay : Duration) : List Stride → Prop
  | slept (ended pause wake : Stride) (before : List Stride) (hends : ended.ends = true)
    (hended : ended.move.phase = .pausing delay) (hpause : pause.before = .pausing delay)
    (hwake : wake.before = .sleeping (pause.around.clock + delay.ceilMillis))
    (hclock : pause.around.clock + delay.ceilMillis ≤ wake.around.clock) :
    Paused delay (wake :: pause :: ended :: before)
  | skipped (ended pause : Stride) (before : List Stride) (hends : ended.ends = true)
    (hended : ended.move.phase = .pausing delay) (hpause : pause.before = .pausing delay)
    (hzero : delay.ceilMillis = 0) : Paused delay (pause :: ended :: before)

namespace Linked

variable {strides : List Stride} {phase : Phase Message}

theorem of_suffix : ∀ {strides : List Stride} {phase : Phase Message}, Linked strides phase →
    s :: earlier <:+ strides → s.IsStep ∧ Linked earlier s.before
  | [], _, _, hsuffix => by cases List.suffix_nil.mp hsuffix
  | s' :: strides, _, ⟨_, hstep, hlinked⟩, hsuffix => by
    rcases List.suffix_cons_iff.mp hsuffix with heq | hsuffix
    · obtain ⟨rfl, rfl⟩ := List.cons.inj heq
      exact ⟨hstep, hlinked⟩
    · exact hlinked.of_suffix hsuffix

/-- A pause follows upon the end of an attempt. -/
theorem exists_ended {delay : Duration} (h : Linked strides (.pausing delay)) :
    ∃ ended before, strides = ended :: before ∧ ended.ends = true ∧
      ended.move.phase = .pausing delay := by
  cases strides with
  | nil => cases h
  | cons ended before =>
    obtain ⟨hphase, hstep, -⟩ := h
    exact ⟨ended, before, rfl, hstep.ends_of_pausing hphase, hphase⟩

/-- A watch that is about to ask for a stream again has just paused. -/
theorem paused (h : Linked strides .opening) : strides = [] ∨ ∃ delay, Paused delay strides := by
  cases strides with
  | nil => exact .inl rfl
  | cons last earlier =>
    right
    obtain ⟨hphase, hstep, hlinked⟩ := h
    rcases hstep.of_opening hphase with ⟨delay, hpause, hzero⟩ | ⟨timer, hwake, hclock⟩
    · rw [hpause] at hlinked
      obtain ⟨ended, before, rfl, hends, hended⟩ := hlinked.exists_ended
      exact ⟨delay, .skipped ended last before hends hended hpause hzero⟩
    · rw [hwake] at hlinked
      cases earlier with
      | nil => cases hlinked
      | cons pause earlier =>
        obtain ⟨hphase, hstep, hlinked⟩ := hlinked
        obtain ⟨delay, hpause, rfl⟩ := hstep.of_sleeping hphase
        rw [hpause] at hlinked
        obtain ⟨ended, before, rfl, hends, hended⟩ := hlinked.exists_ended
        exact ⟨delay, .slept ended pause last before hends hended hpause hwake hclock⟩

end Linked

namespace Crew

variable {watcher : Watcher σ} {c : Crew σ}

/-- The steps of the watch at a position, the last one first. -/
def strides (c : Crew σ) (i : Nat) : List Stride := c.history.filter (·.watch = i)

/-- The steps of every watch have led to where it stands. -/
def IsLinked (c : Crew σ) : Prop :=
  ∀ i, Linked (c.strides i) (c.watches[i]?.elim .opening (·.phase))

theorem IsLinked.stride (h : c.IsLinked) {i : Nat} {r : Running} {move : Move Message Update}
    (hr : c.watches[i]? = some r) (hmove : r.move? c.world = some move) :
    (c.stride watcher i r move).IsLinked := by
  intro j
  have hi := (List.getElem?_eq_some_iff.mp hr).1
  unfold strides Crew.stride
  by_cases hij : i = j
  · subst hij
    have hbefore := h i
    rw [hr, Option.elim_some] at hbefore
    rw [List.filter_cons_of_pos (by simp), List.getElem?_set_self hi, Option.elim_some,
      Running.enter_phase]
    exact ⟨rfl, ⟨r.stream.name, hmove⟩, hbefore⟩
  · rw [List.filter_cons_of_neg (by simpa using hij), List.getElem?_set_ne hij]
    exact h j

theorem run_linked (session : Session) (keep : σ) (cancelled : Bool) (streams : List StreamKind)
    (turns : List Turn) : ((start session keep cancelled streams).run watcher turns).IsLinked := by
  refine run_inv (fun i => ?_) (fun _ _ _ _ h hr hmove => h.stride hr hmove)
    (fun _ _ h => h) (fun _ h => h) turns
  rw [start, List.getElem?_map]
  cases streams[i]? <;> rfl

/-- All that has happened are steps of watches. -/
theorem IsLinked.isStep (h : c.IsLinked) (hsuffix : s :: earlier <:+ c.history) : s.IsStep := by
  have hmem : s ∈ c.strides s.watch :=
    List.mem_filter.mpr ⟨hsuffix.subset List.mem_cons_self, by simp⟩
  obtain ⟨later, before, hstrides⟩ := List.append_of_mem hmem
  exact ((h s.watch).of_suffix ⟨later, hstrides.symm⟩).1

/-- A watch that sleeps wakes up at the first poll that comes when the pause is
over. -/
theorem exists_poll_sleeping {i : Nat} {r : Running} {timer : Nat} (hr : c.watches[i]? = some r)
    (hphase : r.phase = .sleeping timer) (hlive : c.world.cancelled = false) :
    ∃ r', (c.poll watcher i).watches[i]? = some r' ∧
      r'.phase = if timer ≤ c.world.session.clock then .opening else .sleeping timer := by
  have hmove : r.move? c.world =
      if timer ≤ c.world.session.clock then some (goOn (r.surroundings c.world) .opening)
      else none := by
    rw [Running.move?, hphase]
    simp [step, Running.surroundings, hlive]
  unfold poll
  simp only [hr, hmove]
  by_cases hclock : timer ≤ c.world.session.clock
  · simp only [if_pos hclock]
    exact ⟨_, List.getElem?_set_self (List.getElem?_eq_some_iff.mp hr).1, Running.enter_phase _ _ _⟩
  · simp only [if_neg hclock]
    exact ⟨r, hr, hphase⟩

end Crew

/-- **Reconnects are paced by the attempts that have ended.** Any number of watches may
share a backoff, and their steps may come in any order. Whenever an attempt of one of
them has ended and another one is to follow, the delay is as many initial delays as
attempts, this one included and whosever they were, have ended since the last update
that any of them handed on, but never longer than the cap. A watch that asks for a
stream again has paused for the delay of its last attempt and done nothing else; its
pause is over at the first poll that comes no earlier than the delay after the pause
has begun. -/
theorem reconnects_paced {watcher : Watcher σ} (hdiscreet : watcher.Discreet) {max : Duration}
    (hmax : max.IsValid) (initial : Duration) (session : Session) (keep : σ) (cancelled : Bool)
    (streams : List StreamKind) (turns : List Turn) :
    let c := (Crew.start { session with backoff := .new initial max } keep cancelled streams).run
      watcher turns
    (∀ s earlier, s :: earlier <:+ c.history → s.ends = true →
      endsSince (s :: earlier) < Nat.pow 2 32 → ∃ delay, s.move.phase = .pausing delay ∧
        delay.toNanos = Nat.min (initial.toNanos * endsSince (s :: earlier)) max.toNanos) ∧
    (∀ i s earlier, s :: earlier <:+ c.strides i → s.before = .opening →
      earlier = [] ∨ ∃ delay, Paused delay earlier) ∧
    (∀ i r timer, c.watches[i]? = some r → r.phase = .sleeping timer →
      c.world.cancelled = false → ∃ r', (c.poll watcher i).watches[i]? = some r' ∧
        r'.phase = if timer ≤ c.world.session.clock then .opening else .sleeping timer) := by
  intro c
  have hpaced : c.IsPaced initial max :=
    Crew.run_paced hdiscreet initial max session keep cancelled streams turns
  have hlinked : c.IsLinked := Crew.run_linked _ keep cancelled streams turns
  refine ⟨fun s earlier hsuffix hends hcount => ?_, fun i s earlier hsuffix hphase => ?_,
    fun i r timer hr hphase hlive => Crew.exists_poll_sleeping hr hphase hlive⟩
  · refine ⟨_, hpaced.delays s earlier hsuffix hends, ?_⟩
    have hdelivers : s.delivers = false := by
      cases (hlinked.isStep hsuffix).paces with
      | ended _ hdelivers => exact hdelivers
      | delivered hnot => exact absurd hends (Bool.eq_false_iff.mp hnot)
      | other _ hdelivers => exact hdelivers
    rw [endsSince_of_not_delivers hdelivers, if_pos hends] at hcount ⊢
    exact Backoff.toNanos_next hmax rfl hcount
  · obtain ⟨-, hbefore⟩ := (hlinked i).of_suffix hsuffix
    rw [hphase] at hbefore
    exact hbefore.paused

/-- Two watches on an agent that refuses them: the one that is refused second pauses
for two initial delays. -/
theorem reconnects_paced_refused :
    let agent : Agent :=
      ⟨[], [.rejected ⟨.unavailable, "down"⟩], [.rejected ⟨.unavailable, "down"⟩], [], []⟩
    let session : Session := .start agent (.new (.ofMillis 100) (.ofMillis 250))
    let c := (Crew.start session ⟨[], none⟩ false [.x509Bundles, .jwtBundles]).run recorder
      [.poll 0, .poll 0, .poll 1, .poll 1]
    (Duration.ofMillis 250).IsValid ∧ ∃ s earlier delay, c.history = s :: earlier ∧
      s.watch = 1 ∧ s.ends = true ∧ endsSince (s :: earlier) = 2 ∧
      s.move.phase = .pausing delay ∧ delay.toNanos = 200000000 := by
  intro agent session c
  have hmax : (Duration.ofMillis 250).IsValid := by decide
  obtain ⟨hdelays, -, -⟩ := reconnects_paced recorder_discreet hmax (.ofMillis 100) session
    ⟨[], none⟩ false [.x509Bundles, .jwtBundles] [.poll 0, .poll 0, .poll 1, .poll 1]
  obtain ⟨s, earlier, hhistory, hwatch, hends, hcount⟩ : ∃ s earlier, c.history = s :: earlier ∧
      s.watch = 1 ∧ s.ends = true ∧ endsSince (s :: earlier) = 2 := ⟨_, _, rfl, rfl, rfl, rfl⟩
  have hsuffix : s :: earlier <:+ c.history := hhistory ▸ List.suffix_refl _
  have hless : endsSince (s :: earlier) < Nat.pow 2 32 := by
    rw [hcount]
    decide
  obtain ⟨delay, hphase, hdelay⟩ := hdelays s earlier hsuffix hends hless
  rw [hcount] at hdelay
  exact ⟨hmax, s, earlier, delay, hhistory, hwatch, hends, hcount, hphase, hdelay.trans (by decide)⟩

end Watch
end WorkloadIdentity
