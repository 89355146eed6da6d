/-
# A watch in a crew goes from moment to moment

A watch that is polled among others finds whatever the session is like then, and
the agent uses up the attempts it has in store. Whatever comes of this is a moment
of the watch, for polls that the others have made up on the way (`Watch.Crew.Tracks`),
as long as no other watch asks for the same stream; so all that is said of moments
holds of the watches of a crew, and of recorded watches.

Key definitions: `Watch.IsMoment`, `Watch.Crew.Tracks`.
Key theorems: `Watch.Crew.run_tracks`, `Watch.Schedule.recorded_account`,
`Session.watch_isMoment`.
-/
import WorkloadIdentity.Proofs.Watch.Crew
import WorkloadIdentity.Proofs.Watch.Delivery
import WorkloadIdentity.Watch.Record

namespace WorkloadIdentity
namespace Watch

/-! ### Moments -/

section

variable {μ ν : Type} {name : String} {convert : μ → Except ApiError ν} {script : Nat → Attempt μ}

/-- What a watch may have come to, by some polls; by none with the token fired if
it has not. -/
def IsMoment (name : String) (convert : μ → Except ApiError ν) (script : Nat → Attempt μ)
    (fired : Bool) (m : Moment μ ν) : Prop :=
  ∃ polls i, moment name convert script polls i = m ∧ (fired = false → NeverCancelled polls)

theorem IsMoment.start {fired : Bool} : IsMoment name convert script fired .start :=
  ⟨fun _ => ⟨false, 0, .standard⟩, 0, rfl, fun _ _ => rfl⟩

theorem IsMoment.after {m : Moment μ ν} {poll : Poll}
    (h : IsMoment name convert script poll.cancelled m) :
    IsMoment name convert script poll.cancelled (m.after (move? name convert script m poll)) := by
  obtain ⟨polls, i, rfl, hlive⟩ := h
  have hsame : moment name convert script (fun j => if j < i then polls j else poll) i =
      moment name convert script polls i :=
    moment_congr fun j hj => if_pos hj
  refine ⟨fun j => if j < i then polls j else poll, i + 1, ?_, fun hfired j => ?_⟩
  · rw [moment, hsame, if_neg (Nat.lt_irrefl i)]
  · dsimp only
    split
    · exact hlive hfired j
    · exact hfired

theorem IsMoment.mono {fired later : Bool} {m : Moment μ ν}
    (h : IsMoment name convert script fired m) (hle : later = false → fired = false) :
    IsMoment name convert script later m := by
  obtain ⟨polls, i, hm, hlive⟩ := h
  exact ⟨polls, i, hm, fun hlater => hlive (hle hlater)⟩

end

/-! ### Watches of a crew -/

namespace Crew

variable {σ : Type} {watcher : Watcher σ} {stream : StreamKind} {streams : List StreamKind}
  {script : Nat → Attempt Message} {i : Nat}

/-- No watch ever goes over to another stream. -/
theorem streams_stride {c : Crew σ} {r : Running} {move : Move Message Update}
    (hr : c.watches[i]? = some r) :
    (c.stride watcher i r move).watches.map (·.stream) = c.watches.map (·.stream) := by
  have hstream : (c.watches.map (·.stream))[i]? = some r.stream := by
    rw [List.getElem?_map, hr]
    rfl
  obtain ⟨hi, hstream⟩ := List.getElem?_eq_some_iff.mp hstream
  rw [stride, List.map_set, Running.enter_stream, ← hstream, List.set_getElem_self]

variable (watcher) in
theorem run_streams (c : Crew σ) (turns : List Turn) :
    (c.run watcher turns).watches.map (·.stream) = c.watches.map (·.stream) :=
  run_inv (P := fun c' => c'.watches.map (·.stream) = c.watches.map (·.stream)) rfl
    (fun _ _ _ _ h hr _ => (streams_stride hr).trans h) (fun _ _ => id) (fun _ => id) turns

variable (watcher) in
/-- A crew of one watch has no more than one at any time. -/
theorem run_single (session : Session) (keep : σ) (cancelled : Bool) (stream : StreamKind)
    (turns : List Turn) :
    ∃ r, ((start session keep cancelled [stream]).run watcher turns).watches = [r] := by
  have hstreams := run_streams watcher (start session keep cancelled [stream]) turns
  have hlength := congrArg List.length hstreams
  rw [List.length_map] at hlength
  exact List.length_eq_one_iff.mp hlength

/-- The watch at a position is at a moment. -/
def Tracks (i : Nat) (stream : StreamKind) (script : Nat → Attempt Message) (c : Crew σ) : Prop :=
  ∃ m r, c.watches[i]? = some r ∧ r.stream = stream ∧ r.phase = m.phase ∧ c.told i = m.told ∧
    IsMoment stream.name Message.toUpdate script c.world.cancelled m ∧
    ∀ k, attempts c.world.session.agent stream k = script (m.opened + k)

/-- A watch that takes a step comes to a further moment. -/
theorem tracks_stride_self (hdiscreet : watcher.Discreet) {c : Crew σ}
    (h : c.Tracks i stream script) {r : Running} {move : Move Message Update}
    (hr : c.watches[i]? = some r) (hmove : r.move? c.world = some move) :
    (c.stride watcher i r move).Tracks i stream script := by
  obtain ⟨m, r', hr', rfl, hphase, htold, hm, hagent⟩ := h
  obtain rfl := Option.some.inj (hr.symm.trans hr')
  -- the poll that the watch has been given
  let poll : Poll := ⟨c.world.cancelled, c.world.session.clock, c.world.session.backoff⟩
  have hnext : c.world.session.agent.next r.stream = script m.opened := hagent 0
  have hpoll : r.surroundings c.world = poll.around (script m.opened) := by
    rw [← hnext]
    rfl
  rw [Running.move?, hpoll, hphase] at hmove
  have hafter : IsMoment r.stream.name Message.toUpdate script poll.cancelled
      (m.after (some move)) := by
    rw [← hmove]
    exact IsMoment.after hm
  refine ⟨m.after (some move), r.enter move.phase (c.world.ticks + 1), ?_,
    Running.enter_stream _ _ _, Running.enter_phase _ _ _, ?_, hafter.mono fun hlater => ?_, fun k => ?_⟩
  · exact List.getElem?_set_self (List.getElem?_eq_some_iff.mp hr).1
  · rw [told_stride, if_pos rfl, htold, Moment.after]
  · rw [← Bool.not_eq_true] at hlater ⊢
    exact fun hfired => hlater (hdiscreet.cancelled_afterMove hfired)
  · have hk := hagent (k + move.effects.countP Effect.isOpening)
    rw [stride, hdiscreet.attempts_afterMove, if_pos rfl, hk]
    change script _ = script (m.opened + move.effects.countP Effect.isOpening + k)
    congr 1
    omega

/-- A step of a watch of another stream leaves it where it is. -/
theorem tracks_stride_other (hdiscreet : watcher.Discreet) {c : Crew σ}
    (h : c.Tracks i stream script) {j : Nat} {r : Running} {move : Move Message Update}
    (hother : j ≠ i) (hstream : stream ≠ r.stream) :
    (c.stride watcher j r move).Tracks i stream script := by
  obtain ⟨m, r', hr', hr'stream, hphase, htold, hm, hagent⟩ := h
  refine ⟨m, r', ?_, hr'stream, hphase, ?_, hm.mono fun hlater => ?_, fun k => ?_⟩
  · exact (List.getElem?_set_ne hother).trans hr'
  · rw [told_stride, if_neg hother, List.append_nil, htold]
  · rw [← Bool.not_eq_true] at hlater ⊢
    exact fun hfired => hlater (hdiscreet.cancelled_afterMove hfired)
  · rw [stride, hdiscreet.attempts_afterMove, if_neg hstream, Nat.add_zero, hagent]

/-- **A watch in a crew goes from moment to moment,** if it is the only one of its
stream. -/
theorem run_tracks (hdiscreet : watcher.Discreet) (session : Session) (keep : σ)
    (cancelled : Bool) (hstream : streams[i]? = some stream)
    (halone : ∀ j, streams[j]? = some stream → j = i) (turns : List Turn) :
    ((start session keep cancelled streams).run watcher turns).Tracks i stream
      (attempts session.agent stream) := by
  refine (run_inv (P := fun c => c.watches.map (·.stream) = streams ∧
    c.Tracks i stream (attempts session.agent stream)) ⟨?_, ?_⟩
    (fun c j r move h hr hmove => ⟨?_, ?_⟩) (fun _ _ => id) (fun c h => ⟨h.1, ?_⟩) turns).2
  · rw [start, List.map_map]
    exact List.map_id _
  · refine ⟨.start, .start stream, ?_, rfl, rfl, rfl, .start, fun k => ?_⟩
    · rw [start, List.getElem?_map, hstream]
      rfl
    · rw [Moment.start, Nat.zero_add]
      rfl
  · rw [streams_stride hr]
    exact h.1
  · by_cases hj : j = i
    · subst hj
      exact tracks_stride_self hdiscreet h.2 hr hmove
    · refine tracks_stride_other hdiscreet h.2 hj fun hsame => hj (halone j ?_)
      rw [← h.1, List.getElem?_map, hr, hsame]
      rfl
  · obtain ⟨m, r, hr, hrest⟩ := h.2
    exact ⟨m, r, hr, hrest.1, hrest.2.1, hrest.2.2.1, hrest.2.2.2.1.mono (fun h => by cases h), hrest.2.2.2.2⟩

end Crew

/-! ### Recorded watches -/

theorem recorder_discreet : recorder.Discreet where
  onUpdate _ _ _ := ⟨rfl, rfl, rfl, fun h => by simp [recorder, record, h]⟩
  onError _ _ _ := ⟨rfl, rfl, rfl, fun h => by simp [recorder, record, h]⟩

/-- A step is recorded with its callbacks. -/
theorem events_afterMove (stream : StreamKind) (w : World Recording) (move : Move Message Update) :
    (w.afterMove recorder stream move).keep.events.reverse.map (·.content) =
      w.keep.events.reverse.map (·.content) ++ move.effects.filterMap Effect.callback? := by
  have hfold : ∀ (effects : List (Effect Update)) (w : World Recording),
      (effects.foldl (World.apply recorder stream) w).keep.events.reverse.map (·.content) =
        w.keep.events.reverse.map (·.content) ++ effects.filterMap Effect.callback? := by
    intro effects
    induction effects with
    | nil => simp
    | cons e rest ih =>
      intro w
      rw [List.foldl_cons, ih, List.filterMap_cons]
      cases e <;> simp [World.apply, World.log, recorder, record, Effect.callback?]
  exact hfold move.effects _

/-- The callbacks recorded of a watch by itself. -/
theorem Crew.run_events (session : Session) (fireAfter : Option Nat) (cancelled : Bool)
    (stream : StreamKind) (turns : List Turn) :
    let c := (Crew.start session ⟨[], fireAfter⟩ cancelled [stream]).run recorder turns
    c.world.keep.events.reverse.map (·.content) = (c.told 0).filterMap Effect.callback? := by
  refine (run_inv (P := fun (c : Crew Recording) => c.watches.length = 1 ∧
    c.world.keep.events.reverse.map (·.content) = (c.told 0).filterMap Effect.callback?)
    ⟨rfl, rfl⟩ (fun c j r move h hr _ => ⟨?_, ?_⟩) (fun _ _ => id) (fun _ => id) turns).2
  · rw [stride, List.length_set]
    exact h.1
  · have hj := (List.getElem?_eq_some_iff.mp hr).1
    rw [h.1, Nat.lt_one_iff] at hj
    rw [told_stride, if_pos hj, List.filterMap_append, ← h.2]
    exact events_afterMove _ _ _

/-- A schedule with one watch that is recorded: the watch is at a moment, and its
callbacks have been recorded. -/
theorem Schedule.recorded {session : Session} {stream : StreamKind}
    {fireAfter fireAt until? : Option Nat} {holds : Schedule Recording → Bool} {cancelled : Bool}
    {after : Schedule Recording}
    (hafter : (Schedule.start session ⟨[], fireAfter⟩ cancelled fireAt [[stream]]).runUntil recorder
      until? holds = some after) :
    ∃ m r turns, after.tasks = [⟨[r], turns⟩] ∧ r.phase = m.phase ∧
      IsMoment stream.name Message.toUpdate (attempts session.agent stream)
        after.world.cancelled m ∧
      after.world.keep.events.reverse.map (·.content) = m.callbacks := by
  let keep : Recording := ⟨[], fireAfter⟩
  have hreaches := reaches_runUntil hafter
  have hstart : (start session keep cancelled fireAt [[stream]]).IsCrew
      (.start session keep cancelled [stream]) := isCrew_start _ _ _ _ _
  obtain ⟨turns, hcrew⟩ := hstart.exists_run hreaches
  obtain ⟨n, htasks⟩ := hcrew.tasks_eq hreaches.tasks
  obtain ⟨hworld, -⟩ := hcrew
  have halone : ∀ j, [stream][j]? = some stream → j = 0 :=
    fun j hj => by simpa using (List.getElem?_eq_some_iff.mp hj).1
  obtain ⟨m, r, hr, rfl, hphase, htold, hm, -⟩ :=
    Crew.run_tracks recorder_discreet session keep cancelled rfl halone turns
  have hevents := Crew.run_events session fireAfter cancelled r.stream turns
  obtain ⟨r', hwatches⟩ := Crew.run_single recorder session keep cancelled r.stream turns
  rw [hwatches] at hr htasks
  obtain rfl := Option.some.inj hr
  dsimp only at hevents
  rw [htold, ← hworld] at hevents
  exact ⟨m, r', n, htasks, hphase, hworld ▸ hm, hevents⟩

/-- While the token has not fired, the callbacks recorded are the first of the
agent's account. -/
theorem Schedule.recorded_account {session : Session} {stream : StreamKind}
    {fireAfter fireAt until? : Option Nat} {holds : Schedule Recording → Bool} {cancelled : Bool}
    {after : Schedule Recording}
    (hafter : (Schedule.start session ⟨[], fireAfter⟩ cancelled fireAt [[stream]]).runUntil recorder
      until? holds = some after) (hlive : after.world.cancelled = false) :
    ∃ n, after.world.keep.events.reverse.map (·.content) <+:
      (account Message.toUpdate (attempts session.agent stream) n).filterMap Effect.callback? := by
  obtain ⟨m, -, -, -, -, ⟨polls, i, rfl, hpolls⟩, hevents⟩ := Schedule.recorded hafter
  have hfits := moment_fits stream.name Message.toUpdate (attempts session.agent stream)
    (hpolls hlive) i
  have hseen := hfits.seen_of_account.filterMap Effect.callback?
  rw [callbacks_of_seen, ← hevents] at hseen
  exact ⟨_, hseen⟩

theorem Task.result?_single (r : Running) (turns : Nat) :
    Task.result? ⟨[r], turns⟩ = r.phase.result? := by
  unfold Task.result?
  cases hresult : r.phase.result? with
  | none => simp [hresult]
  | some result => cases result <;> simp [hresult]

end Watch

/-- **A recorded watch goes from moment to moment.** What the watch of a stream
tells its recorder, and its result if it has one, are what a moment has of the agent's
attempts. -/
theorem Session.watch_isMoment {s : Session} {stream : StreamKind} {cancelled : Bool}
    {fireAfter : Option Nat} {fireAt : Nat} {report : Watch.Report}
    (h : s.watch [stream] cancelled fireAfter fireAt = some report) :
    ∃ polls i,
      let m := Watch.moment stream.name Message.toUpdate (Watch.attempts s.agent stream) polls i
      report.events.map (·.content) = m.callbacks ∧ report.results = [m.phase.result?] := by
  obtain ⟨after, hafter, rfl⟩ := Option.map_eq_some_iff.mp h
  obtain ⟨m, r, turns, htasks, hphase, ⟨polls, i, rfl, -⟩, hevents⟩ :=
    Watch.Schedule.recorded hafter
  refine ⟨polls, i, hevents, ?_⟩
  rw [← hphase, Watch.Schedule.results, htasks]
  exact congrArg (fun result => [result]) (Watch.Task.result?_single r turns)

end WorkloadIdentity
