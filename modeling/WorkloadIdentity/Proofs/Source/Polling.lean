/-
# A source is created on a course

Whoever creates a source polls whenever its task waits. What it sees then is what a course
shows that has come so far with no install under way: a turn of a watch installs what it
hands on, each install in all its steps, and the clock, the token and the end of the task
are steps of a course as well (`SourceKind.Awaits.exists_scene`). So what holds of polls on
a course holds of these, and it makes no difference to them that a poll looks at the stage
only if the number of updates has changed (`SourceKind.Awaits.poll_iff`).

Key definitions: `Wait.Leads`, `Wait.Making.Shows`, `SourceKind.Awaits`.
Key theorems: `Wait.IsCourse.exists_extension`, `SourceKind.Awaits.exists_scene`,
`SourceKind.Awaits.poll_iff`, `SourceKind.await_eq_some`, `SourceKind.await_eq_none`.
-/
import Mathlib.Logic.Relation
import WorkloadIdentity.Proofs.Source.Serving
import WorkloadIdentity.Proofs.Source.Waiting
import WorkloadIdentity.Proofs.Watch.Settling

namespace WorkloadIdentity

/-! ### The task of a source -/

namespace SourceKind

open Watch

variable {C : Type} (kind : SourceKind C)

theorem watcher_leavesToken : kind.watcher.LeavesToken where
  onUpdate _ update w := by
    obtain ⟨logs, hlogs⟩ := perform_eq (kind.install update) w
    change (perform (kind.install update) w).cancelled = w.cancelled
    rw [hlogs]
  onError _ _ _ := rfl

/-- A watch of a source stops on a terminal status alone. -/
theorem isTerminal_of_failure? {session : Session} {cancelled : Bool} {turns : List Turn}
    {cause : ApiError} (h : (kind.crew session cancelled turns).failure? = some cause) :
    cause.isTerminal = true := by
  obtain ⟨r, hr, hcause⟩ := List.exists_of_findSome?_eq_some h
  obtain ⟨result, hresult, hcause⟩ := Option.bind_eq_some_iff.mp hcause
  have hends := Crew.run_endsRightly kind.watcher_discreet session ⟨kind.fresh, []⟩ cancelled
    kind.streams turns r hr result hresult
  rcases hends with ⟨rfl, -⟩ | ⟨cause', rfl, hterminal⟩
  · cases hcause
  · obtain rfl := Option.some.inj hcause
    exact hterminal

/-- What has become of the task of a source. -/
theorem result?_cases (hstreams : kind.streams ≠ []) (session : Session) (cancelled : Bool)
    (turns : List Turn) (position : Nat) :
    let c := kind.crew session cancelled turns
    let t : Task := ⟨c.watches, position⟩
    (∃ cause, c.failure? = some cause ∧ t.result? = some (.error cause)) ∨
    (c.world.cancelled = true ∧ t.result? = some (.ok ())) ∨
    (c.failure? = none ∧ t.result? = none ∧
      (c.world.cancelled = false → ∀ r ∈ c.watches, r.phase.result? = none)) := by
  have hends := Crew.run_endsRightly kind.watcher_discreet session ⟨kind.fresh, []⟩ cancelled
    kind.streams turns
  intro c t
  refine Task.result?_cases (t := t) ?_ hends
  change ¬ (kind.crew session cancelled turns).watches = []
  rw [← List.length_eq_zero_iff, crew, Crew.run_length, Crew.start, List.length_map,
    List.length_eq_zero_iff]
  exact hstreams

end SourceKind

/-! ### Longer courses -/

namespace Wait

variable {C : Type} {kind : SourceKind C} {course course' : Nat → Making C}

/-- What may have come of one thing after some steps. -/
abbrev Leads (kind : SourceKind C) : Making C → Making C → Prop :=
  Relation.ReflTransGen (Step kind)

/-- A course may go on from a moment with any steps, and then stay. -/
theorem IsCourse.exists_extension (h : IsCourse kind course) (k : Nat) {m : Making C}
    (hleads : Leads kind (course k) m) :
    ∃ course', IsCourse kind course' ∧ (∀ j ≤ k, course' j = course j) ∧
      ∃ k' ≥ k, course' k' = m := by
  induction hleads with
  | refl => exact ⟨course, h, fun _ _ => rfl, k, Nat.le_refl _, rfl⟩
  | @tail m m' _ hstep ih =>
    obtain ⟨before, hbefore, hsame, k', hk', rfl⟩ := ih
    refine ⟨fun j => if j ≤ k' then before j else m', ⟨?_, fun j => ?_⟩, fun j hj => ?_,
      k' + 1, Nat.le_succ_of_le hk', if_neg (Nat.not_succ_le_self _)⟩
    · rw [if_pos (Nat.zero_le _)]
      exact hbefore.start
    · rcases Nat.lt_trichotomy j k' with hlt | rfl | hlt
      · rw [if_pos (Nat.le_of_lt hlt), if_pos (Nat.succ_le_of_lt hlt)]
        exact hbefore.step j
      · rw [if_pos (Nat.le_refl _), if_neg (Nat.not_succ_le_self _)]
        exact hstep
      · rw [if_neg (Nat.not_le.mpr hlt), if_neg (Nat.not_le.mpr (Nat.lt_succ_of_lt hlt))]
        exact .time m' m'.clock
    · exact (if_pos (Nat.le_trans hj hk')).trans (hsame j hj)

/-- What has been seen does not depend on what comes later. -/
theorem Remembers.congr {timeout : Option (Duration × Nat)} {since : Nat} {seen : Option Nat}
    (h : Remembers kind timeout course since seen) (hsame : ∀ j ≤ since, course' j = course j) :
    Remembers kind timeout course' since seen := by
  induction h with
  | nothing => exact .nothing
  | @number since token ready task time number seen _ hlooks hwait ih =>
    have htask := hlooks.task_le
    have hready := Nat.le_trans hlooks.ready_le htask
    have htoken := Nat.le_trans hlooks.token_le hready
    refine .number (ih fun j hj => hsame j (Nat.le_trans hj (Nat.le_trans hlooks.since_le htoken)))
      hlooks ?_
    rw [polled] at hwait ⊢
    rwa [hsame token htoken, hsame ready hready, hsame task htask, hsame time (Nat.le_refl _)]

/-! ### Whole installs -/

variable (kind) in
/-- A call that has begun may go through by itself. -/
theorem exists_through {call : Option Update} {i : Nat} (p : Steps C SourceEvent) :
    ∀ m : Making C, m.calls.working[i]? = some (call, p) →
      ∃ calls, Leads kind m { m with calls } ∧ calls.state = (p.run m.calls.state).2 ∧
        calls.working = m.calls.working.set i (call, .done) := by
  induction p with
  | done =>
    intro m hi
    refine ⟨m.calls, .refl, rfl, ?_⟩
    obtain ⟨hlt, hi⟩ := List.getElem?_eq_some_iff.mp hi
    rw [← hi, List.set_getElem_self]
  | act tells change next ih =>
    intro m hi
    have hadvance : m.calls.advance i = m.calls.step i call tells change next := by
      simp only [Calls.advance, hi]
    have hnext : (m.calls.step i call tells change next).working[i]? =
        some (call, next m.calls.state) :=
      List.getElem?_set_self (List.getElem?_eq_some_iff.mp hi).1
    obtain ⟨calls, hleads, hstate, hworking⟩ := ih m.calls.state
      { m with calls := m.calls.step i call tells change next } hnext
    refine ⟨calls, .head ?_ hleads, hstate, ?_⟩
    · rw [← hadvance]
      exact .work m i
    · rw [hworking]
      exact List.set_set _

/-- There is what a source that is being created keeps, with no install under way. -/
structure Making.Shows (m : Making C) (w : Watch.World (Held C)) : Prop where
  idle : m.calls.IsIdle
  goes : m.result = none
  state : m.calls.state = w.keep.cache
  cancelled : m.cancelled = w.cancelled
  clock : m.clock = w.session.clock

namespace Making.Shows

variable {m : Making C} {w : Watch.World (Held C)}

variable (kind) in
/-- An update may be installed as a whole. -/
theorem exists_installed (h : m.Shows w) (update : Update) :
    ∃ m', Leads kind m m' ∧ m'.Shows { w with keep := kind.installed w.keep update } := by
  have hbegun : (m.calls.begin (some update)
      (kind.install update)).working[m.calls.working.length]? =
      some (some update, kind.install update) := List.getElem?_concat_length
  obtain ⟨calls, hleads, hstate, hworking⟩ := exists_through kind (kind.install update)
    { m with calls := m.calls.begin (some update) (kind.install update) } hbegun
  refine ⟨{ m with calls }, .head (.install m update h.goes h.idle) hleads, ?_, h.goes, ?_,
    h.cancelled, h.clock⟩
  · intro call p hmem
    have hmem : (call, p) ∈ m.calls.working ++ [(some update, .done)] := by
      have hset : calls.working = m.calls.working ++ [(some update, .done)] := by
        simpa [Calls.begin] using hworking
      rwa [← hset]
    rcases List.mem_append.mp hmem with hmem | hmem
    · exact h.idle call p hmem
    · exact (Prod.mk.inj (List.mem_singleton.mp hmem)).2
  · have hcache : calls.state = ((kind.install update).run m.calls.state).2 := hstate
    rw [hcache, h.state]
    rfl

variable (kind) in
theorem exists_foldl (updates : List Update) :
    ∀ (m : Making C) (w : Watch.World (Held C)), m.Shows w → ∃ m', Leads kind m m' ∧
      m'.Shows { w with keep := updates.foldl kind.installed w.keep } := by
  induction updates with
  | nil => exact fun m w h => ⟨m, .refl, h⟩
  | cons update rest ih =>
    intro m w h
    obtain ⟨m', hleads, h'⟩ := h.exists_installed kind update
    obtain ⟨m'', hleads', h''⟩ := ih m' _ h'
    exact ⟨m'', hleads.trans hleads', h''⟩

/-- Whatever the schedule of a source comes to, what goes on around the source may come
to. -/
theorem exists_leads {s s' : LiveSource C} (h : m.Shows s.world)
    (hreaches : Watch.Schedule.Reaches kind.watcher s s') :
    ∃ m', Leads kind m m' ∧ m'.Shows s'.world := by
  refine hreaches.inv (P := fun w => ∃ m', Leads kind m m' ∧ m'.Shows w) ⟨m, .refl, h⟩
    (fun w stream move hm => ?_) (fun w clock hm => ?_) fun w hm => ?_
  · obtain ⟨m', hleads, h'⟩ := hm
    obtain ⟨m'', hleads', h''⟩ := exists_foldl kind
      (move.effects.filterMap Watch.Effect.value?) m' w h'
    refine ⟨m'', hleads.trans hleads', h''.idle, h''.goes, ?_, ?_, ?_⟩
    · rw [h''.state, kind.keep_afterMove]
    · rw [h''.cancelled, kind.watcher_leavesToken.cancelled_afterMove]
    · rw [h''.clock, kind.watcher_discreet.clock_afterMove]
  · obtain ⟨m', hleads, h'⟩ := hm
    exact ⟨{ m' with clock }, hleads.tail (.time m' clock), h'.idle, h'.goes, h'.state,
      h'.cancelled, rfl⟩
  · obtain ⟨m', hleads, h'⟩ := hm
    exact ⟨{ m' with cancelled := true }, hleads.tail (.fire m'), h'.idle, h'.goes, h'.state,
      rfl, h'.clock⟩

end Making.Shows

end Wait

/-! ### Creating a source -/

namespace SourceKind

open Watch Wait

variable {C : Type} (kind : SourceKind C)

/-- The watches of a source that is being created, after so many turns; its delays are its
own. -/
def creating (session : Session) (cancelled : Bool) (turns : List Turn) : Crew (Held C) :=
  kind.crew { session with backoff := session.backoff.fresh } cancelled turns

/-- The source when its caller begins to wait. -/
def outset (session : Session) (cancelled : Bool) (fireAt : Option Nat) : LiveSource C :=
  Schedule.start { session with backoff := session.backoff.fresh } ⟨kind.fresh, []⟩ cancelled fireAt
    [kind.streams]

/-- The time at which a timeout runs out. -/
def limit (session : Session) (timeout : Option Duration) : Option (Duration × Nat) :=
  timeout.map fun length => (length, session.clock + length.ceilMillis)

/-- Whatever a source that is being created comes to, its watches come to. -/
theorem exists_creating {session : Session} {cancelled : Bool} {fireAt : Option Nat}
    {s : LiveSource C}
    (h : Schedule.Reaches kind.watcher (kind.outset session cancelled fireAt) s) :
    ∃ turns, s.IsCrew (kind.creating session cancelled turns) := by
  have hstart : (kind.outset session cancelled fireAt).IsCrew
      (kind.creating session cancelled []) := by
    have hstart := Schedule.isCrew_start { session with backoff := session.backoff.fresh }
      (⟨kind.fresh, []⟩ : Held C) cancelled fireAt [kind.streams]
    rwa [List.flatten_singleton] at hstart
  exact hstart.exists_run h

/-! ### Polls -/

section

variable {kind} {timeout : Option (Duration × Nat)} {seen : Option Nat} {number : Nat}
  {answer : Except SourceError Unit} {s polled : LiveSource C}

theorem poll_of_look {number' : Nat} (h : kind.look timeout number s = some number') :
    kind.poll timeout (some number) s = .wait number' := by
  unfold look at h
  split at h
  · cases h
  · rename_i seen hpoll
    obtain rfl := Option.some.inj h
    exact hpoll

/-- The answer is that of the last poll. -/
theorem await_cases (h : kind.await timeout s = some (answer, polled)) :
    (polled = s ∧ kind.poll timeout none s = .answer answer) ∨
    ∃ seen number, kind.poll timeout none s = .wait seen ∧
      s.runLooking kind.watcher (timeout.map (·.2)) (kind.look timeout) s.fuel seen =
        some (number, polled) ∧
      kind.poll timeout (some number) polled = .answer answer := by
  unfold await at h
  cases hpoll : kind.poll timeout none s with
  | answer first =>
    simp only [hpoll] at h
    obtain ⟨rfl, rfl⟩ := Prod.mk.inj (Option.some.inj h)
    exact .inl ⟨rfl, rfl⟩
  | wait seen =>
    simp only [hpoll] at h
    obtain ⟨⟨number, last⟩, hrun, hlast⟩ := Option.bind_eq_some_iff.mp h
    obtain ⟨last', hlast', heq⟩ := Option.map_eq_some_iff.mp hlast
    obtain ⟨rfl, rfl⟩ := Prod.mk.inj heq
    exact .inr ⟨seen, number, rfl, hrun, Verdict.answer?_eq_some_iff.mp hlast'⟩

theorem reaches_of_await (h : kind.await timeout s = some (answer, polled)) :
    Schedule.Reaches kind.watcher s polled := by
  rcases await_cases h with ⟨rfl, -⟩ | ⟨seen, number, -, hrun, -⟩
  · exact .refl
  · exact Schedule.reaches_runLooking _ hrun

end

/-! ### Courses -/

/-- Whoever creates a source has polled on a course that has come to this, and has the
number of updates in mind that has been seen last. -/
def Awaits (timeout : Option (Duration × Nat)) (seen : Option Nat) (s : LiveSource C) : Prop :=
  ∃ (course : Nat → Making C) (since : Nat), IsCourse kind course ∧
    Remembers kind timeout course since seen ∧ (course since).Shows s.world

variable {kind} in
/-- The task may have ended as well. -/
theorem exists_ended {m : Making C} {s : LiveSource C} {session : Session}
    {cancelled : Bool} {turns : List Turn} (hm : m.Shows s.world) (hstreams : kind.streams ≠ [])
    (hcrew : s.IsCrew (kind.crew session cancelled turns)) (hlength : s.tasks.length = 1) :
    ∃ m', Leads kind m m' ∧ m'.calls.IsIdle ∧ m'.calls.state = s.world.keep.cache ∧
      m'.scene kind = kind.scene s ∧ (m'.result = none → m'.Shows s.world) := by
  obtain ⟨position, htasks⟩ := hcrew.tasks_eq hlength
  have hresults : s.results =
      [Task.result? ⟨(kind.crew session cancelled turns).watches, position⟩] := by
    rw [Schedule.results, htasks]
    rfl
  have hlook : ∀ result,
      Task.result? ⟨(kind.crew session cancelled turns).watches, position⟩ = result →
      ⟨m.cancelled, m.lifecycle kind, result, m.clock⟩ = kind.scene s := by
    rintro result rfl
    rw [scene, hresults, hm.cancelled, hm.clock, Making.lifecycle, hm.state]
    rfl
  have hstop : ∀ result,
      Task.result? ⟨(kind.crew session cancelled turns).watches, position⟩ = some result →
      EndsRightly m.cancelled result →
      ∃ m', Leads kind m m' ∧ m'.calls.IsIdle ∧ m'.calls.state = s.world.keep.cache ∧
        m'.scene kind = kind.scene s ∧ (m'.result = none → m'.Shows s.world) :=
    fun result hresult hends =>
      ⟨{ m with result := some result }, .single (.stop m result hm.goes hm.idle hends), hm.idle,
        hm.state, hlook _ hresult, fun hgoes => absurd hgoes (Option.some_ne_none result)⟩
  rcases kind.result?_cases hstreams session cancelled turns position with
    ⟨cause, hfailure, hresult⟩ | ⟨hfired, hresult⟩ | ⟨-, hresult, -⟩
  · exact hstop _ hresult (.inr ⟨cause, rfl, kind.isTerminal_of_failure? hfailure⟩)
  · exact hstop _ hresult (.inl ⟨rfl, by rw [hm.cancelled, hcrew.1, hfired]⟩)
  · refine ⟨m, .refl, hm.idle, hm.state, ?_, fun _ => hm⟩
    rw [← hlook _ hresult, Making.scene, hm.goes]

section

variable {kind} {timeout : Option (Duration × Nat)} {seen : Option Nat} {s s' : LiveSource C}
  {session : Session} {cancelled : Bool} {turns : List Turn}
  (hstreams : kind.streams ≠ []) (hawaits : kind.Awaits timeout seen s)
  (hreaches : Schedule.Reaches kind.watcher s s')
  (hcrew : s'.IsCrew (kind.crew session cancelled turns)) (hlength : s'.tasks.length = 1)
include hstreams hawaits hreaches hcrew hlength

/-- What whoever creates a source sees is what a course shows with no install under
way. -/
theorem Awaits.exists_scene :
    ∃ (course : Nat → Making C) (since k : Nat), IsCourse kind course ∧
      Remembers kind timeout course since seen ∧ since ≤ k ∧ (course k).calls.IsIdle ∧
      (course k).calls.state = s'.world.keep.cache ∧ (course k).scene kind = kind.scene s' ∧
      ((course k).result = none → (course k).Shows s'.world) := by
  obtain ⟨course, since, hcourse, hseen, hshows⟩ := hawaits
  obtain ⟨m, hleads, hm⟩ := hshows.exists_leads hreaches
  obtain ⟨m', hleads', hidle, hstate, hscene, hshows'⟩ := exists_ended hm hstreams hcrew hlength
  obtain ⟨course', hcourse', hsame, k, hk, rfl⟩ :=
    hcourse.exists_extension since (hleads.trans hleads')
  exact ⟨course', since, k, hcourse', hseen.congr hsame, hk, hidle, hstate, hscene, hshows'⟩

/-- **It makes no difference to whoever creates a source** that a poll looks at the stage
only if the number of updates has changed. -/
theorem Awaits.poll_iff (hkind : Advances kind) (answer : Except SourceError Unit) :
    kind.poll timeout seen s' = .answer answer ↔ kind.poll timeout none s' = .answer answer := by
  obtain ⟨course, since, k, hcourse, hseen, hk, hidle, -, hscene, -⟩ :=
    hawaits.exists_scene hstreams hreaches hcrew hlength
  have hdue := hcourse.isDue_of_idle hkind hseen (.at_once hk) hidle answer
  rw [polled] at hdue
  have hok : ((course k).scene kind).result = some (.ok ()) →
      ((course k).scene kind).cancelled = true := hcourse.cancelled_of_ok k
  rw [SourceKind.poll, SourceKind.poll, ← hscene, poll_none_eq_answer_iff hok]
  exact hdue

/-- Whoever has no answer goes on with the number that has been seen. -/
theorem Awaits.wait {number : Nat} (hwait : kind.poll timeout seen s' = .wait number) :
    kind.Awaits timeout (some number) s' := by
  obtain ⟨course, since, k, hcourse, hseen, hk, -, -, hscene, hshows⟩ :=
    hawaits.exists_scene hstreams hreaches hcrew hlength
  have hgoes : (kind.scene s').result = none := (of_poll_eq_wait hwait).2.2.2.1
  rw [← hscene] at hgoes
  have hwait : polled kind timeout course seen k k k k = .wait number := by
    rw [polled, hscene]
    exact hwait
  exact ⟨course, k, hcourse, .number hseen (.at_once hk) hwait, hshows hgoes⟩

end

/-- Whoever creates a source has no answer yet, and would not have had one by looking at
the stage in any case. -/
structure IsWaiting (timeout : Option (Duration × Nat)) (session : Session) (cancelled : Bool)
    (fireAt : Option Nat) (number : Nat) (s : LiveSource C) : Prop where
  awaits : kind.Awaits timeout (some number) s
  begun : Schedule.Reaches kind.watcher (kind.outset session cancelled fireAt) s
  unanswered : ∀ answer, kind.poll timeout none s ≠ .answer answer

section

variable {kind} (hkind : Advances kind) (hstreams : kind.streams ≠ [])
  {timeout : Option (Duration × Nat)} {session : Session} {cancelled : Bool} {fireAt : Option Nat}
include hkind hstreams

/-- A poll without an answer does not end the wait. -/
theorem isWaiting_of_poll {number : Nat} {s s' : LiveSource C}
    (hbegun : Schedule.Reaches kind.watcher (kind.outset session cancelled fireAt) s)
    {seen : Option Nat} (hawaits : kind.Awaits timeout seen s)
    (hreaches : Schedule.Reaches kind.watcher s s')
    (hwait : kind.poll timeout seen s' = .wait number) :
    kind.IsWaiting timeout session cancelled fireAt number s' := by
  have hall := hbegun.trans hreaches
  obtain ⟨turns, hcrew⟩ := kind.exists_creating hall
  refine ⟨hawaits.wait hstreams hreaches hcrew hall.tasks hwait, hall, fun answer hanswer => ?_⟩
  have hpoll := (hawaits.poll_iff hstreams hreaches hcrew hall.tasks hkind answer).mpr hanswer
  cases hwait.symm.trans hpoll

/-- The wait goes on from look to look. -/
theorem IsWaiting.look {number number' : Nat} {s s' : LiveSource C}
    (h : kind.IsWaiting timeout session cancelled fireAt number s)
    (hreaches : Schedule.Reaches kind.watcher s s')
    (hlook : kind.look timeout number s' = some number') :
    kind.IsWaiting timeout session cancelled fireAt number' s' :=
  isWaiting_of_poll hkind hstreams h.begun h.awaits hreaches (poll_of_look hlook)

end

end SourceKind
end WorkloadIdentity
