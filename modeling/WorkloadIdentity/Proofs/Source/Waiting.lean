/-
# Whoever waits for a source misses nothing

While someone waits for a source and polls, its task installs updates in atomic steps,
the token may fire, the task may end, and the clock goes on. A course
(`Wait.IsCourse`) says what there is at every moment. The four looks of a poll are at
moments of it, one after the other, and the next poll comes after them.

An install makes the source ready before it counts an update, and a poll looks at the
stage only if the number of updates is another one than at the poll before. In between,
the update is there and nobody has been called yet: a poll may find the source as it was
before the install that is under way (`Wait.Found`). The install goes on to count,
and once it is through, the number is another one than anybody has in mind
(`Wait.IsCourse.lt_updates`). Every poll gets the answer that is due for what it finds
(`Wait.IsCourse.exists_isDue`), and no order of all these events leads to another one.

Key definitions: `Wait.Making`, `Wait.Step`, `Wait.IsCourse`, `Wait.Remembers`,
`Wait.IsDue`, `Wait.Found`, `Wait.Advances`.
Key theorems: `Wait.poll_eq_answer_iff`, `Wait.IsCourse.lt_updates`,
`Wait.IsCourse.exists_found`, `Wait.IsCourse.exists_isDue`,
`Wait.IsCourse.getters_of_ok`.
-/
import WorkloadIdentity.Proofs.Source.Readiness
import WorkloadIdentity.Proofs.Watch.Ending
import WorkloadIdentity.Source.Live

namespace WorkloadIdentity

/-- What changes a source: an update is installed, or it is disposed of. -/
def SourceKind.program {C : Type} (kind : SourceKind C) : Option Update → Steps C SourceEvent
  | some update => kind.install update
  | none => kind.dispose

namespace Wait

/-! ### What is due -/

/-- The answer that a poll has to give, by what it finds at its looks: a token that has
fired counts first, then a source that is ready, then the end of the task, and time only
while the task goes on. -/
def IsDue (timeout : Option (Duration × Nat)) (token : Scene) (ready : Lifecycle)
    (task time : Scene) : Except SourceError Unit → Prop
  | .ok () => token.cancelled = false ∧ ready.stage = .initialized
  | .error .initializationCancelled =>
    token.cancelled = true ∨
      (ready.stage ≠ .initialized ∧ task.result = some (.ok ()) ∧ task.cancelled = true)
  | .error (.workloadApi cause) =>
    token.cancelled = false ∧ ready.stage ≠ .initialized ∧ task.result = some (.error cause)
  | .error (.initializationTimeout length) =>
    token.cancelled = false ∧ ready.stage ≠ .initialized ∧ task.result = none ∧
      ∃ deadline, timeout = some (length, deadline) ∧ deadline ≤ time.clock
  | .error _ => False

section

variable {timeout : Option (Duration × Nat)} {seen : Option Nat} {token ready task time : Scene}
  {l : Lifecycle} {answer : Except SourceError Unit}

theorem isDue_iff_of_cancelled (hfired : token.cancelled = true) :
    IsDue timeout token l task time answer ↔ answer = .error .initializationCancelled := by
  cases answer with
  | ok => simp [IsDue, hfired]
  | error e => cases e <;> simp [IsDue, hfired]

theorem isDue_iff_of_ready (hlive : token.cancelled = false) (hready : l.stage = .initialized) :
    IsDue timeout token l task time answer ↔ answer = .ok () := by
  cases answer with
  | ok => simp [IsDue, hlive, hready]
  | error e => cases e <;> simp [IsDue, hlive, hready]

theorem isDue_iff_of_error (hlive : token.cancelled = false) (hready : l.stage ≠ .initialized)
    {cause : ApiError} (hresult : task.result = some (.error cause)) :
    IsDue timeout token l task time answer ↔ answer = .error (.workloadApi cause) := by
  cases answer with
  | ok => simp [IsDue, hready]
  | error e =>
    cases e with
    | workloadApi cause' =>
      simp only [IsDue, hlive, hresult, true_and, Option.some.injEq, Except.error.injEq,
        SourceError.workloadApi.injEq]
      exact ⟨fun h => h.2.symm, fun h => ⟨hready, h.symm⟩⟩
    | _ => simp [IsDue, hlive, hready, hresult]

theorem isDue_iff_of_over (hlive : token.cancelled = false) (hready : l.stage ≠ .initialized)
    (hresult : task.result = some (.ok ())) (hfired : task.cancelled = true) :
    IsDue timeout token l task time answer ↔ answer = .error .initializationCancelled := by
  cases answer with
  | ok => simp [IsDue, hready]
  | error e => cases e <;> simp [IsDue, hlive, hready, hresult, hfired]

theorem isDue_iff_of_going (hlive : token.cancelled = false) (hready : l.stage ≠ .initialized)
    (hresult : task.result = none) :
    IsDue timeout token l task time answer ↔ ∃ length deadline,
      timeout = some (length, deadline) ∧ deadline ≤ time.clock ∧
        answer = .error (.initializationTimeout length) := by
  cases answer with
  | ok => simp [IsDue, hready]
  | error e => cases e <;> simp [IsDue, hlive, hready, hresult]

/-- A poll gives the answer that is due for a source that is ready if it has been seen to
be. -/
theorem poll_eq_answer_iff
    (hl : seen ≠ some ready.lifecycle.updates ∧ ready.lifecycle.stage = .initialized ↔
      l.stage = .initialized)
    (hok : task.result = some (.ok ()) → task.cancelled = true) :
    poll timeout seen token ready task time = .answer answer ↔
      IsDue timeout token l task time answer := by
  unfold poll
  by_cases hfired : token.cancelled = true
  · rw [if_pos hfired, isDue_iff_of_cancelled hfired, Verdict.answer.injEq, eq_comm]
  rw [if_neg hfired]
  have hlive : token.cancelled = false := Bool.eq_false_iff.mpr hfired
  by_cases hready : l.stage = .initialized
  · rw [if_pos (hl.mpr hready), isDue_iff_of_ready hlive hready, Verdict.answer.injEq, eq_comm]
  rw [if_neg (mt hl.mp hready)]
  cases hresult : task.result with
  | some result =>
    cases result with
    | error cause => rw [isDue_iff_of_error hlive hready hresult, Verdict.answer.injEq, eq_comm]
    | ok => rw [isDue_iff_of_over hlive hready hresult (hok hresult), Verdict.answer.injEq, eq_comm]
  | none =>
    rw [isDue_iff_of_going hlive hready hresult]
    rcases timeout with _ | ⟨length, deadline⟩
    · simp
    · by_cases hdeadline : deadline ≤ time.clock <;> simp [hdeadline, eq_comm]

/-- A first poll looks at the stage in any case. -/
theorem poll_none_eq_answer_iff
    (hok : task.result = some (.ok ()) → task.cancelled = true) :
    poll timeout none token ready task time = .answer answer ↔
      IsDue timeout token ready.lifecycle task time answer :=
  poll_eq_answer_iff ⟨And.right, fun hready => ⟨nofun, hready⟩⟩ hok

/-- A poll without an answer keeps in mind the number of updates, and has found that
nothing has come about. -/
theorem of_poll_eq_wait {number : Nat} (h : poll timeout seen token ready task time = .wait number) :
    number = ready.lifecycle.updates ∧ token.cancelled = false ∧
      ¬ (seen ≠ some ready.lifecycle.updates ∧ ready.lifecycle.stage = .initialized) ∧
      task.result = none ∧ ∀ deadline, timeout.map (·.2) = some deadline → time.clock < deadline := by
  unfold poll at h
  split at h
  · cases h
  rename_i hlive
  split at h
  · cases h
  rename_i hseen
  split at h
  · cases h
  · cases h
  · rename_i length deadline hresult
    split at h
    · cases h
    · rename_i hdeadline
      refine ⟨(Verdict.wait.inj h).symm, Bool.eq_false_iff.mpr hlive, hseen, hresult, ?_⟩
      intro deadline' hdeadline'
      obtain rfl := Option.some.inj hdeadline'
      exact Nat.not_le.mp hdeadline
  · rename_i hresult
    exact ⟨(Verdict.wait.inj h).symm, Bool.eq_false_iff.mpr hlive, hseen, hresult, nofun⟩

end

/-! ### Courses -/

variable {C A : Type}

/-- A source that is being created, with what goes on around it. -/
structure Making (C : Type) where
  /-- The calls that have begun: installs of its task, as nobody else has the source yet. -/
  calls : Calls (Option Update) C SourceEvent
  cancelled : Bool
  /-- How the task has ended, if it has. -/
  result : Option (Except ApiError Unit)
  clock : Nat

section

variable (kind : SourceKind C)

/-- How far the source is. -/
def Making.lifecycle (m : Making C) : Lifecycle := kind.lifecycle m.calls.state

/-- What there is to see. -/
def Making.scene (m : Making C) : Scene := ⟨m.cancelled, m.lifecycle kind, m.result, m.clock⟩

/-- What may happen next. The task installs one update after the other, each in the steps
of its program, and does not end in the middle of an install. -/
inductive Step : Making C → Making C → Prop
  | install (m : Making C) (update : Update) (hgoes : m.result = none) (hidle : m.calls.IsIdle) :
    Step m { m with calls := m.calls.begin (some update) (kind.install update) }
  | work (m : Making C) (caller : Nat) : Step m { m with calls := m.calls.advance caller }
  | stop (m : Making C) (result : Except ApiError Unit) (hgoes : m.result = none)
    (hidle : m.calls.IsIdle) (hends : Watch.EndsRightly m.cancelled result) :
    Step m { m with result := some result }
  | fire (m : Making C) : Step m { m with cancelled := true }
  | time (m : Making C) (clock : Nat) : Step m { m with clock }

/-- What there is at every moment, from when the source is begun. -/
structure IsCourse (course : Nat → Making C) : Prop where
  start : ∃ cancelled clock, course 0 = ⟨.start kind.fresh, cancelled, none, clock⟩
  step : ∀ k, Step kind (course k) (course (k + 1))

/-- The looks of a poll come one after the other, and after the poll before. -/
structure Looks (since token ready task time : Nat) : Prop where
  since_le : since ≤ token
  token_le : token ≤ ready
  ready_le : ready ≤ task
  task_le : task ≤ time

/-- All looks may be at one moment. -/
theorem Looks.at_once {since k : Nat} (hk : since ≤ k) : Looks since k k k k :=
  ⟨hk, Nat.le_refl k, Nat.le_refl k, Nat.le_refl k⟩

/-- What a poll with looks at these moments comes to. -/
def polled (timeout : Option (Duration × Nat)) (course : Nat → Making C) (seen : Option Nat)
    (token ready task time : Nat) : Verdict :=
  poll timeout seen ((course token).scene kind) ((course ready).scene kind)
    ((course task).scene kind) ((course time).scene kind)

/-- What whoever waits has in mind since the last poll, which had no answer; before the
first poll there is nothing. -/
inductive Remembers (timeout : Option (Duration × Nat)) (course : Nat → Making C) :
    Nat → Option Nat → Prop
  | nothing : Remembers timeout course 0 none
  | number {since token ready task time number : Nat} {seen : Option Nat}
    (hseen : Remembers timeout course since seen) (hlooks : Looks since token ready task time)
    (hwait : polled kind timeout course seen token ready task time = .wait number) :
    Remembers timeout course time (some number)

/-- The moment from which a look finds the source: its own, or the last one before the
install that is under way, as long as that has an update to count. -/
inductive Found (course : Nat → Making C) (ready : Nat) : Nat → Prop
  | now : Found course ready ready
  | before {k : Nat} (hk : k < ready) (hidle : (course k).calls.IsIdle)
    (hunder : ∀ j, k < j → j ≤ ready → ¬ (course j).calls.IsIdle)
    (hcounts : ∃ (i : Nat) (call : Option Update) (p : Steps C SourceEvent),
      (course ready).calls.working[i]? = some (call, p) ∧ p.Publishes kind.lifecycle)
    (hstage : ((course k).lifecycle kind).stage ≠ .initialized) : Found course ready k

/-- Whoever changes the source takes it forward, and counts an update if that makes it
ready; whoever installs an update does not dispose of it. -/
structure Advances : Prop where
  fresh : (kind.lifecycle kind.fresh).stage ≠ .disposed
  heralds : ∀ call, (kind.program call).Heralds kind.lifecycle
  keeps : ∀ update, (kind.install update).Keeps fun c => (kind.lifecycle c).stage ≠ .disposed

end

variable {kind : SourceKind C} {course : Nat → Making C}

/-- Nobody has begun when the source is. -/
theorem IsCourse.idle_zero (h : IsCourse kind course) : (course 0).calls.IsIdle := by
  obtain ⟨cancelled, clock, hstart⟩ := h.start
  rw [hstart]
  exact fun _ _ hmem => nomatch hmem

/-- The number that is kept in mind was there at a moment when the source was not ready. -/
theorem Remembers.exists_updates {timeout : Option (Duration × Nat)} {since number : Nat}
    (hseen : Remembers kind timeout course since (some number)) :
    ∃ j ≤ since, ((course j).lifecycle kind).updates = number ∧
      ((course j).lifecycle kind).stage ≠ .initialized := by
  generalize hnumber : some number = seen' at hseen
  induction hseen generalizing number with
  | nothing => cases hnumber
  | @number since token ready task time number' seen _ hlooks hwait ih =>
    obtain rfl := Option.some.inj hnumber
    obtain ⟨hupdates, -, hstage, -, -⟩ := of_poll_eq_wait hwait
    have hready : ready ≤ time := Nat.le_trans hlooks.ready_le hlooks.task_le
    by_cases hsame : seen = some ((course ready).lifecycle kind).updates
    · -- the poll has not looked at the stage, but one before it has
      obtain ⟨j, hj, hnumber, hbefore⟩ := ih (hsame.trans (congrArg some hupdates.symm)).symm
      have hsince : since ≤ ready := Nat.le_trans hlooks.since_le hlooks.token_le
      exact ⟨j, Nat.le_trans hj (Nat.le_trans hsince hready), hnumber, hbefore⟩
    · exact ⟨ready, hready, hupdates.symm, fun hinitialized => hstage ⟨hsame, hinitialized⟩⟩

/-- The moves of a task: it begins to install an update, or takes a step. -/
def OfTask : Move (Option Update) C A → Prop
  | .call call => call ≠ none
  | .work _ => True
  | _ => False

/-- What a step does to the calls is a move of the task, or nothing. -/
theorem Step.exists_moves {m m' : Making C} (h : Step kind m m')
    {moves : List (Move (Option Update) C A)}
    (hm : m.calls = (Crowd.run kind.program kind.lifecycle kind.fresh moves).calls) :
    ∃ more : List (Move (Option Update) C A), (∀ move ∈ more, OfTask move) ∧
      m'.calls = (Crowd.run kind.program kind.lifecycle kind.fresh (moves ++ more)).calls := by
  cases h with
  | install update =>
    refine ⟨[.call (some update)], fun move hmove => ?_, by rw [Crowd.run_append, hm]; rfl⟩
    obtain rfl := List.mem_singleton.mp hmove
    exact Option.some_ne_none update
  | work caller =>
    refine ⟨[.work caller], fun move hmove => ?_, by rw [Crowd.run_append, hm]; rfl⟩
    obtain rfl := List.mem_singleton.mp hmove
    trivial
  | stop | fire | time => exact ⟨[], nofun, by rw [List.append_nil]; exact hm⟩

namespace IsCourse

variable (h : IsCourse kind course)
include h

/-- If the calls are those of a crowd at a moment, they are later on. -/
theorem exists_more {i : Nat} {moves : List (Move (Option Update) C A)}
    (htask : ∀ move ∈ moves, OfTask move)
    (hi : (course i).calls = (Crowd.run kind.program kind.lifecycle kind.fresh moves).calls)
    (d : Nat) :
    ∃ more, (∀ move ∈ moves ++ more, OfTask move) ∧ (course (i + d)).calls =
      (Crowd.run kind.program kind.lifecycle kind.fresh (moves ++ more)).calls := by
  induction d with
  | zero => exact ⟨[], by rwa [List.append_nil], by rw [List.append_nil]; exact hi⟩
  | succ d ih =>
    obtain ⟨more, hmore, hcalls⟩ := ih
    obtain ⟨last, hlast, hcalls⟩ := (h.step (i + d)).exists_moves hcalls
    refine ⟨more ++ last, ?_, by rw [← List.append_assoc]; exact hcalls⟩
    rw [← List.append_assoc]
    exact List.forall_mem_append.mpr ⟨hmore, hlast⟩

/-- **The calls of a course are those of a crowd.** -/
theorem exists_moves (A : Type) {j k : Nat} (hjk : j ≤ k) :
    ∃ moves more : List (Move (Option Update) C A), (∀ move ∈ moves ++ more, OfTask move) ∧
      (course j).calls = (Crowd.run kind.program kind.lifecycle kind.fresh moves).calls ∧
      (course k).calls =
        (Crowd.run kind.program kind.lifecycle kind.fresh (moves ++ more)).calls := by
  obtain ⟨cancelled, clock, hstart⟩ := h.start
  have hzero : (course 0).calls = (Crowd.run kind.program kind.lifecycle kind.fresh
      ([] : List (Move (Option Update) C A))).calls := by
    rw [hstart]
    rfl
  have hnone : ∀ move ∈ ([] : List (Move (Option Update) C A)), OfTask move := nofun
  obtain ⟨moves, htask, hmoves⟩ := h.exists_more hnone hzero j
  rw [Nat.zero_add, List.nil_append] at hmoves
  obtain ⟨d, rfl⟩ := Nat.exists_eq_add_of_le hjk
  obtain ⟨more, htask, hmore⟩ := h.exists_more htask hmoves d
  exact ⟨moves, more, htask, hmoves, hmore⟩

theorem precedes (hkind : Advances kind) {j k : Nat} (hjk : j ≤ k) :
    ((course j).lifecycle kind).Precedes ((course k).lifecycle kind) := by
  obtain ⟨moves, more, -, hj, hk⟩ := h.exists_moves Unit hjk
  rw [Making.lifecycle, Making.lifecycle, hj, hk]
  exact Crowd.precedes hkind.heralds moves more

theorem not_disposed (hkind : Advances kind) (k : Nat) :
    ((course k).lifecycle kind).stage ≠ .disposed := by
  obtain ⟨moves, more, htask, hk, -⟩ := h.exists_moves Unit (Nat.le_refl k)
  rw [Making.lifecycle, hk]
  refine (Crowd.keeps (Q := fun call => call ≠ none)
    (P := fun c => (kind.lifecycle c).stage ≠ .disposed) hkind.fresh (fun call hcall => ?_) moves
    fun call hmem => htask (.call call) (List.mem_append_left _ hmem)).1
  obtain ⟨update, rfl⟩ := Option.ne_none_iff_exists'.mp hcall
  exact hkind.keeps update

theorem uninitialized_iff (hkind : Advances kind) (k : Nat) :
    ((course k).lifecycle kind).stage = .uninitialized ↔
      ((course k).lifecycle kind).stage ≠ .initialized := by
  have halive := h.not_disposed hkind k
  cases hstage : ((course k).lifecycle kind).stage with
  | uninitialized => simp
  | initialized => simp
  | disposed => exact absurd hstage halive

/-- A source that is ready stays so while it is waited for. -/
theorem stays_initialized (hkind : Advances kind) {j k : Nat} (hjk : j ≤ k)
    (hj : ((course j).lifecycle kind).stage = .initialized) :
    ((course k).lifecycle kind).stage = .initialized := by
  by_contra hk
  have hprecedes := h.precedes hkind hjk
  exact hprecedes.ne_uninitialized (by rw [hj]; nofun) ((h.uninitialized_iff hkind k).mpr hk)

/-- A source that has become ready has counted an update since, or some call is about to
count one. -/
theorem updates_lt_or (hkind : Advances kind) {j k : Nat} (hjk : j ≤ k)
    (hj : ((course j).lifecycle kind).stage ≠ .initialized)
    (hk : ((course k).lifecycle kind).stage = .initialized) :
    ((course j).lifecycle kind).updates < ((course k).lifecycle kind).updates ∨
      ∃ (i : Nat) (call : Option Update) (p : Steps C SourceEvent),
        (course k).calls.working[i]? = some (call, p) ∧ p.Publishes kind.lifecycle := by
  have hj := (h.uninitialized_iff hkind j).mpr hj
  obtain ⟨moves, more, -, hmoves, hmore⟩ := h.exists_moves Unit hjk
  rw [Making.lifecycle, hmoves] at hj ⊢
  rw [Making.lifecycle, hmore] at hk ⊢
  exact Crowd.updates_lt_or hkind.heralds moves more hj hk

/-- Whoever has made the source ready has counted the update once it is through. -/
theorem updates_lt_of_idle (hkind : Advances kind) {j k : Nat} (hjk : j ≤ k)
    (hj : ((course j).lifecycle kind).stage ≠ .initialized)
    (hk : ((course k).lifecycle kind).stage = .initialized) (hidle : (course k).calls.IsIdle) :
    ((course j).lifecycle kind).updates < ((course k).lifecycle kind).updates := by
  refine (h.updates_lt_or hkind hjk hj hk).resolve_right ?_
  rintro ⟨i, call, p, hi, hpublishes⟩
  obtain rfl := hidle call p (List.mem_of_getElem? hi)
  exact hpublishes

/-- As long as no update has been counted, no install that is through has made the source
ready. -/
theorem not_initialized_of_idle (hkind : Advances kind) {j k ready : Nat}
    (hj : ((course j).lifecycle kind).stage ≠ .initialized) (hk : k ≤ ready)
    (hidle : (course k).calls.IsIdle)
    (hcount : ((course ready).lifecycle kind).updates = ((course j).lifecycle kind).updates) :
    ((course k).lifecycle kind).stage ≠ .initialized := by
  intro hinitialized
  have hle := (h.precedes hkind hk).updates
  rcases Nat.le_total j k with hjk | hkj
  · have hlt := h.updates_lt_of_idle hkind hjk hj hinitialized hidle
    omega
  · exact hj (h.stays_initialized hkind hkj hinitialized)

/-- A task ends as watches do. -/
theorem endsRightly (k : Nat) {result : Except ApiError Unit}
    (hresult : (course k).result = some result) :
    Watch.EndsRightly (course k).cancelled result := by
  induction k generalizing result with
  | zero =>
    obtain ⟨cancelled, clock, hstart⟩ := h.start
    rw [hstart] at hresult
    cases hresult
  | succ k ih =>
    have hstep := h.step k
    generalize course k = m at ih hstep
    generalize course (k + 1) = m' at hresult hstep
    cases hstep with
    | install | work | time => exact ih hresult
    | stop result' _ _ hends =>
      obtain rfl := Option.some.inj hresult
      exact hends
    | fire => exact (ih hresult).imp_left fun hok => ⟨hok.1, rfl⟩

/-- A task that has ended without an error has been cancelled. -/
theorem cancelled_of_ok (k : Nat) (hresult : (course k).result = some (.ok ())) :
    (course k).cancelled = true := by
  rcases h.endsRightly k hresult with ⟨-, hfired⟩ | ⟨cause, hcause, -⟩
  · exact hfired
  · cases hcause

/-- The last moment before the install that is under way. -/
theorem exists_idle (ready : Nat) :
    ∃ k ≤ ready, (course k).calls.IsIdle ∧ ∀ j, k < j → j ≤ ready → ¬ (course j).calls.IsIdle := by
  induction ready with
  | zero => exact ⟨0, Nat.le_refl _, h.idle_zero, fun j hj hle => absurd hle (Nat.not_le.mpr hj)⟩
  | succ ready ih =>
    by_cases hidle : (course (ready + 1)).calls.IsIdle
    · exact ⟨ready + 1, Nat.le_refl _, hidle, fun j hj hle => absurd hle (Nat.not_le.mpr hj)⟩
    · obtain ⟨k, hk, hkidle, hunder⟩ := ih
      refine ⟨k, Nat.le_succ_of_le hk, hkidle, fun j hj hle => ?_⟩
      rcases Nat.lt_or_eq_of_le hle with hlt | rfl
      · exact hunder j hj (Nat.le_of_lt_succ hlt)
      · exact hidle

section

variable {timeout : Option (Duration × Nat)} {since : Nat} {seen : Option Nat}

/-- What a poll takes the source to be is what the source is, or was before the install that
is under way. -/
theorem exists_found (hkind : Advances kind) (hseen : Remembers kind timeout course since seen)
    {ready : Nat} (hready : since ≤ ready) :
    ∃ k, Found kind course ready k ∧
      (seen ≠ some ((course ready).lifecycle kind).updates ∧
        ((course ready).lifecycle kind).stage = .initialized ↔
      ((course k).lifecycle kind).stage = .initialized) := by
  by_cases hstage : ((course ready).lifecycle kind).stage = .initialized
  · by_cases hsame : seen = some ((course ready).lifecycle kind).updates
    · -- the install that has made the source ready has not counted yet
      subst hsame
      obtain ⟨j, hj, hcount, hbefore⟩ := hseen.exists_updates
      have hcounts := (h.updates_lt_or hkind (Nat.le_trans hj hready) hbefore hstage).resolve_left
        (by rw [hcount]; exact Nat.lt_irrefl _)
      obtain ⟨k, hk, hidle, hunder⟩ := h.exists_idle ready
      have hunready := h.not_initialized_of_idle hkind hbefore hk hidle hcount.symm
      have hlt : k < ready := by
        refine Nat.lt_of_le_of_ne hk ?_
        rintro rfl
        exact hunready hstage
      exact ⟨k, .before hlt hidle hunder hcounts hunready,
        fun hl => absurd rfl hl.1, fun hl => absurd hl hunready⟩
    · exact ⟨ready, .now, And.right, fun _ => ⟨hsame, hstage⟩⟩
  · exact ⟨ready, .now, And.right, fun hl => absurd hl hstage⟩

/-- **A poll gives the answer that is due for what it finds,** whatever goes on between its
looks. -/
theorem exists_isDue (hkind : Advances kind) (hseen : Remembers kind timeout course since seen)
    {token ready task time : Nat} (hlooks : Looks since token ready task time) :
    ∃ k, Found kind course ready k ∧ ∀ answer,
      polled kind timeout course seen token ready task time = .answer answer ↔
        IsDue timeout ((course token).scene kind) ((course k).lifecycle kind)
          ((course task).scene kind) ((course time).scene kind) answer := by
  obtain ⟨k, hfound, hl⟩ :=
    h.exists_found hkind hseen (Nat.le_trans hlooks.since_le hlooks.token_le)
  have hok : ((course task).scene kind).result = some (.ok ()) →
      ((course task).scene kind).cancelled = true := h.cancelled_of_ok task
  exact ⟨k, hfound, fun answer => poll_eq_answer_iff hl hok⟩

/-- When no install is under way, a poll finds the source as it is. -/
theorem isDue_of_idle (hkind : Advances kind) (hseen : Remembers kind timeout course since seen)
    {token ready task time : Nat} (hlooks : Looks since token ready task time)
    (hidle : (course ready).calls.IsIdle) (answer : Except SourceError Unit) :
    polled kind timeout course seen token ready task time = .answer answer ↔
      IsDue timeout ((course token).scene kind) ((course ready).lifecycle kind)
        ((course task).scene kind) ((course time).scene kind) answer := by
  obtain ⟨k, hfound, hdue⟩ := h.exists_isDue hkind hseen hlooks
  cases hfound with
  | now => exact hdue answer
  | before hk _ hunder => exact absurd hidle (hunder ready hk (Nat.le_refl _))

end

end IsCourse

end Wait
end WorkloadIdentity
