/-
# How watches end

A watch ends because the token has fired, or on a terminal status, on which it stops.
So the task of a crew has failed on such a status, or the token has fired, or it goes on
with all its watches.

Key definitions: `Watch.Phase.failure?`, `Watch.Crew.failure?`, `Watch.EndsRightly`.
Key theorems: `Watch.Crew.run_endsRightly`, `Watch.Task.result?_cases`.
-/
import WorkloadIdentity.Proofs.Watch.Crew

namespace WorkloadIdentity
namespace Watch

variable {σ μ ν : Type}

/-- The error on which a watch has stopped. -/
def Phase.failure? (phase : Phase μ) : Option ApiError :=
  phase.result?.bind fun
    | .error cause => some cause
    | .ok () => none

/-- The error on which the first one of the watches that have failed has stopped. -/
def Crew.failure? (c : Crew σ) : Option ApiError := c.watches.findSome? (·.phase.failure?)

/-- How a watch may end: because the token has fired, or on a terminal status. -/
def EndsRightly (cancelled : Bool) (result : Except ApiError Unit) : Prop :=
  (result = .ok () ∧ cancelled = true) ∨
    ∃ cause, result = .error cause ∧ cause.isTerminal = true

theorem Taken.endsRightly {name : String} {convert : μ → Except ApiError ν}
    {around : Surroundings μ} {phase : Phase μ} {move : Move μ ν}
    (h : Taken name convert around phase move) {result : Except ApiError Unit}
    (hended : move.phase.result? = some result) : EndsRightly around.cancelled result := by
  cases h with
  | stopped _ _ hcancelled => exact .inl ⟨(Option.some.inj hended).symm, hcancelled⟩
  | final cause hterminal => exact .inr ⟨cause, (Option.some.inj hended).symm, hterminal⟩
  | _ => cases hended

theorem Crew.run_endsRightly {watcher : Watcher σ} (hdiscreet : watcher.Discreet)
    (session : Session) (keep : σ) (cancelled : Bool) (streams : List StreamKind)
    (turns : List Turn) :
    let c := (start session keep cancelled streams).run watcher turns
    ∀ r ∈ c.watches, ∀ result, r.phase.result? = some result →
      EndsRightly c.world.cancelled result := by
  refine run_inv (P := fun c => ∀ r ∈ c.watches, ∀ result, r.phase.result? = some result →
    EndsRightly c.world.cancelled result)
    ?_ (fun c i r move h hr hmove r' hr' result hended => ?_) (fun _ _ => id)
    (fun c h r hr result hended => (h r hr result hended).imp_left fun hok => ⟨hok.1, rfl⟩) turns
  · intro r hr result hended
    obtain ⟨stream, -, rfl⟩ := List.mem_map.mp hr
    cases hended
  · rcases List.mem_or_eq_of_mem_set hr' with hr' | rfl
    · exact (h r' hr' result hended).imp_left fun hok =>
        ⟨hok.1, hdiscreet.cancelled_afterMove hok.2⟩
    · rw [Running.enter_phase] at hended
      exact ((taken_of_step hmove).endsRightly hended).imp_left fun hok =>
        ⟨hok.1, hdiscreet.cancelled_afterMove hok.2⟩

theorem failure?_eq_none {watches : List Running} :
    watches.findSome? (·.phase.failure?) = none ↔
      ∀ r ∈ watches, ∀ cause, r.phase.result? ≠ some (.error cause) := by
  rw [List.findSome?_eq_none_iff]
  refine forall₂_congr fun r _ => ?_
  rw [Phase.failure?]
  cases r.phase.result? with
  | none => simp
  | some result => cases result <;> simp

/-- A task has failed if one of its watches has. -/
theorem Task.result?_of_failure {t : Task} {cause : ApiError}
    (h : t.watches.findSome? (·.phase.failure?) = some cause) :
    t.result? = some (.error cause) := by
  unfold result?
  split
  · rename_i cause' hcause'
    obtain rfl := Option.some.inj (h.symm.trans hcause')
    rfl
  · rename_i hnone
    cases h.symm.trans hnone

theorem Task.result?_of_none {t : Task} (h : t.watches.findSome? (·.phase.failure?) = none) :
    t.result? = if t.watches.all (·.phase.result?.isSome) then some (.ok ()) else none := by
  unfold result?
  split
  · rename_i cause hcause
    cases h.symm.trans hcause
  · rfl

/-- What has become of a task: it has failed, or the token has fired and its watches have
ended, or it goes on, with all its watches as long as the token has not fired. -/
theorem Task.result?_cases {t : Task} {cancelled : Bool} (hne : t.watches ≠ [])
    (hends : ∀ r ∈ t.watches, ∀ result, r.phase.result? = some result →
      EndsRightly cancelled result) :
    (∃ cause, t.watches.findSome? (·.phase.failure?) = some cause ∧
      t.result? = some (.error cause)) ∨
    (cancelled = true ∧ t.result? = some (.ok ())) ∨
    (t.watches.findSome? (·.phase.failure?) = none ∧ t.result? = none ∧
      (cancelled = false → ∀ r ∈ t.watches, r.phase.result? = none)) := by
  cases hfailure : t.watches.findSome? (·.phase.failure?) with
  | some cause => exact .inl ⟨cause, rfl, result?_of_failure hfailure⟩
  | none =>
    have hresult := result?_of_none hfailure
    have hfine := failure?_eq_none.mp hfailure
    -- a watch that has ended and has not failed has been cancelled
    have hcancelled : ∀ r ∈ t.watches, r.phase.result? ≠ none → cancelled = true := by
      intro r hr hsome
      obtain ⟨result, hsome⟩ := Option.ne_none_iff_exists'.mp hsome
      rcases hends r hr result hsome with ⟨-, hcancelled⟩ | ⟨cause, rfl, -⟩
      · exact hcancelled
      · exact absurd hsome (hfine r hr cause)
    right
    by_cases hall : t.watches.all (·.phase.result?.isSome) = true
    · left
      obtain ⟨r, hr⟩ := List.exists_mem_of_ne_nil _ hne
      refine ⟨hcancelled r hr ?_, hresult.trans (if_pos hall)⟩
      exact Option.isSome_iff_ne_none.mp (List.all_eq_true.mp hall r hr)
    · right
      refine ⟨rfl, hresult.trans (if_neg hall), fun hlive r hr => ?_⟩
      by_contra hsome
      rw [hcancelled r hr hsome] at hlive
      cases hlive

end Watch
end WorkloadIdentity
