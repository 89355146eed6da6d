/-
# Paths end at an anchor

A search that accepts has found an anchor: one of those that it was given, at
which a path ends that starts with the leaf (`Path.search_accepts`). So without
anchors no leaf is trusted, whatever certificates lie between
(`Path.isTrusted_nil`).

Key definitions: `Path.Search.Accepts`.
Key theorems: `Path.Search.any_accepts`, `Path.search_accepts`,
`Path.isTrusted_nil`.
-/
import Mathlib.Data.List.Infix
import WorkloadIdentity.X509.Path.Search

namespace WorkloadIdentity
namespace Path

/-! ### Searches within a budget -/

/-- With this budget the search accepts. -/
def Search.Accepts (search : Search Outcome) (budget : Budget) : Prop :=
  (search.run budget).1 = .accepted

theorem Search.not_accepts_refused (budget : Budget) :
    ¬ Search.Accepts (pure .refused) budget :=
  nofun

theorem Search.test_accepts {p : Prop} [Decidable p] {search : Search Outcome} {budget : Budget}
    (h : (if p then search else pure .refused).Accepts budget) : p ∧ search.Accepts budget := by
  split at h
  · rename_i hp
    exact ⟨hp, h⟩
  · exact absurd h (not_accepts_refused budget)

theorem Search.andThen_accepts {first second : Search Outcome} {budget : Budget}
    (h : (Search.andThen first second).Accepts budget) :
    first.Accepts budget ∧ second.Accepts (first.run budget).2 := by
  unfold Accepts andThen at *
  simp only [StateT.run_bind] at h
  cases hfirst : (first.run budget).1 <;> simp_all [bind]

theorem Search.any_accepts {α : Type} {check : α → Search Outcome} :
    ∀ {items : List α} {budget : Budget}, (Search.any check items).Accepts budget →
      ∃ a ∈ items, ∃ left, (check a).Accepts left
  | [], budget, h => absurd h (not_accepts_refused budget)
  | a :: rest, budget, h => by
    unfold any Accepts at h
    simp only [StateT.run_bind] at h
    cases hcheck : ((check a).run budget).1 with
    | accepted => exact ⟨a, List.mem_cons_self, budget, hcheck⟩
    | refused =>
      have hrest : (Search.any check rest).Accepts ((check a).run budget).2 := by
        unfold Accepts
        simpa [bind, hcheck] using h
      obtain ⟨b, hb, left, haccepts⟩ := any_accepts hrest
      exact ⟨b, List.mem_cons_of_mem a hb, left, haccepts⟩
    | exhausted =>
      simp [bind, hcheck] at h

/-! ### Paths -/

/-- **What is accepted ends at an anchor.** A search that accepts has gone on
from its path to one that ends at an anchor of the problem. -/
theorem search_accepts (problem : Problem) : ∀ (more : Nat) (path : List Node) (budget : Budget),
    (search problem more path).Accepts budget →
      ∃ anchor ∈ problem.anchors, ∃ whole left,
        path <:+ whole ∧ (checkAnchor whole anchor).Accepts left
  | _, [], budget, h => by
    unfold search at h
    exact absurd h (Search.not_accepts_refused budget)
  | more, node :: rest, budget, h => by
    unfold search at h
    obtain ⟨branch, hbranch, left, haccepts⟩ := Search.any_accepts (Search.test_accepts h).2
    rcases List.mem_pair.mp hbranch with rfl | rfl
    · -- the path ends here
      obtain ⟨anchor, hanchor, left, haccepts⟩ := Search.any_accepts haccepts
      exact ⟨anchor, hanchor, node :: rest, left, List.suffix_rfl, haccepts⟩
    · -- an issuer comes next
      obtain ⟨issuer, -, left, haccepts⟩ := Search.any_accepts haccepts
      obtain ⟨-, haccepts⟩ := Search.andThen_accepts (Search.test_accepts haccepts).2
      cases more with
      | zero => exact absurd haccepts (Search.not_accepts_refused _)
      | succ more =>
        obtain ⟨anchor, hanchor, whole, left, hsuffix, hends⟩ :=
          search_accepts problem more (issuer :: node :: rest) _ haccepts
        exact ⟨anchor, hanchor, whole, left, (List.suffix_cons _ _).trans hsuffix, hends⟩

theorem isTrusted_nil (purpose : Purpose) (now : Int) (intermediates : List Bytes) (leaf : Bytes) :
    isTrusted purpose now [] intermediates leaf = false := by
  unfold isTrusted
  split
  · rfl
  · rename_i node _
    rw [beq_eq_false_iff_ne]
    intro h
    obtain ⟨anchor, hanchor, -⟩ := search_accepts _ _ _ _ h
    exact List.not_mem_nil hanchor

end Path
end WorkloadIdentity
