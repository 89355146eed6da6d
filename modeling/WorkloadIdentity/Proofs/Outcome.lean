/-
# Steps that may fail

A computation of several steps succeeds if and only if each step does, with
what the step before it gave, and fails for the cause of the first step that
does not. With these lemmas a check made of other checks is taken apart into
what each of them asks for. What is done to each of several succeeds if and only
if it succeeds for each.

Key theorems: `ok_of_steps`, `error_of_steps`, `ok_of_check`, `error_of_check`, `ok_of_test`,
`ok_of_unless`, `ok_of_each`, `error_of_each`, `some_of_each`.
-/
import Mathlib.Data.List.Perm.Basic
import Mathlib.Logic.Basic

namespace WorkloadIdentity

variable {ε ε' α β γ : Type}

theorem ok_of_steps {first : Except ε α} {next : α → Except ε β} {b : β} :
    first >>= next = .ok b ↔ ∃ a, first = .ok a ∧ next a = .ok b := by
  cases first with
  | error e => exact ⟨nofun, nofun⟩
  | ok a => exact ⟨fun h => ⟨a, rfl, h⟩, fun ⟨_, ha, h⟩ => Except.ok.inj ha ▸ h⟩

theorem error_of_steps {first : Except ε α} {next : α → Except ε β} {e : ε} :
    first >>= next = .error e ↔
      first = .error e ∨ ∃ a, first = .ok a ∧ next a = .error e := by
  cases first with
  | error e' =>
    constructor
    · intro h
      exact .inl (congrArg Except.error (Except.error.inj h))
    · rintro (h | ⟨_, ha, -⟩)
      · exact congrArg Except.error (Except.error.inj h)
      · cases ha
  | ok a =>
    constructor
    · intro h
      exact .inr ⟨a, rfl, h⟩
    · rintro (h | ⟨_, ha, h⟩)
      · cases h
      · exact Except.ok.inj ha ▸ h

/-- A check gives nothing to the steps after it. -/
theorem ok_of_check {check : Except ε Unit} {next : Unit → Except ε β} {b : β} :
    check >>= next = .ok b ↔ check = .ok () ∧ next () = .ok b := by
  rw [ok_of_steps]
  exact ⟨fun ⟨(), h⟩ => h, fun h => ⟨(), h⟩⟩

theorem error_of_check {check : Except ε Unit} {next : Unit → Except ε β} {e : ε} :
    check >>= next = .error e ↔ check = .error e ∨ check = .ok () ∧ next () = .error e := by
  rw [error_of_steps]
  exact or_congr_right ⟨fun ⟨(), h⟩ => h, fun h => ⟨(), h⟩⟩

/-- What is refused unless it passes a test. -/
theorem ok_of_test {p : Prop} [Decidable p] {next : Except ε α} {e : ε} {a : α} :
    (if p then next else .error e) = .ok a ↔ p ∧ next = .ok a := by
  split
  · rename_i hp
    exact ⟨fun h => ⟨hp, h⟩, fun h => h.2⟩
  · rename_i hp
    exact ⟨nofun, fun h => absurd h.1 hp⟩

/-- What goes on unless it is refused first. -/
theorem ok_of_unless {p : Prop} [Decidable p] {e : ε} {skipped : β → Except ε α}
    {next : Except ε α} {a : α} :
    (if p then throw e >>= skipped else next) = .ok a ↔ ¬ p ∧ next = .ok a := by
  split
  · rename_i hp
    exact ⟨nofun, fun h => absurd hp h.1⟩
  · rename_i hp
    exact ⟨fun h => ⟨hp, h⟩, fun h => h.2⟩

theorem ok_of_pure {a b : α} : (pure a : Except ε α) = .ok b ↔ a = b :=
  ⟨Except.ok.inj, congrArg Except.ok⟩

/-- What is made of a result, if there is one. -/
theorem ok_of_made {x : Except ε α} {make : α → β} {b : β} :
    x.map make = .ok b ↔ ∃ a, x = .ok a ∧ make a = b := by
  cases x with
  | error e => exact ⟨nofun, fun ⟨_, h, _⟩ => by cases h⟩
  | ok a =>
    constructor
    · intro h
      exact ⟨a, rfl, Except.ok.inj h⟩
    · rintro ⟨_, ⟨⟩, rfl⟩
      rfl

theorem ok_of_relabelled {x : Except ε α} {label : ε → ε'} {a : α} :
    x.mapError label = .ok a ↔ x = .ok a := by
  cases x with
  | error e => exact ⟨nofun, nofun⟩
  | ok b => exact ⟨fun h => congrArg _ (Except.ok.inj h), fun h => congrArg _ (Except.ok.inj h)⟩

theorem ok_of_result {x : Except ε α} {a : α} : x.toOption = some a ↔ x = .ok a := by
  cases x with
  | error e => exact ⟨nofun, nofun⟩
  | ok b => exact ⟨fun h => congrArg _ (Option.some.inj h), fun h => congrArg _ (Except.ok.inj h)⟩

theorem error_of_relabelled {x : Except ε α} {label : ε → ε'} {e' : ε'} :
    x.mapError label = .error e' ↔ ∃ e, x = .error e ∧ label e = e' := by
  cases x with
  | error e =>
    constructor
    · intro h
      exact ⟨e, rfl, Except.error.inj h⟩
    · rintro ⟨_, he, h⟩
      obtain rfl := Except.error.inj he
      exact congrArg Except.error h
  | ok a => exact ⟨nofun, nofun⟩

/-! ### Each of several -/

theorem ok_of_each {step : α → Except ε β} : ∀ {xs : List α} {ys : List β},
    xs.mapM step = .ok ys ↔ List.Forall₂ (fun x y => step x = .ok y) xs ys
  | [], ys => by
    rw [List.mapM_nil, ok_of_pure, List.forall₂_nil_left_iff]
    exact eq_comm
  | x :: xs, ys => by
    simp only [List.mapM_cons, ok_of_steps, ok_of_pure, ok_of_each, List.forall₂_cons_left_iff]
    constructor
    · rintro ⟨y, hy, rest, hrest, rfl⟩
      exact ⟨y, rest, hy, hrest, rfl⟩
    · rintro ⟨y, rest, hy, hrest, rfl⟩
      exact ⟨y, hy, rest, hrest, rfl⟩

theorem some_of_each {step : α → Option β} : ∀ {xs : List α} {ys : List β},
    xs.mapM step = some ys ↔ List.Forall₂ (fun x y => step x = some y) xs ys
  | [], ys => by
    rw [List.mapM_nil, List.forall₂_nil_left_iff, Option.pure_def, Option.some.injEq]
    exact eq_comm
  | x :: xs, ys => by
    simp only [List.mapM_cons, Option.bind_eq_bind, Option.bind_eq_some_iff, Option.pure_def,
      Option.some.injEq, some_of_each, List.forall₂_cons_left_iff]
    constructor
    · rintro ⟨y, hy, rest, hrest, rfl⟩
      exact ⟨y, rest, hy, hrest, rfl⟩
    · rintro ⟨y, rest, hy, hrest, rfl⟩
      exact ⟨y, hy, rest, hrest, rfl⟩

/-- What is done to each of several fails for the cause of the first for which it fails. -/
theorem error_of_each {step : α → Except ε β} {e : ε} : ∀ {xs : List α},
    xs.mapM step = .error e ↔ ∃ before x later, xs = before ++ x :: later ∧
      (∀ y ∈ before, ∃ b, step y = .ok b) ∧ step x = .error e
  | [] => by
    rw [List.mapM_nil]
    constructor
    · intro h
      cases h
    · rintro ⟨before, x, later, hsplit, -⟩
      exact absurd hsplit.symm (List.append_ne_nil_of_right_ne_nil _ (List.cons_ne_nil _ _))
  | x :: xs => by
    rw [List.mapM_cons, error_of_steps]
    constructor
    · rintro (hx | ⟨b, hb, hrest⟩)
      · exact ⟨[], x, xs, rfl, nofun, hx⟩
      · rcases error_of_steps.mp hrest with hrest | ⟨_, -, hnone⟩
        · obtain ⟨before, y, later, rfl, hbefore, hy⟩ := error_of_each.mp hrest
          exact ⟨x :: before, y, later, rfl, List.forall_mem_cons.mpr ⟨⟨b, hb⟩, hbefore⟩, hy⟩
        · cases hnone
    · rintro ⟨_ | ⟨z, before⟩, y, later, hsplit, hbefore, hy⟩
      · obtain ⟨rfl, rfl⟩ := List.cons.inj hsplit
        exact .inl hy
      · obtain ⟨rfl, rfl⟩ := List.cons.inj hsplit
        obtain ⟨⟨b, hb⟩, hbefore⟩ := List.forall_mem_cons.mp hbefore
        have hrest := error_of_each.mpr ⟨before, y, later, rfl, hbefore, hy⟩
        exact .inr ⟨b, hb, error_of_steps.mpr (.inl hrest)⟩

theorem exists_ok_of_each {step : α → Except ε β} : ∀ {xs : List α},
    (∃ ys, xs.mapM step = .ok ys) ↔ ∀ x ∈ xs, ∃ y, step x = .ok y
  | [] => ⟨fun _ => nofun, fun _ => ⟨[], rfl⟩⟩
  | x :: xs => by
    rw [List.forall_mem_cons, ← exists_ok_of_each]
    simp only [List.mapM_cons, ok_of_steps, ok_of_pure]
    constructor
    · rintro ⟨_, y, hy, rest, hrest, rfl⟩
      exact ⟨⟨y, hy⟩, rest, hrest⟩
    · rintro ⟨⟨y, hy⟩, rest, hrest⟩
      exact ⟨_, y, hy, rest, hrest, rfl⟩

theorem exists_some_of_each {step : α → Option β} : ∀ {xs : List α},
    (∃ ys, xs.mapM step = some ys) ↔ ∀ x ∈ xs, ∃ y, step x = some y
  | [] => by simp
  | x :: xs => by
    rw [List.forall_mem_cons, ← exists_some_of_each]
    simp only [List.mapM_cons, Option.bind_eq_bind, Option.bind_eq_some_iff, Option.pure_def,
      Option.some.injEq]
    constructor
    · rintro ⟨_, y, hy, rest, hrest, rfl⟩
      exact ⟨⟨y, hy⟩, rest, hrest⟩
    · rintro ⟨⟨y, hy⟩, rest, hrest⟩
      exact ⟨_, y, hy, rest, hrest, rfl⟩

/-- What comes of each is what comes of one of them. -/
theorem mem_of_each {step : α → Except ε β} {xs : List α} {ys : List β}
    (h : xs.mapM step = .ok ys) (y : β) : y ∈ ys ↔ ∃ x ∈ xs, step x = .ok y := by
  induction ok_of_each.mp h with
  | nil => simp
  | @cons x y' xs ys hstep hrest ih =>
    have hfirst : step x = .ok y ↔ y = y' := by rw [hstep, Except.ok.injEq, eq_comm]
    simp only [List.mem_cons, ih (ok_of_each.mpr hrest), exists_eq_or_imp, hfirst]

/-- What comes of each of several that differ differs. -/
theorem pairwise_of_each {step : α → Except ε β} {differ : α → α → Prop} {differ' : β → β → Prop}
    (hstep : ∀ a b a' b', step a = .ok a' → step b = .ok b' → differ a b → differ' a' b')
    {xs : List α} {ys : List β} (h : xs.mapM step = .ok ys) (hdiffer : xs.Pairwise differ) :
    ys.Pairwise differ' := by
  induction ok_of_each.mp h with
  | nil => exact List.Pairwise.nil
  | @cons x y xs ys hx hrest ih =>
    obtain ⟨hfirst, hlater⟩ := List.pairwise_cons.mp hdiffer
    have hys := ok_of_each.mpr hrest
    refine List.pairwise_cons.mpr ⟨fun y' hy' => ?_, ih hys hlater⟩
    obtain ⟨x', hx', hstep'⟩ := (mem_of_each hys y').mp hy'
    exact hstep _ _ _ _ hx hstep' (hfirst x' hx')

/-- What comes of each in another order is what came of it before, in another
order. -/
theorem perm_of_each {step : α → Except ε β} {xs xs' : List α} {ys : List β}
    (hperm : xs'.Perm xs) (h : xs.mapM step = .ok ys) :
    ∃ ys', xs'.mapM step = .ok ys' ∧ ys'.Perm ys := by
  obtain ⟨ys', hys', hperm'⟩ := List.perm_comp_forall₂ hperm (ok_of_each.mp h)
  exact ⟨ys', ok_of_each.mpr hys', hperm'⟩

/-- What comes of one stands between what comes of those before and after. -/
theorem split_of_each {step : α → Except ε β} {front back : List α} {x : α} {ys : List β}
    (h : (front ++ x :: back).mapM step = .ok ys) :
    ∃ fronts y backs, ys = fronts ++ y :: backs ∧ step x = .ok y ∧
      back.mapM step = .ok backs := by
  simp only [List.mapM_append, List.mapM_cons, ok_of_steps, ok_of_pure] at h
  obtain ⟨fronts, -, _, ⟨y, hy, backs, hbacks, rfl⟩, rfl⟩ := h
  exact ⟨fronts, y, backs, rfl, hy, hbacks⟩

/-- Lists that match in each place match through a third one. -/
theorem forall₂_trans {R : α → β → Prop} {S : β → γ → Prop} {xs : List α} {ys : List β}
    {zs : List γ} (h : List.Forall₂ R xs ys) (h' : List.Forall₂ S ys zs) :
    List.Forall₂ (fun x z => ∃ y, R x y ∧ S y z) xs zs := by
  induction h generalizing zs with
  | nil =>
    cases h'
    exact .nil
  | cons hxy _ ih =>
    cases h' with
    | cons hyz h' => exact .cons ⟨_, hxy, hyz⟩ (ih h')

/-- What two lists have in common in each place they have in common in the last. -/
theorem exists_getLast?_of_forall₂ {R : α → β → Prop} {xs : List α} {ys : List β}
    (h : List.Forall₂ R xs ys) {y : β} (hy : ys.getLast? = some y) :
    ∃ x, xs.getLast? = some x ∧ R x y := by
  have hreverse := List.forall₂_reverse_iff.mpr h
  rw [List.getLast?_eq_head?_reverse] at hy ⊢
  generalize xs.reverse = xs at hreverse ⊢
  generalize ys.reverse = ys at hreverse hy
  cases hreverse with
  | nil => cases hy
  | cons hxy _ =>
    obtain rfl := Option.some.inj hy
    exact ⟨_, rfl, hxy⟩

end WorkloadIdentity
