/-
# Bundle sets and how they came about

A set of bundles is made by adding to it and by making it anew. What it holds
afterwards is told by the bundles that were added since it was last made anew
(`BundleSet.added`): it is the set of those (`BundleSet.built_eq_ofList`), and
the bundle of a trust domain is the last one of them that belongs to it
(`BundleSet.find?_built`).

Key definitions: `BundleSet.Change`, `BundleSet.built`, `BundleSet.added`,
`BundleSet.lastAdded`.
Key theorems: `BundleSet.find?_insert`, `BundleSet.lastOf_eq_some_iff`,
`BundleSet.ofList_append_perm`, `BundleSet.built_eq_ofList`,
`BundleSet.find?_built`.
-/
import Mathlib.Data.List.Induction
import WorkloadIdentity.Bundle.Set
import WorkloadIdentity.Proofs.Keyed

namespace WorkloadIdentity
namespace BundleSet

variable {β : Type}

/-! ### Changes -/

/-- What is done to a set of bundles. -/
inductive Change (β : Type) where
  | add (bundle : β)
  | extend (bundles : List β)
  /-- The set is made anew. -/
  | collect (bundles : List β)

/-- The bundles that have been added after a change, in order. -/
def addedBy (earlier : List β) : Change β → List β
  | .add bundle => earlier ++ [bundle]
  | .extend bundles => earlier ++ bundles
  | .collect bundles => bundles

/-- The bundles that were added since the set was last made anew, in order. -/
def added (changes : List (Change β)) : List β := changes.foldl addedBy []

variable [HasTrustDomain β]

/-- The set after a change. -/
def apply (set : BundleSet β) : Change β → BundleSet β
  | .add bundle => set.insert bundle
  | .extend bundles => set.extend bundles
  | .collect bundles => ofList bundles

/-- The set that changes make of the empty one. -/
def built (changes : List (Change β)) : BundleSet β := changes.foldl apply empty

/-- The last bundle of a trust domain among some in order. -/
def lastOf (td : TrustDomain) (bundles : List β) : Option β :=
  bundles.reverse.find? fun bundle => HasTrustDomain.trustDomain bundle = td

/-- The bundle of a trust domain that was added last, since the set was last
made anew. -/
def lastAdded (td : TrustDomain) (changes : List (Change β)) : Option β :=
  lastOf td (added changes)

/-! ### What a set holds -/

theorem find?_insert (set : BundleSet β) (bundle : β) (td : TrustDomain) :
    (set.insert bundle).find? td =
      if HasTrustDomain.trustDomain bundle = td then some bundle else set.find? td := by
  unfold insert find?
  rw [Keyed.find?_insert]
  have hname : (HasTrustDomain.trustDomain bundle).name = td.name ↔
      HasTrustDomain.trustDomain bundle = td := by
    rw [TrustDomain.mk.injEq]
  simp only [hname]

theorem extend_append (set : BundleSet β) (earlier later : List β) :
    set.extend (earlier ++ later) = (set.extend earlier).extend later := by
  unfold extend
  exact List.foldl_append

theorem find?_ofList_concat (bundles : List β) (bundle : β) (td : TrustDomain) :
    (ofList (bundles ++ [bundle])).find? td =
      if HasTrustDomain.trustDomain bundle = td then some bundle else (ofList bundles).find? td := by
  unfold ofList
  rw [extend_append]
  exact find?_insert _ _ _

/-- The set of a list holds the last bundle of each trust domain. -/
theorem find?_ofList (bundles : List β) (td : TrustDomain) :
    (ofList bundles).find? td = lastOf td bundles := by
  induction bundles using List.reverseRecOn with
  | nil => rfl
  | append_singleton bundles bundle ih =>
    rw [find?_ofList_concat, ih]
    unfold lastOf
    rw [List.reverse_append, List.reverse_singleton, List.singleton_append, List.find?_cons]
    by_cases h : HasTrustDomain.trustDomain bundle = td <;> simp [h]

/-! ### The set of a list -/

theorem sorted_extend : ∀ {set : BundleSet β} (bundles : List β), Keyed.Sorted set.entries →
    Keyed.Sorted (set.extend bundles).entries
  | _, [], h => h
  | _, _ :: bundles, h => sorted_extend bundles (Keyed.sorted_insert _ _ h)

theorem sorted_ofList (bundles : List β) : Keyed.Sorted (ofList bundles).entries :=
  sorted_extend bundles List.Pairwise.nil

/-- Sets of lists are equal if they hold the same bundle of each trust
domain. -/
theorem ofList_eq_ofList {xs ys : List β} (h : ∀ td, lastOf td xs = lastOf td ys) :
    ofList xs = ofList ys := by
  have hentries : (ofList xs).entries = (ofList ys).entries := by
    refine Keyed.eq_of_find?_eq (sorted_ofList xs) (sorted_ofList ys) fun name => ?_
    have hfind : (ofList xs).find? ⟨name⟩ = (ofList ys).find? ⟨name⟩ := by
      rw [find?_ofList, find?_ofList, h]
    exact hfind
  exact congrArg BundleSet.mk hentries

theorem lastOf_append (td : TrustDomain) (earlier later : List β) :
    lastOf td (earlier ++ later) = (lastOf td later).or (lastOf td earlier) := by
  unfold lastOf
  rw [List.reverse_append, List.find?_append]

theorem lastOf_eq_none_iff {td : TrustDomain} {bundles : List β} :
    lastOf td bundles = none ↔ ∀ bundle ∈ bundles, HasTrustDomain.trustDomain bundle ≠ td := by
  unfold lastOf
  simp

/-- The trust domains of a set are those of the bundles it is made of. -/
theorem mem_names_ofList {td : TrustDomain} {bundles : List β} :
    td.name ∈ (ofList bundles).names ↔
      ∃ bundle ∈ bundles, HasTrustDomain.trustDomain bundle = td := by
  have hfind : td.name ∈ (ofList bundles).names ↔
      ∃ bundle, (ofList bundles).find? td = some bundle := Keyed.mem_keys_iff_find?
  rw [hfind, find?_ofList, ← Option.ne_none_iff_exists', Ne, lastOf_eq_none_iff]
  push Not
  rfl

/-- The last bundle of a trust domain has only bundles of others behind it. -/
theorem lastOf_eq_some_iff {td : TrustDomain} {bundles : List β} {bundle : β} :
    lastOf td bundles = some bundle ↔ HasTrustDomain.trustDomain bundle = td ∧
      ∃ front back, bundles = front ++ bundle :: back ∧
        ∀ later ∈ back, HasTrustDomain.trustDomain later ≠ td := by
  constructor
  · intro h
    obtain ⟨htd, back, front, hsplit, hback⟩ := List.find?_eq_some_iff_append.mp h
    refine ⟨of_decide_eq_true htd, front.reverse, back.reverse, ?_, ?_⟩
    · have hbundles := congrArg List.reverse hsplit
      rw [List.reverse_reverse, List.reverse_append, List.reverse_cons, List.append_assoc,
        List.singleton_append] at hbundles
      exact hbundles
    · intro later hlater
      simpa using hback later (List.mem_reverse.mp hlater)
  · rintro ⟨htd, front, back, rfl, hback⟩
    have hcons : lastOf td (bundle :: back) = some bundle := by
      rw [← List.singleton_append, lastOf_append, lastOf_eq_none_iff.mpr hback]
      simp [lastOf, htd]
    rw [lastOf_append, hcons, Option.some_or]

/-- Of bundles of different trust domains, each is the last of its own. -/
theorem lastOf_eq_some_iff_mem {td : TrustDomain} {bundles : List β} {bundle : β}
    (hdifferent : bundles.Pairwise fun a b =>
      HasTrustDomain.trustDomain a ≠ HasTrustDomain.trustDomain b) :
    lastOf td bundles = some bundle ↔
      bundle ∈ bundles ∧ HasTrustDomain.trustDomain bundle = td := by
  rw [lastOf_eq_some_iff]
  constructor
  · rintro ⟨htd, front, back, rfl, -⟩
    exact ⟨List.mem_append_right _ List.mem_cons_self, htd⟩
  · rintro ⟨hmem, rfl⟩
    obtain ⟨front, back, rfl⟩ := List.append_of_mem hmem
    have hback := (List.pairwise_cons.mp (List.pairwise_append.mp hdifferent).2.1).1
    exact ⟨rfl, front, back, rfl, fun later hlater => (hback later hlater).symm⟩

/-- The set of bundles of different trust domains holds all of them. -/
theorem toList_ofList_perm {bundles : List β}
    (hdifferent : bundles.Pairwise fun a b =>
      HasTrustDomain.trustDomain a ≠ HasTrustDomain.trustDomain b) :
    (ofList bundles).toList.Perm bundles := by
  induction bundles using List.reverseRecOn with
  | nil => exact .refl _
  | append_singleton bundles bundle ih =>
    obtain ⟨hbefore, -, hlast⟩ := List.pairwise_append.mp hdifferent
    have hnew : (HasTrustDomain.trustDomain bundle).name ∉ (ofList bundles).names := by
      rw [mem_names_ofList]
      rintro ⟨earlier, hmem, htd⟩
      exact hlast earlier hmem bundle (List.mem_singleton_self _) htd
    have hstep : ofList (bundles ++ [bundle]) = (ofList bundles).insert bundle :=
      extend_append empty bundles [bundle]
    rw [hstep]
    have hadded : List.Perm ((ofList bundles).insert bundle).toList
        (bundle :: (ofList bundles).toList) := (Keyed.insert_perm hnew).map _
    exact hadded.trans (((ih hbefore).cons bundle).trans (List.perm_append_singleton _ _).symm)

/-- Bundles of different trust domains make the same set in any order, and so
they do behind others. -/
theorem ofList_append_perm (issued : List β) {xs ys : List β} (hperm : xs.Perm ys)
    (hdifferent : xs.Pairwise fun a b =>
      HasTrustDomain.trustDomain a ≠ HasTrustDomain.trustDomain b) :
    ofList (issued ++ xs) = ofList (issued ++ ys) := by
  refine ofList_eq_ofList fun td => ?_
  have hlast : lastOf td xs = lastOf td ys := by
    refine Option.ext fun bundle => ?_
    rw [lastOf_eq_some_iff_mem hdifferent,
      lastOf_eq_some_iff_mem (hperm.pairwise hdifferent fun h => h.symm), hperm.mem_iff]
  rw [lastOf_append, lastOf_append, hlast]

/-! ### Changes one after the other -/

/-- One change keeps the set that of the bundles that have been added. -/
theorem apply_ofList (earlier : List β) (change : Change β) :
    (ofList earlier).apply change = ofList (addedBy earlier change) := by
  cases change with
  | add bundle => exact (extend_append empty earlier [bundle]).symm
  | extend bundles => exact (extend_append empty earlier bundles).symm
  | collect bundles => rfl

theorem foldl_apply_ofList : ∀ (changes : List (Change β)) (earlier : List β),
    changes.foldl apply (ofList earlier) = ofList (changes.foldl addedBy earlier)
  | [], _ => rfl
  | change :: changes, earlier => by
    rw [List.foldl_cons, apply_ofList, foldl_apply_ofList changes, List.foldl_cons]

theorem built_eq_ofList (changes : List (Change β)) : built changes = ofList (added changes) :=
  foldl_apply_ofList changes []

/-- **A set holds what was added last.** -/
theorem find?_built (changes : List (Change β)) (td : TrustDomain) :
    (built changes).find? td = lastAdded td changes := by
  rw [built_eq_ofList, find?_ofList]
  rfl

end BundleSet
end WorkloadIdentity
