/-
# What entries are found, and in which order

Inserting changes what is found under the key that is inserted and under no
other (`Keyed.find?_insert`), whatever the order of the entries. What is
inserted into nothing is sorted (`Keyed.Sorted`), and entries in order are
determined by what is found under each key (`Keyed.eq_of_find?_eq`), so that
`distinct` says no more of a list than which texts are in it
(`distinct_eq_distinct_iff`).

Key definitions: `Keyed.Sorted`.
Key theorems: `Keyed.find?_insert`, `Keyed.find?_ofList`, `Keyed.insert_perm`,
`Keyed.sorted_insertAll`, `Keyed.ofList_of_sorted`, `Keyed.eq_of_find?_eq`,
`mem_distinct`, `distinct_eq_distinct_iff`.
-/
import Mathlib.Data.List.Perm.Basic
import Mathlib.Data.List.Sort
import Mathlib.Data.String.Basic
import WorkloadIdentity.Keyed

namespace WorkloadIdentity

variable {α : Type}

theorem getLast?_cons_eq_or (x : α) (xs : List α) :
    (x :: xs).getLast? = xs.getLast?.or (some x) := by
  rw [List.getLast?_cons]
  cases xs.getLast? <;> rfl

namespace Keyed

/-! ### Finding -/

/-- **An insertion changes one key.** -/
theorem find?_insert (key k : String) (value : α) : ∀ entries : Keyed α,
    find? k (insert key value entries) = if key = k then some value else find? k entries
  | [] => rfl
  | (k', v) :: rest => by
    have ih := find?_insert key k value rest
    unfold insert
    split
    · rfl
    split
    · rename_i hk
      subst hk
      simp only [find?]
      split <;> rfl
    · rename_i hk
      simp only [find?, ih]
      -- under `k'` the entry in front is found, and `key` is another one
      by_cases hk' : k' = k
      · simp only [hk', if_true]
        rw [if_neg (hk' ▸ hk)]
      · simp only [hk', if_false]

/-- The last entry of a key is found. -/
theorem find?_insertAll (key : String) : ∀ (more entries : Keyed α),
    find? key (insertAll entries more) =
      (((more.filter fun entry => entry.1 = key).getLast?).map (·.2)).or (find? key entries)
  | [], _ => rfl
  | (k, v) :: more, entries => by
    have hstep : insertAll entries ((k, v) :: more) = insertAll (insert k v entries) more := rfl
    rw [hstep, find?_insertAll key more, find?_insert, List.filter_cons]
    by_cases hk : k = key
    · simp only [hk, decide_true, if_true, getLast?_cons_eq_or]
      cases (more.filter fun entry => entry.1 = key).getLast? <;> rfl
    · simp only [hk, decide_false, Bool.false_eq_true, if_false]

theorem find?_ofList (key : String) (entries : List (String × α)) :
    find? key (ofList entries) =
      ((entries.filter fun entry => entry.1 = key).getLast?).map (·.2) := by
  unfold ofList
  rw [find?_insertAll, find?, Option.or_none]

/-! ### Order -/

/-- The keys strictly increase. -/
def Sorted (entries : Keyed α) : Prop := (entries.map (·.1)).Pairwise (· < ·)

theorem mem_keys_insert {key k : String} {value : α} : ∀ {entries : Keyed α},
    k ∈ (insert key value entries).map (·.1) ↔ k = key ∨ k ∈ entries.map (·.1)
  | [] => by simp [insert]
  | (k', v) :: rest => by
    have ih := @mem_keys_insert key k value rest
    unfold insert
    split
    · simp
    split
    · rename_i hk
      simp [hk]
    · rw [List.map_cons, List.mem_cons, ih, List.map_cons, List.mem_cons]
      tauto

theorem sorted_insert (key : String) (value : α) : ∀ {entries : Keyed α}, Sorted entries →
    Sorted (insert key value entries)
  | [], _ => List.pairwise_singleton _ _
  | (k', v) :: rest, h => by
    have hrest : ∀ k ∈ rest.map (·.1), k' < k := (List.pairwise_cons.mp h).1
    unfold insert
    split
    · rename_i hlt
      refine List.pairwise_cons.mpr ⟨?_, h⟩
      intro k hk
      rcases List.mem_cons.mp hk with rfl | hk
      · exact hlt
      · exact lt_trans hlt (hrest k hk)
    split
    · rename_i hk
      subst hk
      exact h
    · rename_i hlt hk
      refine List.pairwise_cons.mpr ⟨?_, sorted_insert key value (List.pairwise_cons.mp h).2⟩
      intro k hmem
      rcases mem_keys_insert.mp hmem with rfl | hmem
      · exact lt_of_le_of_ne (not_lt.mp hlt) (Ne.symm hk)
      · exact hrest k hmem

/-- A new key adds its entry and leaves the others. -/
theorem insert_perm {key : String} {value : α} : ∀ {entries : Keyed α},
    key ∉ entries.map (·.1) → (insert key value entries).Perm ((key, value) :: entries)
  | [], _ => .refl _
  | (k, v) :: rest, h => by
    rw [List.map_cons, List.mem_cons, not_or] at h
    unfold insert
    split
    · exact .refl _
    rw [if_neg h.1]
    exact ((insert_perm h.2).cons (k, v)).trans (.swap _ _ _)

/-- Entries of different keys are all inserted. -/
theorem insertAll_perm : ∀ {entries : Keyed α} {more : List (String × α)},
    ((entries ++ more).map (·.1)).Nodup → (insertAll entries more).Perm (entries ++ more)
  | entries, [], _ => by
    rw [List.append_nil]
    exact .refl _
  | entries, (key, value) :: more, h => by
    have hmoved : (entries ++ (key, value) :: more).Perm ((key, value) :: entries ++ more) :=
      List.perm_middle
    have hnew : key ∉ entries.map (·.1) := by
      have hnodup := (hmoved.map (·.1)).nodup_iff.mp h
      rw [List.cons_append, List.map_cons, List.nodup_cons, List.map_append, List.mem_append,
        not_or] at hnodup
      exact hnodup.1.1
    have hstep : insertAll entries ((key, value) :: more) =
        insertAll (insert key value entries) more := rfl
    have hperm : (insert key value entries ++ more).Perm (entries ++ (key, value) :: more) :=
      ((insert_perm hnew).append_right more).trans hmoved.symm
    rw [hstep]
    exact (insertAll_perm ((hperm.map (·.1)).nodup_iff.mpr h)).trans hperm

theorem ofList_perm {entries : List (String × α)} (h : (entries.map (·.1)).Nodup) :
    (ofList entries).Perm entries := insertAll_perm h

theorem sorted_insertAll : ∀ {entries : Keyed α} (more : List (String × α)), Sorted entries →
    Sorted (insertAll entries more)
  | _, [], h => h
  | _, (k, v) :: more, h => sorted_insertAll more (sorted_insert k v h)

theorem sorted_ofList (entries : List (String × α)) : Sorted (ofList entries) :=
  sorted_insertAll entries List.Pairwise.nil

theorem mem_keys_insertAll {k : String} : ∀ {entries : Keyed α} {more : List (String × α)},
    k ∈ (insertAll entries more).map (·.1) ↔ k ∈ entries.map (·.1) ∨ k ∈ more.map (·.1)
  | _, [] => by simp [insertAll]
  | entries, (key, value) :: more => by
    have ih := @mem_keys_insertAll k (insert key value entries) more
    have hstep : insertAll entries ((key, value) :: more) =
        insertAll (insert key value entries) more := rfl
    rw [hstep, ih, mem_keys_insert, List.map_cons, List.mem_cons]
    tauto

theorem mem_of_mem_insert {key : String} {value : α} {entry : String × α} :
    ∀ {entries : Keyed α}, entry ∈ insert key value entries → entry = (key, value) ∨ entry ∈ entries
  | [], h => .inl (List.mem_singleton.mp h)
  | (k, v) :: rest, h => by
    unfold insert at h
    split at h
    · exact List.mem_cons.mp h
    split at h
    · exact (List.mem_cons.mp h).imp_right (List.mem_cons_of_mem _)
    · rcases List.mem_cons.mp h with rfl | h
      · exact .inr List.mem_cons_self
      · exact (mem_of_mem_insert h).imp_right (List.mem_cons_of_mem _)

/-- Inserting makes up no entries. -/
theorem mem_of_mem_insertAll {entry : String × α} : ∀ {entries : Keyed α}
    {more : List (String × α)}, entry ∈ insertAll entries more → entry ∈ entries ∨ entry ∈ more
  | _, [], h => .inl h
  | entries, (key, value) :: more, h => by
    have hstep : insertAll entries ((key, value) :: more) =
        insertAll (insert key value entries) more := rfl
    rw [hstep] at h
    rcases mem_of_mem_insertAll h with h | h
    · rcases mem_of_mem_insert h with rfl | h
      · exact .inr List.mem_cons_self
      · exact .inl h
    · exact .inr (List.mem_cons_of_mem _ h)

theorem mem_of_mem_ofList {entry : String × α} {entries : List (String × α)}
    (h : entry ∈ ofList entries) : entry ∈ entries :=
  (mem_of_mem_insertAll h).resolve_left (List.not_mem_nil)

/-- An entry with the greatest key comes last. -/
theorem insert_last {key : String} {value : α} : ∀ {entries : Keyed α},
    (∀ k ∈ entries.map (·.1), k < key) → insert key value entries = entries ++ [(key, value)]
  | [], _ => rfl
  | (k, v) :: rest, h => by
    have hk : k < key := h k List.mem_cons_self
    have hrest : insert key value rest = rest ++ [(key, value)] :=
      insert_last fun k' hk' => h k' (List.mem_cons_of_mem _ hk')
    unfold insert
    rw [if_neg (lt_asymm hk), if_neg (ne_of_gt hk), hrest, List.cons_append]

theorem insertAll_of_sorted : ∀ {entries more : Keyed α}, Sorted (entries ++ more) →
    insertAll entries more = entries ++ more
  | entries, [], _ => (List.append_nil entries).symm
  | entries, (key, value) :: more, h => by
    have hbefore : ∀ k ∈ entries.map (·.1), k < key := by
      unfold Sorted at h
      rw [List.map_append] at h
      exact fun k hk => (List.pairwise_append.mp h).2.2 k hk key List.mem_cons_self
    have hstep : insertAll entries ((key, value) :: more) =
        insertAll (insert key value entries) more := rfl
    rw [List.append_cons] at h ⊢
    rw [hstep, insert_last hbefore, insertAll_of_sorted h]

/-- **Entries in order are put in order as they are.** -/
theorem ofList_of_sorted {entries : Keyed α} (h : Sorted entries) : ofList entries = entries :=
  insertAll_of_sorted h

/-! ### What is found and what there is -/

theorem mem_keys_iff_find? {k : String} : ∀ {entries : Keyed α},
    k ∈ entries.map (·.1) ↔ ∃ value, find? k entries = some value
  | [] => by simp [find?]
  | (k', v) :: rest => by
    have ih := @mem_keys_iff_find? k rest
    rw [List.map_cons, List.mem_cons, ih, find?]
    by_cases hk : k' = k
    · simp [hk]
    · simp [hk, Ne.symm hk]

theorem find?_eq_some_iff_mem {key : String} {value : α} : ∀ {entries : Keyed α}, Sorted entries →
    (find? key entries = some value ↔ (key, value) ∈ entries)
  | [], _ => by simp [find?]
  | (k, v) :: rest, h => by
    obtain ⟨hfirst, hrest⟩ := List.pairwise_cons.mp h
    have ih := @find?_eq_some_iff_mem key value rest hrest
    rw [find?]
    by_cases hk : k = key
    · subst hk
      have hother : (k, value) ∉ rest := fun hmem =>
        lt_irrefl k (hfirst k (List.mem_map_of_mem hmem))
      simp [hother, eq_comm]
    · simp [hk, Ne.symm hk, ih]

/-- In order, there is one entry of a key or none. -/
theorem filter_of_sorted (key : String) : ∀ {entries : Keyed α}, Sorted entries →
    (entries.filter fun entry => entry.1 == key) =
      ((find? key entries).map fun value => (key, value)).toList
  | [], _ => rfl
  | (k, v) :: rest, h => by
    obtain ⟨hfirst, hrest⟩ := List.pairwise_cons.mp h
    have ih := filter_of_sorted key hrest
    rw [List.filter_cons, ih, find?]
    by_cases hk : k = key
    · subst hk
      have hnone : find? k rest = none := by
        refine Option.eq_none_iff_forall_ne_some.mpr fun value hvalue => ?_
        have hmem := (find?_eq_some_iff_mem hrest).mp hvalue
        exact lt_irrefl k (hfirst k (List.mem_map_of_mem hmem))
      simp [hnone]
    · simp [hk]

/-- **Entries in order are what is found under each key.** -/
theorem eq_of_find?_eq {xs ys : Keyed α} (hx : Sorted xs) (hy : Sorted ys)
    (h : ∀ key, find? key xs = find? key ys) : xs = ys := by
  have hperm : xs.Perm ys := by
    rw [List.perm_ext_iff_of_nodup (List.Nodup.of_map _ (hx.imp ne_of_lt))
      (List.Nodup.of_map _ (hy.imp ne_of_lt))]
    rintro ⟨key, value⟩
    rw [← find?_eq_some_iff_mem hx, ← find?_eq_some_iff_mem hy, h]
  exact hperm.eq_of_pairwise (fun a b _ _ hab hba => absurd hab (lt_asymm hba))
    (List.pairwise_map.mp hx) (List.pairwise_map.mp hy)

end Keyed

/-! ### Different texts -/

theorem mem_distinct {text : String} {texts : List String} :
    text ∈ distinct texts ↔ text ∈ texts := by
  unfold distinct Keyed.ofList
  rw [Keyed.mem_keys_insertAll]
  simp

theorem sorted_distinct (texts : List String) : (distinct texts).Pairwise (· < ·) :=
  Keyed.sorted_ofList _

/-- **Lists of the same texts have the same different texts.** -/
theorem distinct_eq_distinct_iff {xs ys : List String} :
    distinct xs = distinct ys ↔ ∀ text, text ∈ xs ↔ text ∈ ys := by
  constructor
  · intro h text
    rw [← mem_distinct, h, mem_distinct]
  · intro h
    have hx := sorted_distinct xs
    have hy := sorted_distinct ys
    have hperm : (distinct xs).Perm (distinct ys) := by
      rw [List.perm_ext_iff_of_nodup (hx.imp ne_of_lt) (hy.imp ne_of_lt)]
      intro text
      rw [mem_distinct, mem_distinct, h]
    exact hperm.eq_of_pairwise (fun a b _ _ hab hba => absurd hab (lt_asymm hba)) hx hy

end WorkloadIdentity
