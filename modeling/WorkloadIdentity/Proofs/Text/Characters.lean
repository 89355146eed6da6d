/-
# Characters of texts

What a test says of every ASCII character, of every octet, or of every character
of an alphabet, is settled by one run over them (`forall_ascii`, `forall_octet`,
`forall_mem_of_all`).

A text is cut into the parts between the occurrences of a character, and parts
are joined with that character between them. The library has that the two are
inverse to each other; here is which characters the results hold: no part of a
text holds the separator (`not_mem_of_mem_splitOn`), and joined parts hold no
other characters than the separator and their own (`eq_or_mem_of_mem_intercalate`).

Key theorems: `forall_ascii`, `forall_octet`, `forall_mem_of_all`,
`not_mem_of_mem_splitOn`, `eq_or_mem_of_mem_intercalate`.
-/
import Mathlib.Data.List.Infix

namespace WorkloadIdentity

/-! ### One run over all of them -/

/-- A test that all ASCII characters pass, from one run over their codes. -/
theorem forall_ascii {p : Char → Bool} (h : (List.range 128).all (fun n => p (Char.ofNat n)) = true)
    {c : Char} (hc : c.toNat < 128) : p c = true := by
  have := List.all_eq_true.mp h c.toNat (List.mem_range.mpr hc)
  rwa [Char.ofNat_toNat] at this

/-- A test that all octets pass, likewise. -/
theorem forall_octet {p : UInt8 → Bool} (h : (List.range 256).all (fun n => p (UInt8.ofNat n)) = true)
    (b : UInt8) : p b = true := by
  have := List.all_eq_true.mp h b.toNat (List.mem_range.mpr b.toNat_lt)
  rwa [UInt8.ofNat_toNat] at this

/-- What all characters of an alphabet satisfy, from one run over it. -/
theorem forall_mem_of_all {alphabet : List Char} {p : Char → Prop} [DecidablePred p]
    (h : alphabet.all (fun c => decide (p c)) = true) : ∀ c ∈ alphabet, p c := fun c hc =>
  of_decide_eq_true (List.all_eq_true.mp h c hc)

theorem toNat_lt_of_isAlphanum {c : Char} (h : c.isAlphanum = true) : c.toNat < 128 := by
  have hle : ∀ {d : Char}, c.val ≤ d.val → d.toNat < 128 → c.toNat < 128 := fun h hd =>
    Nat.lt_of_le_of_lt (UInt32.le_iff_toNat_le.mp h) hd
  have hcases : ((c.isUpper || c.isLower) || c.isDigit) = true := h
  simp only [Bool.or_eq_true] at hcases
  rcases hcases with (hupper | hlower) | hdigit
  · have hrange : c.val ≥ 'A'.val ∧ c.val ≤ 'Z'.val := of_decide_eq_true hupper
    exact hle hrange.2 (by decide)
  · have hrange : (decide (c.val ≥ 'a'.val) && decide (c.val ≤ 'z'.val)) = true := hlower
    exact hle (of_decide_eq_true (Bool.and_eq_true_iff.mp hrange).2) (by decide)
  · have hrange : (decide (c.val ≥ '0'.val) && decide (c.val ≤ '9'.val)) = true := hdigit
    exact hle (of_decide_eq_true (Bool.and_eq_true_iff.mp hrange).2) (by decide)

/-! ### Separators -/

theorem not_mem_of_mem_splitOn (c : Char) : ∀ (s : List Char), ∀ part ∈ s.splitOn c, c ∉ part
  | [], part, h => by
    rw [List.splitOn_nil, List.mem_singleton] at h
    simp [h]
  | d :: s, part, h => by
    have ih := not_mem_of_mem_splitOn c s
    rw [List.splitOn_cons_eq_if_modifyHead] at h
    obtain ⟨first, rest, hs⟩ := List.exists_cons_of_ne_nil (List.splitOn_ne_nil c s)
    rw [hs, List.forall_mem_cons] at ih
    rw [hs] at h
    split at h
    · rcases List.mem_cons.mp h with rfl | h
      · exact List.not_mem_nil
      rcases List.mem_cons.mp h with rfl | h
      · exact ih.1
      · exact ih.2 part h
    · rename_i hd
      rw [List.modifyHead_cons] at h
      rcases List.mem_cons.mp h with rfl | h
      · -- `d` is put before a part that has no `c`
        rw [List.mem_cons, not_or]
        exact ⟨fun hc => hd (by simp [hc]), ih.1⟩
      · exact ih.2 part h

theorem eq_or_mem_of_mem_intercalate {sep c : Char} : ∀ {parts : List (List Char)},
    c ∈ [sep].intercalate parts → c = sep ∨ ∃ part ∈ parts, c ∈ part
  | [], hc => by simp at hc
  | [part], hc => .inr ⟨part, by simp, by simpa using hc⟩
  | part :: next :: rest, hc => by
    rw [List.intercalate_cons_cons, List.append_assoc, List.mem_append, List.singleton_append,
      List.mem_cons] at hc
    rcases hc with hc | rfl | hc
    · exact .inr ⟨part, by simp, hc⟩
    · exact .inl rfl
    · obtain rfl | ⟨other, hother, hc⟩ := eq_or_mem_of_mem_intercalate hc
      · exact .inl rfl
      · exact .inr ⟨other, List.mem_cons_of_mem part hother, hc⟩

end WorkloadIdentity
