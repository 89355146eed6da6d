/-
# Escapes

A text is written under a set with some of its characters as escapes: a percent sign and the two
digits of each octet. The percent sign and digits are in no set, so nothing is left to escape
(`Percent.isEscaped_encode`), and a text with nothing to escape is written as it is
(`Percent.encode_of_isEscaped`, `Percent.encode_eq_self_iff`).

Reading the escapes gives the octets of the text back (`Percent.decode_encode`), unless the text has
a percent sign of its own, which is left as it is and may be taken for that of an escape.

Key definitions: `Percent.IsEscaped`.
Key theorems: `Percent.isEscaped_encode`, `Percent.encode_of_isEscaped`, `Percent.decode_encode`.
-/
import WorkloadIdentity.Url.Percent
import WorkloadIdentity.Proofs.Text.Characters
import WorkloadIdentity.Proofs.Text.Utf8

namespace WorkloadIdentity
namespace Percent

/-- No character of the text has to be escaped under the set. -/
def IsEscaped (set : Char → Bool) (s : List Char) : Prop :=
  ∀ c ∈ s, c.toNat < 0x80 ∧ set c = false

instance (set : Char → Bool) (s : List Char) : Decidable (IsEscaped set s) :=
  List.decidableBAll (fun c : Char => c.toNat < 0x80 ∧ set c = false) s

/-- The characters that escapes are written with. -/
def escapeAlphabet : List Char := '%' :: Hex.upperDigits

theorem mem_escapeAlphabet_of_mem_octet {b : UInt8} {c : Char} (hc : c ∈ octet b) :
    c ∈ escapeAlphabet := by
  have hall := forall_octet (p := fun b => (octet b).all escapeAlphabet.contains)
    (by decide +kernel) b
  simpa using List.all_eq_true.mp hall c hc

/-- A character is written as itself, or as an escape. -/
theorem encodeChar_cases (set : Char → Bool) (c : Char) :
    (c.toNat < 0x80 ∧ set c = false ∧ encodeChar set c = [c]) ∨
      (encodeChar set c ≠ [] ∧ ∀ d ∈ encodeChar set c, d ∈ escapeAlphabet) := by
  unfold encodeChar
  split
  · next h =>
    simp only [Bool.and_eq_true, decide_eq_true_eq, Bool.not_eq_true'] at h
    exact .inl ⟨h.1, h.2, rfl⟩
  · refine .inr ⟨?_, fun d hd => ?_⟩
    · obtain ⟨b, bs, hb⟩ := List.exists_cons_of_ne_nil (String.utf8EncodeChar_ne_nil (c := c))
      simp [Utf8.encodeChar, hb, octet]
    · obtain ⟨b, -, hd⟩ := List.mem_flatMap.mp hd
      exact mem_escapeAlphabet_of_mem_octet hd

theorem encode_ne_nil {set : Char → Bool} {s : List Char} (h : s ≠ []) : encode set s ≠ [] := by
  obtain ⟨c, s, rfl⟩ := List.exists_cons_of_ne_nil h
  have hchar : encodeChar set c ≠ [] := by
    rcases encodeChar_cases set c with ⟨-, -, heq⟩ | ⟨hne, -⟩
    · rw [heq]
      exact List.cons_ne_nil c []
    · exact hne
  exact List.append_ne_nil_of_left_ne_nil hchar _

theorem mem_encode {set : Char → Bool} {s : List Char} {c : Char} (hc : c ∈ encode set s) :
    (c ∈ s ∧ c.toNat < 0x80 ∧ set c = false) ∨ c ∈ escapeAlphabet := by
  obtain ⟨d, hd, hc⟩ := List.mem_flatMap.mp hc
  rcases encodeChar_cases set d with ⟨hascii, hset, heq⟩ | ⟨-, hescape⟩
  · rw [heq, List.mem_singleton] at hc
    subst hc
    exact .inl ⟨hd, hascii, hset⟩
  · exact .inr (hescape c hc)

theorem mem_head?_encode {set : Char → Bool} {s : List Char} {c : Char}
    (hc : c ∈ (encode set s).head?) : c ∈ s.head? ∨ c ∈ escapeAlphabet := by
  cases s with
  | nil => cases hc
  | cons d s =>
    rw [encode, List.flatMap_cons] at hc
    rcases encodeChar_cases set d with ⟨-, -, heq⟩ | ⟨hne, hescape⟩
    · rw [heq] at hc
      exact .inl hc
    · rw [List.head?_append_of_ne_nil _ hne] at hc
      exact .inr (hescape c (List.mem_of_mem_head? hc))

theorem mem_getLast?_encode {set : Char → Bool} {s : List Char} {c : Char}
    (hc : c ∈ (encode set s).getLast?) : c ∈ s.getLast? ∨ c ∈ escapeAlphabet := by
  rcases List.eq_nil_or_concat s with rfl | ⟨s, d, rfl⟩
  · cases hc
  · rw [encode, List.concat_eq_append, List.flatMap_append, List.flatMap_singleton] at hc
    rcases encodeChar_cases set d with ⟨-, -, heq⟩ | ⟨hne, hescape⟩
    · rw [heq, List.getLast?_concat] at hc
      exact .inl (by simpa using hc)
    · rw [List.getLast?_append_of_ne_nil _ hne] at hc
      exact .inr (hescape c (List.mem_of_getLast? hc))

/-- Escaping leaves nothing to escape. -/
theorem isEscaped_encode {set : Char → Bool} (hset : escapeAlphabet.all (!set ·) = true)
    (s : List Char) : IsEscaped set (encode set s) := by
  have hascii : ∀ c ∈ escapeAlphabet, c.toNat < 0x80 := forall_mem_of_all (by decide +kernel)
  intro c hc
  rcases mem_encode hc with ⟨-, hc⟩ | hc
  · exact hc
  · exact ⟨hascii c hc, by simpa using List.all_eq_true.mp hset c hc⟩

/-- A text with nothing to escape is written as it is. -/
theorem encode_of_isEscaped {set : Char → Bool} {s : List Char} (hs : IsEscaped set s) :
    encode set s = s := by
  induction s with
  | nil => rfl
  | cons c s ih =>
    obtain ⟨hc, hs⟩ := List.forall_mem_cons.mp hs
    show encodeChar set c ++ encode set s = c :: s
    rw [ih hs, encodeChar, if_pos (by simp [hc])]
    rfl

/-- Only a text with nothing to escape is written as it is. -/
theorem encode_eq_self_iff {set : Char → Bool} (hset : escapeAlphabet.all (!set ·) = true)
    {s : List Char} : encode set s = s ↔ IsEscaped set s := by
  refine ⟨fun h => ?_, encode_of_isEscaped⟩
  rw [← h]
  exact isEscaped_encode hset s

theorem encode_append (set : Char → Bool) (s t : List Char) :
    encode set (s ++ t) = encode set s ++ encode set t := List.flatMap_append

theorem encode_cons (set : Char → Bool) (c : Char) (s : List Char) :
    encode set (c :: s) = encodeChar set c ++ encode set s := rfl

/-- Parts are escaped one by one, if what stands between them is no character of the set. -/
theorem encode_intercalate {set : Char → Bool} {sep : Char} (hsep : encodeChar set sep = [sep]) :
    ∀ parts : List (List Char),
      encode set ([sep].intercalate parts) = [sep].intercalate (parts.map (encode set))
  | [] => rfl
  | [part] => by simp
  | part :: next :: rest => by
    have ih := encode_intercalate hsep (next :: rest)
    rw [List.map_cons] at ih
    rw [List.intercalate_cons_cons, List.map_cons, List.map_cons, List.intercalate_cons_cons,
      encode_append, encode_append, ih, encode_cons, hsep]
    rfl

/-! ### Reading escapes -/

theorem value?_octet (b : UInt8) :
    Hex.value? (Hex.upperDigits.getD (b.toNat / 16) '0') = some (b.toNat / 16) ∧
      Hex.value? (Hex.upperDigits.getD (b.toNat % 16) '0') = some (b.toNat % 16) := by
  have htest := forall_octet (p := fun b =>
    Hex.value? (Hex.upperDigits.getD (b.toNat / 16) '0') == some (b.toNat / 16) &&
      Hex.value? (Hex.upperDigits.getD (b.toNat % 16) '0') == some (b.toNat % 16))
    (by decide +kernel) b
  simpa using htest

/-- An escape is read as its octet. -/
theorem decode_octet_append (b : UInt8) (rest : List Char) :
    decode (octet b ++ rest) = b :: decode rest := by
  obtain ⟨hhigh, hlow⟩ := value?_octet b
  have hvalue : UInt8.ofNat (b.toNat / 16 * 16 + b.toNat % 16) = b := by
    rw [Nat.div_add_mod' b.toNat 16, UInt8.ofNat_toNat]
  simp only [octet, Hex.octet, List.cons_append, List.nil_append, decode, hhigh, hlow, hvalue]

theorem decode_octets_append (bytes : Bytes) (rest : List Char) :
    decode (bytes.flatMap octet ++ rest) = bytes ++ decode rest := by
  induction bytes with
  | nil => rfl
  | cons b bytes ih =>
    rw [List.flatMap_cons, List.append_assoc, decode_octet_append, ih, List.cons_append]

/-- A character other than the percent sign is read as its octets. -/
theorem decode_cons_of_ne {c : Char} (hc : c ≠ '%') (rest : List Char) :
    decode (c :: rest) = Utf8.encodeChar c ++ decode rest := by
  rw [decode]
  rintro a b rest rfl
  exact absurd rfl hc

theorem decode_encodeChar_append (set : Char → Bool) {c : Char} (hc : c ≠ '%')
    (rest : List Char) :
    decode (encodeChar set c ++ rest) = Utf8.encodeChar c ++ decode rest := by
  unfold encodeChar
  split
  · exact decode_cons_of_ne hc rest
  · exact decode_octets_append _ rest

/-- **A text without percent signs is read back from its escapes.** -/
theorem decode_encode (set : Char → Bool) {s : List Char} (hs : '%' ∉ s) :
    decode (encode set s) = Utf8.encode (String.ofList s) := by
  rw [Utf8.encode_eq_flatMap, String.toList_ofList]
  induction s with
  | nil => rfl
  | cons c s ih =>
    rw [List.mem_cons, not_or] at hs
    rw [encode_cons, decode_encodeChar_append set (Ne.symm hs.1), ih hs.2, List.flatMap_cons]

end Percent
end WorkloadIdentity
