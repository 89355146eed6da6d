/-
# Where the numbers of a text stand

Every number of a value, however deep inside, is what a numeral in the text of the value
stands for (`Json.Spells.hasNumeral`); what may follow the text may follow the numeral where
it stands, so a reader that starts there reads it (`Json.isWritten_of_parseText`).

Key definitions: `Json.Numeral.StandsIn`, `Json.IsWritten`, `Json.Holds`, `Json.HasNumeral`.
Key theorems: `Json.isSane_of_standsIn`, `Json.Spells.hasNumeral`, `Json.isWritten_of_parseText`.
-/
import WorkloadIdentity.Proofs.Json.Grammar
import WorkloadIdentity.Proofs.Json.Number
import WorkloadIdentity.Proofs.Keyed

namespace WorkloadIdentity
namespace Json

/-- A part of the text starts with the numeral. -/
def Numeral.StandsIn (t : Numeral) (text : List Char) : Prop :=
  ∃ part rest, part <:+ text ∧ readNumeral part = some (t, rest)

/-- The number is the reading of a numeral in the text. -/
def IsWritten (n : Number) (text : List Char) : Prop :=
  ∃ t : Numeral, t.StandsIn text ∧ t.value? = some n

/-- The number is the value or a part of it. -/
inductive Holds : Json → Number → Prop where
  | self (n : Number) : Holds (number n) n
  | item {items : List Json} {value : Json} {n : Number} :
      value ∈ items → Holds value n → Holds (array items) n
  | member {members : Keyed Json} {name : String} {value : Json} {n : Number} :
      Keyed.find? name members = some value → Holds value n → Holds (object members) n

/-! ### Numerals -/

theorem WritesDigits.lt_ten {text : List Char} {values : List Nat} (h : WritesDigits text values) :
    ∀ d ∈ values, d < 10 := by
  intro d hd
  rw [h.values] at hd
  obtain ⟨c, hc, rfl⟩ := List.mem_map.mp hd
  have hrange := Char.isDigit_iff_toNat.mp (h.digits c hc)
  have hzero : '0'.toNat = 48 := rfl
  have hnine : '9'.toNat = 57 := rfl
  unfold digitValue
  omega

/-- A numeral is of decimal digits, no more of them than its text has characters. -/
theorem WritesNumeral.isSane {text : List Char} {t : Numeral} (h : WritesNumeral text t)
    (hlength : text.length < 2 ^ 30) : t.IsSane := by
  cases h with
  | @parts negative whole fraction exponent values _ _ hwhole _ hfraction _ =>
    constructor
    case whole => exact hwhole.lt_ten
    case fraction =>
      cases hfraction with
      | missing =>
        intro d hd
        cases hd
      | point hdigits => exact hdigits.lt_ten
    case length =>
      simp only [List.length_append] at hlength
      simp only [hwhole.values, List.length_map]
      omega

/-- A numeral in a text that is not billions of characters long. -/
theorem isSane_of_standsIn {t : Numeral} {text : List Char} (h : t.StandsIn text)
    (hlength : text.length < 2 ^ 30) : t.IsSane := by
  obtain ⟨part, rest, hpart, hread⟩ := h
  obtain ⟨core, rfl, ht⟩ := exists_writesNumeral hread
  have hle := hpart.length_le
  rw [List.length_append] at hle
  exact ht.isSane (by omega)

/-! ### Values -/

variable {means : Numeral → Number → Prop} {n : Number}

/-- A numeral with that meaning is in the text, and what may follow the text may follow it. -/
def HasNumeral (means : Numeral → Number → Prop) (n : Number) (text : List Char) : Prop :=
  ∃ before core after t, text = before ++ (core ++ after) ∧ WritesNumeral core t ∧ means t n ∧
    ∀ rest, Ends rest → Ends (after ++ rest)

theorem HasNumeral.prepend {text : List Char} (h : HasNumeral means n text) (front : List Char) :
    HasNumeral means n (front ++ text) := by
  obtain ⟨before, core, after, t, rfl, ht, hn, hends⟩ := h
  exact ⟨front ++ before, core, after, t, by simp, ht, hn, hends⟩

theorem HasNumeral.append {text more : List Char} (h : HasNumeral means n text)
    (hmore : ∀ rest, Ends rest → Ends (more ++ rest)) : HasNumeral means n (text ++ more) := by
  obtain ⟨before, core, after, t, rfl, ht, hn, hends⟩ := h
  refine ⟨before, core, after ++ more, t, by simp, ht, hn, fun rest hrest => ?_⟩
  rw [List.append_assoc]
  exact hends _ (hmore rest hrest)

theorem HasNumeral.append_cons {text : List Char} (h : HasNumeral means n text) {c : Char}
    (hc : c ∈ delimiters) (more : List Char) : HasNumeral means n (text ++ c :: more) :=
  h.append fun _ _ => ends_cons hc

theorem HasNumeral.padded {core text : List Char} (h : HasNumeral means n core)
    (hpad : Padded core text) : HasNumeral means n text := by
  obtain ⟨before, after, -, hafter, rfl⟩ := hpad
  exact (h.append fun _ hrest => hafter.ends hrest).prepend before

/-- The number is in the part. -/
def Part.Holds : Part → Number → Prop
  | value v, n => Json.Holds v n
  | items vs, n => ∃ v ∈ vs, Json.Holds v n
  | members entries, n => ∃ entry ∈ entries, Json.Holds entry.2 n

/-- **Every number that is spelled has its numeral.** -/
theorem Spells.hasNumeral {d : Nat} {text : List Char} {part : Part} (h : Spells means d text part)
    (hn : part.Holds n) : HasNumeral means n text := by
  induction h with
  | null => cases hn
  | yes => cases hn
  | no => cases hn
  | number ht hmeans =>
    cases hn with
    | self => exact ⟨[], _, [], _, by simp, ht, hmeans, fun _ hrest => hrest⟩
  | string => cases hn
  | noItems =>
    cases hn with
    | item hitem => cases hitem
  | array _ ih =>
    cases hn with
    | item hitem hn => exact ((ih ⟨_, hitem, hn⟩).append_cons (by decide) []).prepend ['[']
  | noMembers =>
    cases hn with
    | member hfind => cases hfind
  | object _ ih =>
    cases hn with
    | member hfind hn =>
      have hentry := Keyed.mem_of_mem_ofList
        ((Keyed.find?_eq_some_iff_mem (Keyed.sorted_ofList _)).mp hfind)
      exact ((ih ⟨_, hentry, hn⟩).append_cons (by decide) []).prepend ['\x7b']
  | lastItem _ hpad ih =>
    obtain ⟨v, hv, hn⟩ := hn
    rw [List.mem_singleton.mp hv] at hn
    exact (ih hn).padded hpad
  | item _ hpad _ ih ihmore =>
    obtain ⟨v, hv, hn⟩ := hn
    rcases List.mem_cons.mp hv with rfl | hv
    · exact ((ih hn).padded hpad).append_cons (by decide) _
    · rw [List.append_cons]
      exact (ihmore ⟨v, hv, hn⟩).prepend _
  | lastMember _ _ _ hpad ih =>
    obtain ⟨entry, hentry, hn⟩ := hn
    rw [List.mem_singleton.mp hentry] at hn
    rw [List.append_cons]
    exact ((ih hn).padded hpad).prepend _
  | @member _ _ _ _ text more _ _ _ _ _ _ hpad _ ih ihmore =>
    obtain ⟨entry, hentry, hn⟩ := hn
    rw [List.append_cons]
    rcases List.mem_cons.mp hentry with rfl | hentry
    · exact (((ih hn).padded hpad).append_cons (by decide) _).prepend _
    · rw [List.append_cons text]
      exact ((ihmore ⟨entry, hentry, hn⟩).prepend _).prepend _

/-- **Every number of a value stands in its text.** -/
theorem isWritten_of_parseText {text : List Char} {value : Json} {n : Number}
    (h : parseText text = some value) (hn : Holds value n) : IsWritten n text := by
  obtain ⟨core, hpad, hspells⟩ := parseText_eq_some_iff.mp h
  obtain ⟨before, numeral, after, t, rfl, ht, hmeans, hends⟩ := (hspells.hasNumeral hn).padded hpad
  have hafter : Ends after := by simpa using hends [] ends_nil
  exact ⟨t, ⟨numeral ++ after, after, List.suffix_append _ _, readNumeral_append ht hafter⟩, hmeans⟩

end Json
end WorkloadIdentity
