/-
# Strings and numerals in writing

A string is written between quotes, character by character: as itself, as a letter after a
backslash, as four hexadecimal digits, or as two times four of them for a pair of surrogates
(`Json.WritesChar`). A numeral is written as a sign, digits, a fraction and an exponent
(`Json.WritesNumeral`). The readers accept just that: what they read is so written, and
what is so written they read to its end, whatever follows a string, and for a numeral
whatever cannot go on with it (`Json.Ends`).

Key definitions: `Json.WritesString`, `Json.WritesNumeral`, `Json.Ends`.
Key theorems: `Json.readString_of_writesChars`, `Json.continues_of_readString`,
`Json.readNumeral_append`, `Json.exists_writesNumeral`.
-/
import Mathlib.Data.List.TakeWhile
import WorkloadIdentity.Json.Parser
import WorkloadIdentity.Proofs.Text.Characters

namespace WorkloadIdentity
namespace Json

/-! ### Strings -/

/-- What stands between the quotes of a string for one character. -/
inductive WritesChar : List Char → Char → Prop where
  | plain {c : Char} : c ≠ '"' → c ≠ '\\' → 0x20 ≤ c.toNat → WritesChar [c] c
  | letter {c e : Char} : escape? c = some e → WritesChar ['\\', c] e
  | unit {a b c d : Char} {n : Nat} : hex4? a b c d = some n → ¬ (0xd800 ≤ n ∧ n < 0xe000) →
      WritesChar ['\\', 'u', a, b, c, d] (Char.ofNat n)
  | pair {a b c d e f g h : Char} {high low : Nat} : hex4? a b c d = some high →
      hex4? e f g h = some low → 0xd800 ≤ high ∧ high < 0xdc00 → 0xdc00 ≤ low ∧ low < 0xe000 →
      WritesChar ['\\', 'u', a, b, c, d, '\\', 'u', e, f, g, h]
        (Char.ofNat (0x10000 + (high - 0xd800) * 0x400 + (low - 0xdc00)))

/-- What stands between the quotes of a string. -/
inductive WritesChars : List Char → List Char → Prop where
  | nil : WritesChars [] []
  | cons {piece text : List Char} {c : Char} {cs : List Char} :
      WritesChar piece c → WritesChars text cs → WritesChars (piece ++ text) (c :: cs)

/-- The text is a string in writing. -/
def WritesString (text : List Char) (s : String) : Prop :=
  ∃ inner, text = '"' :: (inner ++ ['"']) ∧ WritesChars inner s.toList

theorem escape?_u : escape? 'u' = none := by decide

theorem readString_quote (read rest : List Char) :
    readString read ('"' :: rest) = some (String.ofList read.reverse, rest) := by
  rw [readString]

theorem readString_plain {c : Char} (read rest : List Char) (hquote : c ≠ '"') (hescape : c ≠ '\\')
    (hcontrol : 0x20 ≤ c.toNat) : readString read (c :: rest) = readString (c :: read) rest := by
  rw [readString.eq_def]
  split
  · contradiction
  · rename_i h; exact absurd (List.cons.inj h).1 hquote
  · rename_i h; exact absurd (List.cons.inj h).1 hescape
  · rename_i h; exact absurd (List.cons.inj h).1 hescape
  · rename_i h
    obtain ⟨rfl, rfl⟩ := List.cons.inj h
    rw [if_neg]
    simp only [hescape, false_or, Nat.not_lt]
    exact hcontrol

theorem readString_letter {c e : Char} (read rest : List Char) (h : escape? c = some e) :
    readString read ('\\' :: c :: rest) = readString (e :: read) rest := by
  have hu : c ≠ 'u' := by
    rintro rfl
    cases escape?_u.symm.trans h
  rw [readString.eq_def]
  split
  · rename_i heq; cases heq
  · rename_i heq; cases heq
  · rename_i heq; exact absurd (List.cons.inj (List.cons.inj heq).2).1 hu
  · rename_i heq
    obtain ⟨rfl, rfl⟩ := List.cons.inj (List.cons.inj heq).2
    simp only [h]
  · rename_i hnot heq
    obtain ⟨rfl, rfl⟩ := List.cons.inj heq
    exact absurd rfl (hnot c rest rfl)

theorem readString_unit {a b c d : Char} {n : Nat} (read rest : List Char)
    (hn : hex4? a b c d = some n) (h : ¬ (0xd800 ≤ n ∧ n < 0xe000)) :
    readString read ('\\' :: 'u' :: a :: b :: c :: d :: rest) =
      readString (Char.ofNat n :: read) rest := by
  rw [readString]
  simp only [hn]
  rw [if_neg (by omega), if_neg (by omega)]

theorem readString_pair {a b c d e f g h : Char} {high low : Nat} (read rest : List Char)
    (hhigh : hex4? a b c d = some high) (hlow : hex4? e f g h = some low)
    (hh : 0xd800 ≤ high ∧ high < 0xdc00) (hl : 0xdc00 ≤ low ∧ low < 0xe000) :
    readString read ('\\' :: 'u' :: a :: b :: c :: d :: '\\' :: 'u' :: e :: f :: g :: h :: rest) =
      readString (Char.ofNat (0x10000 + (high - 0xd800) * 0x400 + (low - 0xdc00)) :: read)
        rest := by
  rw [readString]
  simp only [hhigh, hlow, if_pos hh, if_pos hl]

theorem readString_writesChar {piece : List Char} {c : Char} (h : WritesChar piece c)
    (read rest : List Char) : readString read (piece ++ rest) = readString (c :: read) rest := by
  cases h with
  | plain hquote hescape hcontrol => exact readString_plain read rest hquote hescape hcontrol
  | letter he => exact readString_letter read rest he
  | unit hn h => exact readString_unit read rest hn h
  | pair hhigh hlow hh hl => exact readString_pair read rest hhigh hlow hh hl

theorem readString_of_writesChars {inner cs : List Char} (h : WritesChars inner cs)
    (read rest : List Char) :
    readString read (inner ++ '"' :: rest) = some (String.ofList (read.reverse ++ cs), rest) := by
  induction h generalizing read with
  | nil => simp [readString_quote]
  | cons hpiece _ ih =>
    rw [List.append_assoc, readString_writesChar hpiece, ih]
    simp

/-- The text is the rest of a string in writing, up to its quote, and what follows; the string is
of the characters read before, the last one first, and of those that the text writes. -/
def Continues (read s rest : List Char) (text : String) : Prop :=
  ∃ inner cs, s = inner ++ '"' :: rest ∧ WritesChars inner cs ∧
    text = String.ofList (read.reverse ++ cs)

theorem Continues.cons {piece read s rest : List Char} {c : Char} {text : String}
    (hpiece : WritesChar piece c) (h : Continues (c :: read) s rest text) :
    Continues read (piece ++ s) rest text := by
  obtain ⟨inner, cs, rfl, hinner, rfl⟩ := h
  refine ⟨piece ++ inner, c :: cs, ?_, .cons hpiece hinner, ?_⟩
  · rw [List.append_assoc]
  · simp

/-- **What the reader of strings accepts.** -/
theorem continues_of_readString {read s rest : List Char} {text : String}
    (h : readString read s = some (text, rest)) : Continues read s rest text := by
  fun_induction readString read s
  case case2 =>
    obtain ⟨rfl, rfl⟩ := Prod.mk.inj (Option.some.inj h)
    exact ⟨[], [], rfl, .nil, by simp⟩
  case case5 hhigh hh _ _ _ _ _ _ hlow hl _ ih => exact (ih h).cons (.pair hhigh hlow hh hl)
  case case9 hn hh hl ih => exact (ih h).cons (.unit hn (by omega))
  case case10 he ih => exact (ih h).cons (.letter he)
  case case13 hquote _ _ hplain ih =>
    rw [not_or, Nat.not_lt] at hplain
    exact (ih h).cons (.plain hquote hplain.1 hplain.2)
  all_goals cases h

/-! ### Numerals -/

/-- The value of a digit. -/
def digitValue (c : Char) : Nat := c.toNat - '0'.toNat

/-- The text is of digits with these values, of one at least. -/
structure WritesDigits (text : List Char) (values : List Nat) : Prop where
  digits : ∀ c ∈ text, c.isDigit = true
  values : values = text.map digitValue
  nonempty : text ≠ []

/-- The text is the point and the digits after it, if there is one. -/
inductive WritesFraction : List Char → Option (List Nat) → Prop where
  | missing : WritesFraction [] none
  | point {text : List Char} {values : List Nat} :
      WritesDigits text values → WritesFraction ('.' :: text) (some values)

/-- The text is an exponent, if there is one. -/
inductive WritesExponent : List Char → Option (Bool × List Nat) → Prop where
  | missing : WritesExponent [] none
  | unsigned {mark : Char} {text : List Char} {values : List Nat} : mark = 'e' ∨ mark = 'E' →
      WritesDigits text values → WritesExponent (mark :: text) (some (false, values))
  | positive {mark : Char} {text : List Char} {values : List Nat} : mark = 'e' ∨ mark = 'E' →
      WritesDigits text values → WritesExponent (mark :: '+' :: text) (some (false, values))
  | negative {mark : Char} {text : List Char} {values : List Nat} : mark = 'e' ∨ mark = 'E' →
      WritesDigits text values → WritesExponent (mark :: '-' :: text) (some (true, values))

/-- The sign of a numeral. -/
def signText (negative : Bool) : List Char := if negative then ['-'] else []

/-- The text is a numeral, with no zero in front of other digits. -/
inductive WritesNumeral : List Char → Numeral → Prop where
  | parts {negative : Bool} {whole fraction exponent : List Char} {values : List Nat}
      {fractionValues : Option (List Nat)} {power : Option (Bool × List Nat)} :
      WritesDigits whole values → ¬ (values.head? = some 0 ∧ 1 < values.length) →
      WritesFraction fraction fractionValues → WritesExponent exponent power →
      WritesNumeral (signText negative ++ (whole ++ (fraction ++ exponent)))
        ⟨negative, values, fractionValues, power⟩

/-- What may follow a value: blanks, and what separates and closes. -/
def delimiters : List Char := " \n\t\r,]\x7d".toList

/-- The text cannot go on a numeral before it. -/
def Ends (rest : List Char) : Prop := ∀ c ∈ rest.head?, c ∈ delimiters

theorem ends_nil : Ends [] := by
  intro c hc
  cases hc

theorem ends_cons {c : Char} {rest : List Char} (hc : c ∈ delimiters) : Ends (c :: rest) := by
  intro d hd
  obtain rfl := Option.some.inj hd
  exact hc

/-- The text does not start with a digit. -/
def Breaks (rest : List Char) : Prop := ∀ c ∈ rest.head?, c.isDigit = false

theorem Ends.breaks {rest : List Char} (h : Ends rest) : Breaks rest := fun c hc =>
  forall_mem_of_all (p := fun c => c.isDigit = false) (by decide) c (h c hc)

theorem splitDigits_append {text rest : List Char} {values : List Nat}
    (h : WritesDigits text values)
    (hrest : Breaks rest) : splitDigits (text ++ rest) = (values, rest) := by
  have htake : rest.takeWhile Char.isDigit = [] := by
    cases rest with
    | nil => rfl
    | cons c rest => simp [hrest c rfl]
  have hdrop : rest.dropWhile Char.isDigit = rest := by
    cases rest with
    | nil => rfl
    | cons c rest => simp [hrest c rfl]
  unfold splitDigits
  rw [List.takeWhile_append_of_pos h.digits, List.dropWhile_append_of_pos h.digits, htake, hdrop,
    List.append_nil, h.values]
  rfl

theorem exists_writesDigits {s rest : List Char} {values : List Nat} (hvalues : values ≠ [])
    (h : splitDigits s = (values, rest)) :
    ∃ text, s = text ++ rest ∧ WritesDigits text values := by
  obtain ⟨rfl, rfl⟩ := Prod.mk.inj h
  refine ⟨s.takeWhile Char.isDigit, List.takeWhile_append_dropWhile.symm, ?_, rfl, ?_⟩
  · intro c hc
    exact List.mem_takeWhile_imp hc
  · intro hnil
    exact hvalues (by simp [hnil])

theorem exists_writesFraction {s rest : List Char} {fraction : Option (List Nat)}
    (h : readFraction s = some (fraction, rest)) :
    ∃ text, s = text ++ rest ∧ WritesFraction text fraction := by
  unfold readFraction at h
  split at h
  · rename_i after
    rcases hsplit : splitDigits after with ⟨values, left⟩
    rw [hsplit] at h
    cases values with
    | nil => cases h
    | cons v vs =>
      obtain ⟨rfl, rfl⟩ := Prod.mk.inj (Option.some.inj h)
      obtain ⟨text, rfl, hdigits⟩ := exists_writesDigits (List.cons_ne_nil v vs) hsplit
      exact ⟨'.' :: text, rfl, .point hdigits⟩
  · obtain ⟨rfl, rfl⟩ := Prod.mk.inj (Option.some.inj h)
    exact ⟨[], rfl, .missing⟩

theorem exists_of_readPower {isNegative : Bool} {s rest : List Char}
    {exponent : Option (Bool × List Nat)} (h : readPower isNegative s = some (exponent, rest)) :
    ∃ text values, s = text ++ rest ∧ WritesDigits text values ∧
      exponent = some (isNegative, values) := by
  unfold readPower at h
  rcases hsplit : splitDigits s with ⟨values, left⟩
  rw [hsplit] at h
  cases values with
  | nil => cases h
  | cons v vs =>
    obtain ⟨rfl, rfl⟩ := Prod.mk.inj (Option.some.inj h)
    obtain ⟨text, rfl, hdigits⟩ := exists_writesDigits (List.cons_ne_nil v vs) hsplit
    exact ⟨text, _, rfl, hdigits, rfl⟩

theorem exists_writesExponent {s rest : List Char} {exponent : Option (Bool × List Nat)}
    (h : readExponent s = some (exponent, rest)) :
    ∃ text, s = text ++ rest ∧ WritesExponent text exponent := by
  unfold readExponent at h
  split at h
  · rename_i mark after
    split at h
    · rename_i hmark
      -- after the mark there may be a sign
      split at h
      · obtain ⟨text, values, rfl, hdigits, rfl⟩ := exists_of_readPower h
        exact ⟨mark :: '-' :: text, rfl, .negative hmark hdigits⟩
      · obtain ⟨text, values, rfl, hdigits, rfl⟩ := exists_of_readPower h
        exact ⟨mark :: '+' :: text, rfl, .positive hmark hdigits⟩
      · obtain ⟨text, values, rfl, hdigits, rfl⟩ := exists_of_readPower h
        exact ⟨mark :: text, rfl, .unsigned hmark hdigits⟩
    · obtain ⟨rfl, rfl⟩ := Prod.mk.inj (Option.some.inj h)
      exact ⟨[], rfl, .missing⟩
  · obtain ⟨rfl, rfl⟩ := Prod.mk.inj (Option.some.inj h)
    exact ⟨[], rfl, .missing⟩

theorem WritesDigits.values_ne_nil {text : List Char} {values : List Nat}
    (h : WritesDigits text values) : values ≠ [] := by
  rw [h.values]
  simpa using h.nonempty

/-- The digits of a fraction or an exponent, with their first one in sight. -/
theorem splitDigits_cases {text rest : List Char} {values : List Nat} (h : WritesDigits text values)
    (hrest : Breaks rest) :
    ∃ v vs, values = v :: vs ∧ splitDigits (text ++ rest) = (v :: vs, rest) := by
  obtain ⟨v, vs, rfl⟩ := List.exists_cons_of_ne_nil h.values_ne_nil
  exact ⟨v, vs, rfl, splitDigits_append h hrest⟩

theorem readFraction_append {text rest : List Char} {fraction : Option (List Nat)}
    (h : WritesFraction text fraction) (hrest : Breaks rest) (hpoint : ∀ c ∈ rest.head?, c ≠ '.') :
    readFraction (text ++ rest) = some (fraction, rest) := by
  cases h with
  | missing =>
    rw [List.nil_append]
    unfold readFraction
    split
    · rename_i h
      exact absurd rfl (hpoint '.' rfl)
    · rfl
  | point hdigits =>
    obtain ⟨v, vs, rfl, hsplit⟩ := splitDigits_cases hdigits hrest
    simp only [List.cons_append, readFraction, hsplit]

theorem readPower_append {text rest : List Char} {values : List Nat} (isNegative : Bool)
    (h : WritesDigits text values) (hrest : Breaks rest) :
    readPower isNegative (text ++ rest) = some (some (isNegative, values), rest) := by
  obtain ⟨v, vs, rfl, hsplit⟩ := splitDigits_cases h hrest
  unfold readPower
  rw [hsplit]

/-- A text of digits starts with one. -/
theorem WritesDigits.exists_cons {text : List Char} {values : List Nat}
    (h : WritesDigits text values) :
    ∃ c rest, text = c :: rest ∧ c.isDigit = true := by
  obtain ⟨c, rest, rfl⟩ := List.exists_cons_of_ne_nil h.nonempty
  exact ⟨c, rest, rfl, h.digits c List.mem_cons_self⟩

theorem readExponent_append {text rest : List Char} {exponent : Option (Bool × List Nat)}
    (h : WritesExponent text exponent) (hrest : Breaks rest)
    (hmark : ∀ c ∈ rest.head?, c ≠ 'e' ∧ c ≠ 'E') :
    readExponent (text ++ rest) = some (exponent, rest) := by
  cases h with
  | missing =>
    cases rest with
    | nil => rfl
    | cons c rest =>
      have hc := hmark c rfl
      simp [readExponent, hc.1, hc.2]
  | unsigned hmark hdigits =>
    obtain ⟨d, ds, rfl, hd⟩ := hdigits.exists_cons
    have hread := readPower_append false hdigits hrest
    simp only [List.cons_append, readExponent, if_pos hmark] at hread ⊢
    -- the digit in front is no sign
    split
    · rename_i heq
      obtain ⟨rfl, -⟩ := List.cons.inj heq
      cases hd
    · rename_i heq
      obtain ⟨rfl, -⟩ := List.cons.inj heq
      cases hd
    · exact hread
  | positive hmark hdigits =>
    simp only [List.cons_append, readExponent, if_pos hmark, readPower_append false hdigits hrest]
  | negative hmark hdigits =>
    simp only [List.cons_append, readExponent, if_pos hmark, readPower_append true hdigits hrest]

/-- Neither a fraction nor an exponent starts with a digit, and an exponent does not start with a
point. -/
theorem WritesExponent.breaks {text rest : List Char} {exponent : Option (Bool × List Nat)}
    (h : WritesExponent text exponent) (hrest : Ends rest) :
    Breaks (text ++ rest) ∧ ∀ c ∈ (text ++ rest).head?, c ≠ '.' := by
  have hmark {c : Char} (hc : c = 'e' ∨ c = 'E') : c.isDigit = false ∧ c ≠ '.' := by
    rcases hc with rfl | rfl <;> decide
  cases h with
  | missing =>
    refine ⟨hrest.breaks, fun c hc => ?_⟩
    exact forall_mem_of_all (p := fun c => c ≠ '.') (by decide) c (hrest c hc)
  | unsigned hc hdigits => simp [Breaks, hmark hc]
  | positive hc hdigits => simp [Breaks, hmark hc]
  | negative hc hdigits => simp [Breaks, hmark hc]

theorem WritesFraction.breaks {text rest : List Char} {fraction : Option (List Nat)}
    (h : WritesFraction text fraction) (hrest : Breaks rest) : Breaks (text ++ rest) := by
  cases h with
  | missing => exact hrest
  | point hdigits =>
    intro c hc
    obtain rfl := Option.some.inj hc
    decide

/-- **A numeral is read to its end.** -/
theorem readNumeral_append {text rest : List Char} {t : Numeral} (h : WritesNumeral text t)
    (hrest : Ends rest) : readNumeral (text ++ rest) = some (t, rest) := by
  cases h with
  | @parts negative whole fraction exponent values fractionValues power hwhole hzero hfraction
      hexponent =>
    obtain ⟨hbreaks, hpoint⟩ := hexponent.breaks hrest
    have hmark : ∀ c ∈ rest.head?, c ≠ 'e' ∧ c ≠ 'E' := fun c hc =>
      forall_mem_of_all (p := fun c => c ≠ 'e' ∧ c ≠ 'E') (by decide) c (hrest c hc)
    have hsplit := splitDigits_append hwhole (hfraction.breaks hbreaks)
    have hvalid : ¬ ((values.isEmpty || (values.head? == some 0 && decide (1 < values.length))) =
        true) := by
      simp only [Bool.or_eq_true, Bool.and_eq_true, List.isEmpty_iff, beq_iff_eq,
        decide_eq_true_eq, not_or]
      exact ⟨hwhole.values_ne_nil, hzero⟩
    have hparts : readFraction (fraction ++ (exponent ++ rest)) >>= (fun p =>
        readExponent p.2 >>= fun q => pure (⟨negative, values, p.1, q.1⟩, q.2)) =
        some ((⟨negative, values, fractionValues, power⟩ : Numeral), rest) := by
      rw [readFraction_append hfraction hbreaks hpoint, Option.bind_eq_bind, Option.bind_some,
        readExponent_append hexponent hrest.breaks hmark, Option.bind_eq_bind, Option.bind_some]
      rfl
    unfold readNumeral
    split
    rename_i isNegative unsigned hsign
    -- digits in front have no sign
    have hsigned : isNegative = negative ∧
        unsigned = whole ++ (fraction ++ (exponent ++ rest)) := by
      obtain ⟨c, cs, rfl, hc⟩ := hwhole.exists_cons
      cases negative with
      | true =>
        obtain ⟨rfl, rfl⟩ := Prod.mk.inj hsign
        simp
      | false =>
        split at hsign
        · rename_i heq
          obtain ⟨rfl, -⟩ := List.cons.inj heq
          cases hc
        · obtain ⟨rfl, rfl⟩ := Prod.mk.inj hsign
          simp [signText]
    obtain ⟨rfl, rfl⟩ := hsigned
    simp only [hsplit, if_neg hvalid]
    exact hparts

/-- **What the reader of numerals accepts.** -/
theorem exists_writesNumeral {s rest : List Char} {t : Numeral}
    (h : readNumeral s = some (t, rest)) : ∃ text, s = text ++ rest ∧ WritesNumeral text t := by
  unfold readNumeral at h
  split at h
  rename_i negative unsigned hsign
  have hsigned : s = signText negative ++ unsigned := by
    split at hsign
    · obtain ⟨rfl, rfl⟩ := Prod.mk.inj hsign
      rfl
    · obtain ⟨rfl, rfl⟩ := Prod.mk.inj hsign
      rfl
  rcases hsplit : splitDigits unsigned with ⟨values, afterWhole⟩
  simp only [hsplit] at h
  split at h
  · cases h
  rename_i hvalid
  simp only [Bool.or_eq_true, Bool.and_eq_true, List.isEmpty_iff, beq_iff_eq, decide_eq_true_eq,
    not_or] at hvalid
  obtain ⟨hvalues, hzero⟩ := hvalid
  obtain ⟨⟨fractionValues, afterFraction⟩, hreadFraction, h⟩ := Option.bind_eq_some_iff.mp h
  obtain ⟨⟨power, afterExponent⟩, hreadExponent, h⟩ := Option.bind_eq_some_iff.mp h
  obtain ⟨rfl, rfl⟩ := Prod.mk.inj (Option.some.inj h)
  obtain ⟨whole, rfl, hwhole⟩ := exists_writesDigits hvalues hsplit
  obtain ⟨fraction, rfl, hfraction⟩ := exists_writesFraction hreadFraction
  obtain ⟨exponent, rfl, hexponent⟩ := exists_writesExponent hreadExponent
  refine ⟨_, ?_, .parts hwhole hzero hfraction hexponent⟩
  rw [hsigned]
  simp only [List.append_assoc]

end Json
end WorkloadIdentity
