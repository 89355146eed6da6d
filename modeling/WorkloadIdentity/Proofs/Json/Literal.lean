/-
# Strings and numbers are written as tokens

What stands between the quotes of a string that is written is what a reader takes for each
of its characters (`Json.writesString_stringText`). An integer that a word of 64 bits can
hold is written as a numeral that denotes it (`Json.denotes_integerNumeral`), and no numeral
denotes another integer (`Json.isInteger_of_denotes`). A double is written as a numeral,
in place or with an exponent (`Json.exists_writesNumeral_shortest`); of minus zero it is
shown that it is read back, too.

Key definitions: `Json.Number.IsInteger`, `Json.Number.IsHeld`, `Json.integerNumeral`.
Key theorems: `Json.writesString_stringText`, `Json.denotes_integerNumeral`,
`Json.isInteger_of_denotes`, `Json.Number.IsHeld.exists_writesNumeral`.
-/
import WorkloadIdentity.Json.Printer
import WorkloadIdentity.Proofs.Json.Written
import WorkloadIdentity.Proofs.Number.Shortest

namespace WorkloadIdentity
namespace Json

/-! ### Characters and strings -/

/-- The four digits that stand for a control. -/
theorem hex4?_octet {c : Char} (h : c.toNat < 0x20) :
    hex4? '0' '0' (Hex.lowerDigits.getD ((UInt8.ofNat c.toNat).toNat / 16) '0')
      (Hex.lowerDigits.getD ((UInt8.ofNat c.toNat).toNat % 16) '0') = some c.toNat := by
  have hall := forall_ascii (p := fun c => decide (0x20 ≤ c.toNat) ||
    hex4? '0' '0' (Hex.lowerDigits.getD ((UInt8.ofNat c.toNat).toNat / 16) '0')
      (Hex.lowerDigits.getD ((UInt8.ofNat c.toNat).toNat % 16) '0') == some c.toNat)
    (by decide +kernel) (Nat.lt_of_lt_of_le h (by decide))
  have hno : decide (0x20 ≤ c.toNat) = false := decide_eq_false (Nat.not_le_of_lt h)
  rw [hno, Bool.false_or] at hall
  exact eq_of_beq hall

theorem writesChar_letter {c letter : Char} {n : Nat} (hn : c.toNat = n)
    (h : escape? letter = some (Char.ofNat n)) : WritesChar ['\\', letter] c := by
  rw [← hn, Char.ofNat_toNat] at h
  exact .letter h

/-- A character is written between quotes as a reader takes it. -/
theorem writesChar_escaped (c : Char) : WritesChar (escaped c) c := by
  unfold escaped
  split
  · rename_i hc
    subst hc
    exact .letter (by decide)
  split
  · rename_i hc
    subst hc
    exact .letter (by decide)
  rename_i hquote hescape
  split
  · exact .plain hquote hescape ‹_›
  rename_i hcontrol
  split
  · exact writesChar_letter ‹_› (by decide)
  split
  · exact writesChar_letter ‹_› (by decide)
  split
  · exact writesChar_letter ‹_› (by decide)
  split
  · exact writesChar_letter ‹_› (by decide)
  split
  · exact writesChar_letter ‹_› (by decide)
  · have hunit := WritesChar.unit (hex4?_octet (Nat.lt_of_not_le hcontrol)) (by omega)
    rwa [Char.ofNat_toNat] at hunit

theorem writesChars_escaped : ∀ cs : List Char, WritesChars (cs.flatMap escaped) cs
  | [] => .nil
  | c :: cs => by
    rw [List.flatMap_cons]
    exact .cons (writesChar_escaped c) (writesChars_escaped cs)

theorem writesString_stringText (s : String) : WritesString (stringText s) s :=
  ⟨_, rfl, writesChars_escaped s.toList⟩

/-! ### Digits -/

theorem writesDigits_toDigits (n : Nat) :
    WritesDigits (Nat.toDigits 10 n) ((Nat.toDigits 10 n).map digitValue) :=
  ⟨fun _ hc => Nat.isDigit_of_mem_toDigits (by decide) (by decide) hc, rfl, Nat.toDigits_ne_nil⟩

theorem writesDigits_zero : WritesDigits ['0'] [0] := ⟨by simp, by decide, by simp⟩

theorem decimal_toDigits (n : Nat) : decimal ((Nat.toDigits 10 n).map digitValue) = n := by
  have hvalue : Nat.ofDigitChars 10 (Nat.toDigits 10 n) 0 = n := Nat.ofDigitChars_ten_toDigits
  unfold decimal decimalFrom
  rw [List.foldl_map]
  simpa only [Nat.ofDigitChars, Nat.mul_comm 10, digitValue] using hvalue

/-- A number other than zero has no zero in front. -/
theorem toDigits_head {n : Nat} (hn : n ≠ 0) :
    ∃ c rest, Nat.toDigits 10 n = c :: rest ∧ digitValue c ≠ 0 := by
  induction n using Nat.strongRecOn with
  | _ n ih =>
    rw [Nat.toDigits_eq_if (by decide)]
    split
    · rename_i hlt
      have hall : (List.range 10).all (fun n => n == 0 || digitValue n.digitChar != 0) = true := by
        decide +kernel
      have hdigit := List.all_eq_true.mp hall n (List.mem_range.mpr hlt)
      exact ⟨n.digitChar, [], rfl, by simpa [hn] using hdigit⟩
    · obtain ⟨c, rest, hhead, hc⟩ := ih (n / 10) (by omega) (by omega)
      exact ⟨c, rest ++ [(n % 10).digitChar], by rw [hhead, List.cons_append], hc⟩

/-- The digits of a number are as a numeral starts. -/
theorem toDigits_leading (n : Nat) : ¬ (((Nat.toDigits 10 n).map digitValue).head? = some 0 ∧
    1 < ((Nat.toDigits 10 n).map digitValue).length) := by
  rintro ⟨hzero, hlength⟩
  by_cases hn : n = 0
  · subst hn
    simp at hlength
  · obtain ⟨c, rest, hhead, hc⟩ := toDigits_head hn
    rw [hhead] at hzero
    exact hc (by simpa using hzero)

/-! ### Integers -/

/-- An integer that a signed or an unsigned word of 64 bits can hold. -/
def Number.IsInteger (n : Number) : Prop :=
  ∃ value : Int, n = integer value ∧ -(2 ^ 63 : Int) ≤ value ∧ value < 2 ^ 64

/-- The numeral that an integer is written as. -/
def integerNumeral (n : Int) : Numeral :=
  ⟨decide (n < 0), (Nat.toDigits 10 n.natAbs).map digitValue, none, none⟩

theorem writesNumeral_integer (n : Int) :
    WritesNumeral (numberText (.integer n)) (integerNumeral n) := by
  have hsign : numberText (.integer n) =
      signText (decide (n < 0)) ++ (Nat.toDigits 10 n.natAbs ++ ([] ++ [])) := by
    simp [numberText, signText]
  rw [hsign]
  exact .parts (writesDigits_toDigits _) (toDigits_leading _) .missing .missing

/-- Digits that make a word are all kept. -/
theorem takeDigits_of_lt : ∀ {digits : List Nat} {n : Nat}, decimalFrom n digits < 2 ^ 64 →
    takeDigits n digits = (decimalFrom n digits, 0)
  | [], n, _ => rfl
  | d :: rest, n, h => by
    have hstep : decimalFrom n (d :: rest) = decimalFrom (n * 10 + d) rest := rfl
    rw [hstep] at h ⊢
    have hle : n * 10 + d ≤ decimalFrom (n * 10 + d) rest := by
      rw [decimalFrom_eq]
      exact Nat.le_add_right_of_le (Nat.le_mul_of_pos_right _ (Nat.pow_pos (by decide)))
    have hfits : n * 10 + d < 2 ^ 64 := Nat.lt_of_le_of_lt hle h
    rw [← takeDigits_of_lt h]
    exact if_pos hfits

/-- **An integer of 64 bits is read back from its writing.** -/
theorem denotes_integerNumeral {n : Int} (hlow : -(2 ^ 63 : Int) ≤ n) (hhigh : n < 2 ^ 64) :
    (integerNumeral n).Denotes (.integer n) := by
  have hdigits : takeDigits 0 (integerNumeral n).whole = (n.natAbs, 0) := by
    have hvalue : decimalFrom 0 (integerNumeral n).whole = n.natAbs := decimal_toDigits _
    rw [takeDigits_of_lt (by omega), hvalue]
  unfold Numeral.Denotes Numeral.value?
  rw [hdigits]
  simp only [integerNumeral, Option.isNone_none, Bool.and_self, beq_self_eq_true, if_true]
  by_cases hneg : n < 0
  · have habs : n.natAbs ≠ 0 := by omega
    have hword : n.natAbs ≤ Nat.pow 2 63 := by
      rw [Nat.pow_eq]
      omega
    have hvalue : -((n.natAbs : Nat) : Int) = n := by omega
    simp only [decide_eq_true hneg, Bool.not_true, Bool.false_eq_true, if_false, if_neg habs,
      if_pos hword, hvalue]
  · have hvalue : ((n.natAbs : Nat) : Int) = n := by omega
    simp only [decide_eq_false hneg, Bool.not_false, if_true, hvalue]

/-- An integer that a numeral denotes is one of 64 bits. -/
theorem isInteger_of_denotes {text : List Char} {t : Numeral} {n : Int} (ht : WritesNumeral text t)
    (h : t.Denotes (.integer n)) : (Number.integer n).IsInteger := by
  have hdigits : ∀ d ∈ t.whole, d < 10 := by
    cases ht with
    | parts hwhole => exact hwhole.lt_ten
  have hfits := (takeDigits_kept 0 hdigits).fits (by decide)
  refine ⟨n, rfl, ?_⟩
  unfold Numeral.Denotes Numeral.value? at h
  rcases htake : takeDigits 0 t.whole with ⟨kept, dropped⟩
  simp only [htake] at h hfits
  split at h
  · split at h
    · obtain rfl := Number.integer.inj (Option.some.inj h)
      omega
    split at h
    · cases h
    split at h
    · rename_i hword
      obtain rfl := Number.integer.inj (Option.some.inj h)
      rw [Nat.pow_eq] at hword
      omega
    · cases h
  · obtain ⟨x, -, hx⟩ := Option.map_eq_some_iff.mp h
    cases hx

/-! ### Doubles -/

/-- An integer, or a double as a word of 64 bits holds it. -/
def Number.IsHeld : Number → Prop
  | integer _ => True
  | real x => x.mantissa < 2 ^ 53 ∧ Binary64.minExponent ≤ x.exponent

theorem writesDigits_of_forall {text : List Char} (h : ∀ c ∈ text, c.isDigit = true)
    (hne : text ≠ []) : WritesDigits text (text.map digitValue) := ⟨h, rfl, hne⟩

theorem isDigit_of_mem_replicate {k : Nat} {c : Char} (h : c ∈ List.replicate k '0') :
    c.isDigit = true := by
  rw [List.eq_of_mem_replicate h]
  decide

/-- A numeral may start with a digit other than zero, whatever digits follow. -/
theorem leading_cons {c : Char} {more : List Char} (hc : digitValue c ≠ 0) :
    ¬ (((c :: more).map digitValue).head? = some 0 ∧ 1 < ((c :: more).map digitValue).length) := by
  simp [hc]

section Digits

variable {c : Char} {rest : List Char}

/-- Digits with a point among them or around them are a numeral. -/
theorem exists_writesNumeral_inPlace (negative : Bool) (hdigits : ∀ d ∈ c :: rest, d.isDigit = true)
    (hc : digitValue c ≠ 0) (k : Int) :
    ∃ t, WritesNumeral (signText negative ++ Shortest.inPlace (c :: rest) k) t := by
  unfold Shortest.inPlace
  simp only
  split
  · have hwhole : WritesDigits (c :: (rest ++ List.replicate k.toNat '0'))
        ((c :: (rest ++ List.replicate k.toNat '0')).map digitValue) := by
      refine writesDigits_of_forall ?_ (List.cons_ne_nil _ _)
      rw [← List.cons_append]
      intro d hd
      rcases List.mem_append.mp hd with hd | hd
      · exact hdigits d hd
      · exact isDigit_of_mem_replicate hd
    have hparts := @WritesNumeral.parts negative _ _ _ _ _ _ hwhole (leading_cons hc)
      (.point writesDigits_zero) .missing
    exact ⟨_, by simpa using hparts⟩
  split
  · rename_i hneg hpoint
    have hlength : (c :: rest).length + k = (((c :: rest).length + k).toNat : Nat) := by omega
    generalize ((c :: rest).length + k).toNat = point at hlength ⊢
    obtain ⟨before, rfl⟩ := Nat.exists_eq_succ_of_ne_zero (n := point) (by omega)
    have hwhole : WritesDigits (c :: rest.take before)
        ((c :: rest.take before).map digitValue) := by
      refine writesDigits_of_forall (fun d hd => hdigits d ?_) (List.cons_ne_nil _ _)
      exact List.mem_of_mem_take (i := before + 1) (by simpa using hd)
    have hfraction : WritesFraction ('.' :: rest.drop before)
        (some ((rest.drop before).map digitValue)) := by
      refine .point (writesDigits_of_forall (fun d hd => hdigits d ?_) ?_)
      · exact List.mem_cons_of_mem c (List.mem_of_mem_drop hd)
      · rw [List.length_cons] at hlength
        simp only [ne_eq, List.drop_eq_nil_iff]
        omega
    have hparts := @WritesNumeral.parts negative _ _ _ _ _ _ hwhole (leading_cons hc) hfraction
      .missing
    exact ⟨_, by simpa using hparts⟩
  · rename_i hneg hpoint
    have hfraction : WritesFraction
        ('.' :: (List.replicate (-((c :: rest).length + k)).toNat '0' ++ c :: rest))
        (some ((List.replicate (-((c :: rest).length + k)).toNat '0' ++ c :: rest).map
          digitValue)) := by
      refine .point (writesDigits_of_forall (fun d hd => ?_) (by simp))
      rcases List.mem_append.mp hd with hd | hd
      · exact isDigit_of_mem_replicate hd
      · exact hdigits d hd
    have hparts := @WritesNumeral.parts negative _ _ _ _ _ _ writesDigits_zero (by simp) hfraction
      .missing
    exact ⟨_, by simpa using hparts⟩

/-- Digits with an exponent are a numeral. -/
theorem exists_writesNumeral_withExponent (negative : Bool)
    (hdigits : ∀ d ∈ c :: rest, d.isDigit = true) (hc : digitValue c ≠ 0) (k : Int) :
    ∃ t, WritesNumeral (signText negative ++ Shortest.withExponent (c :: rest) k) t := by
  have hwhole : WritesDigits [c] ([c].map digitValue) :=
    writesDigits_of_forall
      (fun d hd => hdigits d (List.mem_cons.mpr (.inl (List.mem_singleton.mp hd))))
      (List.cons_ne_nil _ _)
  have hfraction : ∃ values, WritesFraction
      (if (c :: rest).length ≤ 1 then [] else '.' :: (c :: rest).drop 1) values := by
    split
    · exact ⟨_, .missing⟩
    · rename_i hlength
      refine ⟨_, .point (writesDigits_of_forall (fun d hd => hdigits d ?_) ?_)⟩
      · exact List.mem_of_mem_drop hd
      · exact fun hnil => hlength (List.drop_eq_nil_iff.mp hnil)
  have hexponent (e : Int) : ∃ power, WritesExponent
      ('e' :: (if e < 0 then '-' else '+') :: Nat.toDigits 10 e.natAbs) power := by
    split
    · exact ⟨_, .negative (.inl rfl) (writesDigits_toDigits _)⟩
    · exact ⟨_, .positive (.inl rfl) (writesDigits_toDigits _)⟩
  obtain ⟨values, hfraction⟩ := hfraction
  obtain ⟨power, hexponent⟩ := hexponent ((c :: rest).length - 1 + k)
  have hparts := @WritesNumeral.parts negative _ _ _ _ _ _ hwhole (leading_cons hc) hfraction
    hexponent
  exact ⟨_, by simpa [Shortest.withExponent] using hparts⟩

end Digits

/-- **A double is written as a numeral.** -/
theorem exists_writesNumeral_shortest {style : Shortest.Style} {x : Binary64}
    (hmantissa : x.mantissa < 2 ^ 53) (hexponent : Binary64.minExponent ≤ x.exponent) :
    ∃ t, WritesNumeral (Shortest.text style x) t := by
  by_cases hzero : x.isZero = true
  · have htext : Shortest.text style x = signText x.negative ++ (['0'] ++ (['.', '0'] ++ [])) :=
      if_pos hzero
    rw [htext]
    exact ⟨_, .parts writesDigits_zero (by simp) (.point writesDigits_zero) .missing⟩
  · have htext : Shortest.text style x = signText x.negative ++
        (if style.leastInPlace ≤
            ((Nat.toDigits 10 (Shortest.digits x).1).length : Int) - 1 + (Shortest.digits x).2 &&
          ((Nat.toDigits 10 (Shortest.digits x).1).length : Int) - 1 + (Shortest.digits x).2 <
            style.leastLarge
        then Shortest.inPlace (Nat.toDigits 10 (Shortest.digits x).1) (Shortest.digits x).2
        else Shortest.withExponent (Nat.toDigits 10 (Shortest.digits x).1) (Shortest.digits x).2) :=
      if_neg hzero
    rw [htext]
    obtain ⟨c, rest, hhead, hc⟩ := toDigits_head
      (Shortest.digits_ne_zero (eq_false_of_ne_true hzero) hmantissa hexponent)
    have hdigits := (writesDigits_toDigits (Shortest.digits x).1).digits
    rw [hhead] at hdigits ⊢
    split
    · exact exists_writesNumeral_inPlace x.negative hdigits hc _
    · exact exists_writesNumeral_withExponent x.negative hdigits hc _

/-- A number is written as a numeral. -/
theorem Number.IsHeld.exists_writesNumeral {n : Number} (h : n.IsHeld) :
    ∃ t, WritesNumeral (numberText n) t := by
  cases n with
  | integer value => exact ⟨_, writesNumeral_integer value⟩
  | real x => exact exists_writesNumeral_shortest h.1 h.2

/-- Minus zero is read back. -/
theorem denotes_minusZero :
    WritesNumeral (numberText (.real (Binary64.zero true))) ⟨true, [0], some [0], none⟩ ∧
      Numeral.Denotes ⟨true, [0], some [0], none⟩ (.real (Binary64.zero true)) := by
  have htext : numberText (.real (Binary64.zero true)) =
      signText true ++ (['0'] ++ (['.', '0'] ++ [])) := by decide
  rw [htext]
  exact ⟨.parts writesDigits_zero (by simp) (.point writesDigits_zero) .missing, rfl⟩

end Json
end WorkloadIdentity
