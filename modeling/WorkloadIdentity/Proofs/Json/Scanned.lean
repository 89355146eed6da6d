/-
# What the scanner passes over

The scanner passes over a text that spells a value, whatever its numerals stand for, and is
then where it was, or inside of what the value is a part of (`Json.Scan.passes`). So an array
comes apart into the octets of its items (`Json.splitItems_octetsOf`), and an object into
those of its names and values, as they stand in the text (`Json.splitMembers_enclosed`); what
they are read as is what they spell.

Key definitions: `Json.octetsOf`, `Json.Scan.resume`, `Json.Scan.Passes`, `Json.IsPiece`,
`Json.IsEntry`, `Json.ComesApart`.
Key theorems: `Json.Scan.passes`, `Json.splitItems_octetsOf`, `Json.splitMembers_enclosed`,
`Json.splitMembers_octetsOf`, `Json.IsPiece.parse_eq`.
-/
import WorkloadIdentity.Json.Scan
import WorkloadIdentity.Proofs.Json.Grammar

namespace WorkloadIdentity
namespace Json

/-! ### Octets -/

/-- The octets of characters. -/
def octetsOf (s : List Char) : Bytes := s.flatMap Utf8.encodeChar

@[simp] theorem octetsOf_nil : octetsOf [] = [] := rfl

theorem octetsOf_append (s t : List Char) : octetsOf (s ++ t) = octetsOf s ++ octetsOf t :=
  List.flatMap_append

theorem octetsOf_toList (s : String) : octetsOf s.toList = Utf8.encode s :=
  (Utf8.encode_eq_flatMap s).symm

theorem octetsOf_cons {c : Char} (hc : c.toNat < 128) (s : List Char) :
    octetsOf (c :: s) = Scan.octet c :: octetsOf s := by
  unfold octetsOf
  rw [List.flatMap_cons, Utf8.encodeChar_of_lt hc, List.singleton_append]
  rfl

namespace Scan

/-! ### Steps -/

/-- The scanner after a value. -/
def resume : List Frame → Bytes → Option Bytes
  | [], rest => some rest
  | stack, rest => skip stack .after rest

theorem skip_cons {stack : List Frame} {mode : Mode} {b : UInt8} (stack' : List Frame)
    (mode' : Mode) (h : step stack mode b = .next stack' mode') (rest : Bytes) :
    skip stack mode (b :: rest) = skip stack' mode' rest := by
  rw [skip, h]

/-- An octet that completes a value. -/
theorem skip_complete {stack outer : List Frame} {mode : Mode} {b : UInt8}
    (h : step stack mode b = complete outer) (rest : Bytes) :
    skip stack mode (b :: rest) = resume outer rest := by
  rw [skip, h]
  cases outer <;> rfl

/-- An octet as the first of those of an ASCII character. -/
theorem skip_char {stack : List Frame} {mode : Mode} {c : Char} {s : List Char}
    (stack' : List Frame) (mode' : Mode) (hc : c.toNat < 128)
    (h : step stack mode (octet c) = .next stack' mode') (rest : Bytes) :
    skip stack mode (octetsOf (c :: s) ++ rest) = skip stack' mode' (octetsOf s ++ rest) := by
  rw [octetsOf_cons hc, List.cons_append]
  exact skip_cons _ _ h _

theorem isBlank_octet {c : Char} (h : Json.isBlank c = true) :
    c.toNat < 128 ∧ isBlank (octet c) = true := by
  have hcases : c = ' ' ∨ c = '\n' ∨ c = '\t' ∨ c = '\r' := by
    simpa only [Json.isBlank, Bool.or_eq_true, beq_iff_eq, or_assoc] using h
  rcases hcases with rfl | rfl | rfl | rfl <;> decide

/-- The scanner stays where it is on blanks. -/
def StaysOnBlanks (stack : List Frame) (mode : Mode) : Prop :=
  ∀ b, isBlank b = true → step stack mode b = .next stack mode

theorem StaysOnBlanks.skip {stack : List Frame} {mode : Mode} (h : StaysOnBlanks stack mode) :
    ∀ {blanks : List Char}, IsBlanks blanks → ∀ rest : Bytes,
      skip stack mode (octetsOf blanks ++ rest) = skip stack mode rest
  | [], _, rest => rfl
  | c :: blanks, hblanks, rest => by
    obtain ⟨hc, hblank⟩ := isBlank_octet (hblanks c List.mem_cons_self)
    rw [skip_char _ _ hc (h _ hblank)]
    exact h.skip (fun d hd => hblanks d (List.mem_cons_of_mem c hd)) rest

theorem stays_value (stack : List Frame) : StaysOnBlanks stack .value := fun _ h => if_pos h

theorem stays_firstItem (stack : List Frame) : StaysOnBlanks stack .firstItem := fun _ h => if_pos h

theorem stays_firstName (stack : List Frame) : StaysOnBlanks stack .firstName := fun _ h => if_pos h

theorem stays_name (stack : List Frame) : StaysOnBlanks stack .name := fun _ h => if_pos h

theorem stays_colon (stack : List Frame) : StaysOnBlanks stack .colon := fun _ h => if_pos h

theorem stays_after (stack : List Frame) : StaysOnBlanks stack .after := fun _ h => if_pos h

/-! ### Strings -/

/-- An octet between quotes that stands for itself. -/
def IsPlain (b : UInt8) : Prop := b ≠ octet '"' ∧ b ≠ octet '\\' ∧ 0x20 ≤ b.toNat

theorem skip_plain {stack : List Frame} {isName : Bool} : ∀ {octets : Bytes},
    (∀ b ∈ octets, IsPlain b) → ∀ rest : Bytes,
      skip stack (.string isName) (octets ++ rest) = skip stack (.string isName) rest
  | [], _, rest => rfl
  | b :: octets, h, rest => by
    obtain ⟨hquote, hescape, hcontrol⟩ := h b List.mem_cons_self
    have hstep : step stack (.string isName) b = .next stack (.string isName) := by
      have hhigh : ¬ b < 0x20 := by
        rw [UInt8.lt_iff_toNat_lt]
        exact Nat.not_lt.mpr hcontrol
      simp only [step, beq_iff_eq, if_neg hquote, if_neg hescape, if_neg hhigh]
    rw [List.cons_append, skip_cons _ _ hstep]
    exact skip_plain (fun d hd => h d (List.mem_cons_of_mem b hd)) rest

theorem toNat_octet {c : Char} (hc : c.toNat < 128) : (octet c).toNat = c.toNat := by
  unfold octet
  rw [UInt8.toNat_ofNat']
  exact Nat.mod_eq_of_lt (by omega)

theorem octet_ne {c d : Char} (hc : c.toNat < 128) (hd : d.toNat < 128) (h : c ≠ d) :
    octet c ≠ octet d := by
  intro heq
  have hcodes := congrArg UInt8.toNat heq
  rw [toNat_octet hc, toNat_octet hd] at hcodes
  exact h (Char.toNat_inj.mp hcodes)

theorem isPlain_of_mem_encodeChar {c : Char} (hquote : c ≠ '"') (hescape : c ≠ '\\')
    (hcontrol : 0x20 ≤ c.toNat) : ∀ b ∈ octetsOf [c], IsPlain b := by
  intro b hb
  by_cases hc : c.toNat < 128
  · rw [octetsOf_cons hc, octetsOf_nil, List.mem_singleton] at hb
    subst hb
    refine ⟨octet_ne hc (by decide) hquote, octet_ne hc (by decide) hescape, ?_⟩
    rwa [toNat_octet hc]
  · have hb' : b ∈ Utf8.encodeChar c := by simpa [octetsOf] using hb
    have hhigh := Utf8.le_of_mem_encodeChar (Nat.le_of_not_lt hc) hb'
    refine ⟨?_, ?_, by omega⟩
    · rintro rfl
      exact absurd hhigh (by decide)
    · rintro rfl
      exact absurd hhigh (by decide)

theorem lt_of_value? {c : Char} {n : Nat} (h : Hex.value? c = some n) : c.toNat < 128 := by
  have hle : ∀ {d : Char}, c ≤ d → d.toNat < 128 → c.toNat < 128 := fun h hd =>
    Nat.lt_of_le_of_lt (UInt32.le_iff_toNat_le.mp h) hd
  unfold Hex.value? at h
  split at h
  · rename_i hdigit
    exact toNat_lt_of_isAlphanum (by simp [Char.isAlphanum, hdigit])
  split at h
  · rename_i hlower
    exact hle hlower.2 (by decide)
  split at h
  · rename_i hupper
    exact hle hupper.2 (by decide)
  · cases h

/-- One digit of an escape, with others to come or without. -/
theorem step_hex {c : Char} {n : Nat} (h : Hex.value? c = some n) (stack : List Frame)
    (isName : Bool) (left : Nat) : step stack (.hex isName left) (octet c) =
      if left ≤ 1 then .next stack (.string isName) else .next stack (.hex isName (left - 1)) := by
  have hvalue : Hex.value? (Char.ofNat (octet c).toNat) = some n := by
    rw [toNat_octet (lt_of_value? h), Char.ofNat_toNat, h]
  simp only [step, hvalue, Option.isNone_some, Bool.false_eq_true, if_false]

/-- A backslash, the letter after it and four digits. -/
theorem skip_unit {a b c d : Char} {n : Nat} (h : hex4? a b c d = some n) (stack : List Frame)
    (isName : Bool) (s : List Char) (rest : Bytes) :
    skip stack (.string isName) (octetsOf ('\\' :: 'u' :: a :: b :: c :: d :: s) ++ rest) =
      skip stack (.string isName) (octetsOf s ++ rest) := by
  obtain ⟨a', ha, h⟩ := Option.bind_eq_some_iff.mp h
  obtain ⟨b', hb, h⟩ := Option.bind_eq_some_iff.mp h
  obtain ⟨c', hc, h⟩ := Option.bind_eq_some_iff.mp h
  obtain ⟨d', hd, -⟩ := Option.bind_eq_some_iff.mp h
  rw [skip_char stack (.escape isName) (by decide) rfl,
    skip_char stack (.hex isName 4) (by decide) rfl,
    skip_char _ _ (lt_of_value? ha) (step_hex ha stack isName 4),
    skip_char _ _ (lt_of_value? hb) (step_hex hb stack isName 3),
    skip_char _ _ (lt_of_value? hc) (step_hex hc stack isName 2),
    skip_char _ _ (lt_of_value? hd) (step_hex hd stack isName 1)]

theorem step_escape {c e : Char} (h : escape? c = some e) (stack : List Frame) (isName : Bool) :
    c.toNat < 128 ∧ step stack (.escape isName) (octet c) = .next stack (.string isName) := by
  have hmem : c ∈ "\"\\/bfnrt".toList := by
    unfold escape? at h
    split_ifs at h with hself hb hf hn hr ht
    · rcases hself with rfl | rfl | rfl <;> decide
    all_goals subst c; decide
  obtain ⟨hascii, hunit, hletter⟩ := forall_mem_of_all (p := fun c => c.toNat < 128 ∧
    (octet c == octet 'u') = false ∧ (octets "\"\\/bfnrt").contains (octet c) = true)
    (by decide) c hmem
  refine ⟨hascii, ?_⟩
  simp only [step, hunit, hletter, Bool.false_eq_true, if_false, if_true]

/-- What stands for a character between quotes is passed over. -/
theorem skip_writesChar {piece : List Char} {c : Char} (h : WritesChar piece c)
    (stack : List Frame) (isName : Bool) (rest : Bytes) :
    skip stack (.string isName) (octetsOf piece ++ rest) = skip stack (.string isName) rest := by
  cases h with
  | plain hquote hescape hcontrol =>
    exact skip_plain (isPlain_of_mem_encodeChar hquote hescape hcontrol) rest
  | letter h =>
    obtain ⟨hc, hstep⟩ := step_escape h stack isName
    rw [skip_char stack (.escape isName) (by decide) rfl, skip_char _ _ hc hstep,
      octetsOf_nil, List.nil_append]
  | unit h _ => exact skip_unit h stack isName [] rest
  | pair hhigh hlow _ _ =>
    rw [skip_unit hhigh, skip_unit hlow, octetsOf_nil, List.nil_append]

theorem skip_writesChars {inner cs : List Char} (h : WritesChars inner cs) (stack : List Frame)
    (isName : Bool) (rest : Bytes) :
    skip stack (.string isName) (octetsOf inner ++ rest) = skip stack (.string isName) rest := by
  induction h with
  | nil => rfl
  | cons hpiece _ ih => rw [octetsOf_append, List.append_assoc, skip_writesChar hpiece, ih]

/-- A string as a value. -/
theorem skip_string {text : List Char} {s : String} (h : WritesString text s) (stack : List Frame)
    (rest : Bytes) : skip stack .value (octetsOf text ++ rest) = resume stack rest := by
  obtain ⟨inner, rfl, hinner⟩ := h
  rw [skip_char stack (.string false) (by decide) rfl, octetsOf_append,
    List.append_assoc, skip_writesChars hinner]
  exact skip_complete rfl rest

/-- A string as a name. -/
theorem skip_name {text : List Char} {s : String} (h : WritesString text s) (stack : List Frame)
    (rest : Bytes) : skip stack .name (octetsOf text ++ rest) = skip stack .colon rest := by
  obtain ⟨inner, rfl, hinner⟩ := h
  rw [skip_char stack (.string true) (by decide) rfl, octetsOf_append,
    List.append_assoc, skip_writesChars hinner]
  exact skip_cons _ _ rfl rest

/-! ### Numerals -/

/-- The octets that may follow a value. -/
def Ends (rest : Bytes) : Prop := ∀ b ∈ rest.head?, b ∈ delimiters.map octet

theorem ends_cons {c : Char} (hc : c ∈ delimiters) (rest : Bytes) : Ends (octet c :: rest) := by
  intro b hb
  obtain rfl := Option.some.inj hb
  exact List.mem_map_of_mem hc

/-- Blanks after a value, and what follows them, end it. -/
theorem ends_blanks {blanks : List Char} (h : IsBlanks blanks) {rest : Bytes} (hrest : Ends rest) :
    Ends (octetsOf blanks ++ rest) := by
  cases blanks with
  | nil => exact hrest
  | cons c blanks =>
    have hblank := h c List.mem_cons_self
    rw [octetsOf_cons (isBlank_octet hblank).1]
    exact ends_cons (mem_delimiters_of_isBlank hblank) _

/-- The modes inside of digits. -/
def digitsModes : List Mode := [.whole, .fraction, .exponent]

/-- The modes in which a number may end. -/
def lastModes : List Mode := .zero :: digitsModes

theorem step_ends {mode : Mode} (hmode : mode ∈ lastModes) (stack : List Frame) {c : Char}
    (hc : c ∈ delimiters) : step stack mode (octet c) = afterNumber stack (octet c) := by
  obtain ⟨hdigit, hpoint, hmark⟩ := forall_mem_of_all (p := fun c => isDigit (octet c) = false ∧
    (octet c == octet '.') = false ∧ (octet c == octet 'e' || octet c == octet 'E') = false)
    (by decide) c hc
  simp only [lastModes, digitsModes, List.mem_cons, List.not_mem_nil, or_false] at hmode
  rcases hmode with rfl | rfl | rfl | rfl <;>
    simp only [step, hdigit, hpoint, hmark, Bool.false_eq_true, if_false]

/-- What ends a number is left to what the scanner is inside of. -/
theorem skip_ends {mode : Mode} (hmode : mode ∈ lastModes) (stack : List Frame) {rest : Bytes}
    (hrest : Ends rest) : skip stack mode rest = resume stack rest := by
  cases rest with
  | nil =>
    simp only [lastModes, digitsModes, List.mem_cons, List.not_mem_nil, or_false] at hmode
    cases stack <;> rcases hmode with rfl | rfl | rfl | rfl <;> rfl
  | cons b rest =>
    obtain ⟨c, hc, rfl⟩ := List.mem_map.mp (hrest b rfl)
    rw [skip, step_ends hmode stack hc]
    cases stack with
    | nil => rfl
    | cons frame stack => rfl

theorem isDigit_octet {c : Char} (h : c.isDigit = true) :
    c.toNat < 128 ∧ isDigit (octet c) = true := by
  have hc : c.toNat < 128 := toNat_lt_of_isAlphanum (by simp [Char.isAlphanum, h])
  have hall := forall_ascii (p := fun c => !c.isDigit || isDigit (octet c)) (by decide +kernel) hc
  exact ⟨hc, by simpa [h] using hall⟩

theorem skip_digits {mode : Mode} (hmode : mode ∈ digitsModes) (stack : List Frame) :
    ∀ {text : List Char}, (∀ c ∈ text, c.isDigit = true) → ∀ rest : Bytes,
      skip stack mode (octetsOf text ++ rest) = skip stack mode rest
  | [], _, rest => rfl
  | c :: text, h, rest => by
    obtain ⟨hc, hdigit⟩ := isDigit_octet (h c List.mem_cons_self)
    have hstep : step stack mode (octet c) = .next stack mode := by
      simp only [digitsModes, List.mem_cons, List.not_mem_nil, or_false] at hmode
      rcases hmode with rfl | rfl | rfl <;> simp only [step, hdigit, if_true]
    rw [skip_char _ _ hc hstep]
    exact skip_digits hmode stack (fun d hd => h d (List.mem_cons_of_mem c hd)) rest

/-- The digits of a numeral, after the octet that has the first of them. -/
theorem skip_writesDigits {text : List Char} {values : List Nat} (h : WritesDigits text values)
    {before mode : Mode} (hmode : mode ∈ digitsModes) {stack : List Frame}
    (hstep : ∀ b, isDigit b = true → step stack before b = .next stack mode) (rest : Bytes) :
    skip stack before (octetsOf text ++ rest) = skip stack mode rest := by
  obtain ⟨c, text, rfl⟩ := List.exists_cons_of_ne_nil h.nonempty
  obtain ⟨hc, hdigit⟩ := isDigit_octet (h.digits c List.mem_cons_self)
  rw [skip_char _ _ hc (hstep _ hdigit)]
  exact skip_digits hmode stack (fun d hd => h.digits d (List.mem_cons_of_mem c hd)) rest

theorem beq_of_isDigit {b : UInt8} {c : Char} (hb : isDigit b = true)
    (hc : isDigit (octet c) = false) : (b == octet c) = false := by
  refine beq_eq_false_iff_ne.mpr ?_
  rintro rfl
  rw [hb] at hc
  cases hc

theorem step_mark (stack : List Frame) (b : UInt8) (hb : isDigit b = true) :
    step stack .mark b = .next stack .exponent := by
  simp only [step, beq_of_isDigit hb (c := '+') (by decide),
    beq_of_isDigit hb (c := '-') (by decide), hb, Bool.or_self, Bool.false_eq_true, if_false, if_true]

theorem step_sign (stack : List Frame) (b : UInt8) (hb : isDigit b = true) :
    step stack .sign b = .next stack .exponent := if_pos hb

theorem step_point (stack : List Frame) (b : UInt8) (hb : isDigit b = true) :
    step stack .point b = .next stack .fraction := if_pos hb

/-- The exponent of a numeral, if there is one, ends it. -/
theorem skip_exponent {text : List Char} {power : Option (Bool × List Nat)}
    (h : WritesExponent text power) {mode : Mode} (hmode : mode ∈ lastModes)
    (hmark : mode ≠ .exponent) (stack : List Frame) {rest : Bytes} (hrest : Ends rest) :
    skip stack mode (octetsOf text ++ rest) = resume stack rest := by
  have hend : skip stack .exponent rest = resume stack rest := skip_ends (by decide) stack hrest
  have hstart {mark : Char} (h : mark = 'e' ∨ mark = 'E') :
      mark.toNat < 128 ∧ step stack mode (octet mark) = .next stack .mark := by
    simp only [lastModes, digitsModes, List.mem_cons, List.not_mem_nil, or_false] at hmode
    rcases h with rfl | rfl <;> rcases hmode with rfl | rfl | rfl | rfl <;>
      first | exact ⟨by decide, rfl⟩ | exact absurd rfl hmark
  cases h with
  | missing => exact skip_ends hmode stack hrest
  | unsigned he hdigits =>
    rw [skip_char _ _ (hstart he).1 (hstart he).2, skip_writesDigits hdigits (by decide)
      (step_mark stack), hend]
  | positive he hdigits =>
    rw [skip_char _ _ (hstart he).1 (hstart he).2, skip_char _ .sign (by decide) rfl,
      skip_writesDigits hdigits (by decide) (step_sign stack), hend]
  | negative he hdigits =>
    rw [skip_char _ _ (hstart he).1 (hstart he).2, skip_char _ .sign (by decide) rfl,
      skip_writesDigits hdigits (by decide) (step_sign stack), hend]

/-- What follows the digits in front, up to the end of the numeral. -/
theorem skip_fraction {fraction exponent : List Char} {values : Option (List Nat)}
    {power : Option (Bool × List Nat)} (h : WritesFraction fraction values)
    (h' : WritesExponent exponent power) {mode : Mode} (hmode : mode = .zero ∨ mode = .whole)
    (stack : List Frame) {rest : Bytes} (hrest : Ends rest) :
    skip stack mode (octetsOf (fraction ++ exponent) ++ rest) = resume stack rest := by
  cases h with
  | missing =>
    rcases hmode with rfl | rfl
    · exact skip_exponent h' (by decide) (by decide) stack hrest
    · exact skip_exponent h' (by decide) (by decide) stack hrest
  | point hdigits =>
    have hpoint : step stack mode (octet '.') = .next stack .point := by
      rcases hmode with rfl | rfl <;> rfl
    rw [List.cons_append, skip_char _ _ (by decide) hpoint, octetsOf_append, List.append_assoc,
      skip_writesDigits hdigits (by decide) (step_point stack)]
    exact skip_exponent h' (by decide) (by decide) stack hrest

/-- The first digit of a numeral, after its sign or without one. -/
theorem step_digit {c : Char} (hc : c.isDigit = true) {mode : Mode}
    (hmode : mode = .value ∨ mode = .minus) (stack : List Frame) :
    step stack mode (octet c) = .next stack (if c = '0' then .zero else .whole) := by
  have hdigit := (isDigit_octet hc).2
  split
  · rename_i hzero
    subst hzero
    rcases hmode with rfl | rfl <;> rfl
  · rename_i hzero
    have hno : (octet c == octet '0') = false :=
      beq_eq_false_iff_ne.mpr (octet_ne (isDigit_octet hc).1 (by decide) hzero)
    rcases hmode with rfl | rfl
    · have hblank : isBlank (octet c) = false := by
        simp only [isBlank, beq_of_isDigit hdigit (c := ' ') (by decide),
          beq_of_isDigit hdigit (c := '\n') (by decide),
          beq_of_isDigit hdigit (c := '\t') (by decide),
          beq_of_isDigit hdigit (c := '\r') (by decide), Bool.or_self]
      simp only [step, startValue, hblank, hno, hdigit,
        beq_of_isDigit hdigit (c := '"') (by decide),
        beq_of_isDigit hdigit (c := '[') (by decide),
        beq_of_isDigit hdigit (c := '\x7b') (by decide),
        beq_of_isDigit hdigit (c := '-') (by decide), Bool.false_eq_true, if_false, if_true]
    · simp only [step, hno, hdigit, Bool.false_eq_true, if_false, if_true]

/-- A numeral as a value. -/
theorem skip_numeral {text : List Char} {t : Numeral} (h : WritesNumeral text t)
    (stack : List Frame) {rest : Bytes} (hrest : Ends rest) :
    skip stack .value (octetsOf text ++ rest) = resume stack rest := by
  cases h with
  | @parts negative whole fraction exponent values _ _ hwhole hleading hfraction hexponent =>
    -- the digits in front are a zero alone, or others
    have hunsigned {mode : Mode} (hmode : mode = .value ∨ mode = .minus) :
        skip stack mode (octetsOf (whole ++ (fraction ++ exponent)) ++ rest) =
          resume stack rest := by
      obtain ⟨c, more, rfl⟩ := List.exists_cons_of_ne_nil hwhole.nonempty
      have hc := hwhole.digits c List.mem_cons_self
      have hmore : ∀ d ∈ more, d.isDigit = true :=
        fun d hd => hwhole.digits d (List.mem_cons_of_mem c hd)
      rw [List.cons_append, skip_char _ _ (isDigit_octet hc).1 (step_digit hc hmode stack)]
      split
      · rename_i hzero
        have hnil : more = [] := by
          rw [hwhole.values, hzero] at hleading
          cases more with
          | nil => rfl
          | cons d more => exact absurd ⟨rfl, by simp⟩ hleading
        subst hnil
        exact skip_fraction hfraction hexponent (.inl rfl) stack hrest
      · rw [octetsOf_append, List.append_assoc, skip_digits (by decide) stack hmore]
        exact skip_fraction hfraction hexponent (.inr rfl) stack hrest
    cases negative with
    | true =>
      have hsign : signText true ++ (whole ++ (fraction ++ exponent)) =
          '-' :: (whole ++ (fraction ++ exponent)) := rfl
      rw [hsign, skip_char stack .minus (by decide) rfl]
      exact hunsigned (.inr rfl)
    | false => exact hunsigned (.inl rfl)

/-! ### Values -/

/-- The scanner passes over the text of the part. -/
def Passes (text : List Char) : Part → Prop
  | .value _ => ∀ (stack : List Frame) {rest : Bytes}, Ends rest →
      skip stack .value (octetsOf text ++ rest) = resume stack rest
  | .items _ => ∀ (outer : List Frame) (rest : Bytes),
      skip (.array :: outer) .value (octetsOf text ++ octet ']' :: rest) = resume outer rest
  | .members _ => ∀ (outer : List Frame) (rest : Bytes),
      skip (.object :: outer) .name (octetsOf text ++ octet '\x7d' :: rest) = resume outer rest

/-- After blanks it is the same whether there was something before it. -/
theorem skip_first {stack : List Frame} {first mode : Mode} (hfirst : StaysOnBlanks stack first)
    (hmode : StaysOnBlanks stack mode) {allowed text : List Char}
    (hsame : ∀ c ∈ allowed, c.toNat < 128 ∧ step stack first (octet c) = step stack mode (octet c))
    (htext : OpensWith allowed text) (rest : Bytes) :
    skip stack first (octetsOf text ++ rest) = skip stack mode (octetsOf text ++ rest) := by
  obtain ⟨blanks, hblanks, hsplit⟩ := exists_skipBlanks text
  obtain ⟨c, more, hopen, hc⟩ := htext
  obtain ⟨hascii, hstep⟩ := hsame c hc
  rw [hsplit, hopen, octetsOf_append, List.append_assoc, hfirst.skip hblanks, hmode.skip hblanks,
    octetsOf_cons hascii, List.cons_append, skip, skip, hstep]

theorem step_opening (stack : List Frame) : ∀ c ∈ openings,
    c.toNat < 128 ∧ step stack .firstItem (octet c) = step stack .value (octet c) := by
  intro c hc
  obtain ⟨hascii, hblank, hclose⟩ := forall_mem_of_all (p := fun c => c.toNat < 128 ∧
    isBlank (octet c) = false ∧ (octet c == octet ']') = false) (by decide) c hc
  refine ⟨hascii, ?_⟩
  simp only [step, hblank, hclose, Bool.false_eq_true, if_false]

/-- A value with blanks around it, inside of something. -/
theorem skip_padded {core text : List Char} {v : Json} (h : Passes core (.value v))
    (hpad : Padded core text) (frame : Frame) (outer : List Frame) {c : Char} (hc : c ∈ delimiters)
    (rest : Bytes) : skip (frame :: outer) .value (octetsOf text ++ octet c :: rest) =
      skip (frame :: outer) .after (octet c :: rest) := by
  obtain ⟨before, after, hbefore, hafter, rfl⟩ := hpad
  rw [octetsOf_append, octetsOf_append, List.append_assoc, List.append_assoc,
    (stays_value _).skip hbefore, h _ (ends_blanks hafter (ends_cons hc rest))]
  exact (stays_after _).skip hafter _

/-- A name with blanks around it, and the colon. -/
theorem skip_paddedName {quoted name : List Char} {key : String} (h : WritesString quoted key)
    (hpad : Padded quoted name) (stack : List Frame) (rest : Bytes) :
    skip stack .name (octetsOf name ++ octet ':' :: rest) = skip stack .value rest := by
  obtain ⟨before, after, hbefore, hafter, rfl⟩ := hpad
  rw [octetsOf_append, octetsOf_append, List.append_assoc, List.append_assoc,
    (stays_name _).skip hbefore, skip_name h, (stays_colon _).skip hafter]
  exact skip_cons _ _ rfl rest

/-- **The scanner passes over what spells a value.** -/
theorem passes {means : Numeral → Number → Prop} {d : Nat} {text : List Char} {part : Part}
    (h : Spells means d text part) : Passes text part := by
  induction h with
  | null =>
    intro stack rest _
    rw [skip_char _ _ (by decide) rfl, skip_char _ _ (by decide) rfl, skip_char _ _ (by decide) rfl]
    exact skip_complete rfl rest
  | yes =>
    intro stack rest _
    rw [skip_char _ _ (by decide) rfl, skip_char _ _ (by decide) rfl, skip_char _ _ (by decide) rfl]
    exact skip_complete rfl rest
  | no =>
    intro stack rest _
    rw [skip_char _ _ (by decide) rfl, skip_char _ _ (by decide) rfl, skip_char _ _ (by decide) rfl,
      skip_char _ _ (by decide) rfl]
    exact skip_complete rfl rest
  | number ht _ => exact fun stack rest hrest => skip_numeral ht stack hrest
  | string hs => exact fun stack rest _ => skip_string hs stack rest
  | noItems hblanks =>
    intro stack rest _
    rw [skip_char (.array :: stack) .firstItem (by decide) rfl,
      octetsOf_append, List.append_assoc, (stays_firstItem _).skip hblanks]
    exact skip_complete rfl rest
  | array hitems ih =>
    intro stack rest _
    rw [skip_char (.array :: stack) .firstItem (by decide) rfl,
      skip_first (stays_firstItem _) (stays_value _) (step_opening _)
        (hitems.items_opensWith [']']), octetsOf_append, List.append_assoc]
    exact ih stack rest
  | noMembers hblanks =>
    intro stack rest _
    rw [skip_char (.object :: stack) .firstName (by decide) rfl,
      octetsOf_append, List.append_assoc, (stays_firstName _).skip hblanks]
    exact skip_complete rfl rest
  | object hmembers ih =>
    intro stack rest _
    have hsame : ∀ c ∈ ['"'], c.toNat < 128 ∧
        step (.object :: stack) .firstName (octet c) = step (.object :: stack) .name (octet c) := by
      intro c hc
      rw [List.mem_singleton.mp hc]
      exact ⟨by decide, rfl⟩
    rw [skip_char (.object :: stack) .firstName (by decide) rfl,
      skip_first (stays_firstName _) (stays_name _) hsame (hmembers.members_opensWith ['\x7d']),
      octetsOf_append, List.append_assoc]
    exact ih stack rest
  | lastItem _ hpad ih =>
    intro outer rest
    rw [skip_padded ih hpad _ _ (by decide)]
    exact skip_complete rfl rest
  | item _ hpad _ ih ihmore =>
    intro outer rest
    rw [octetsOf_append, octetsOf_cons (by decide), List.append_assoc, List.cons_append,
      skip_padded ih hpad _ _ (by decide), skip_cons _ .value rfl]
    exact ihmore outer rest
  | lastMember hname hpad' _ hpad ih =>
    intro outer rest
    rw [octetsOf_append, octetsOf_cons (by decide), List.append_assoc, List.cons_append,
      skip_paddedName hname hpad', skip_padded ih hpad _ _ (by decide)]
    exact skip_complete rfl rest
  | member hname hpad' _ hpad _ ih ihmore =>
    intro outer rest
    rw [octetsOf_append, octetsOf_cons (by decide), List.append_assoc, List.cons_append,
      skip_paddedName hname hpad', octetsOf_append, octetsOf_cons (by decide), List.append_assoc,
      List.cons_append, skip_padded ih hpad _ _ (by decide), skip_cons _ .name rfl]
    exact ihmore outer rest

end Scan

/-! ### Pieces -/

variable {means : Numeral → Number → Prop}

/-- The octets are the text of the value, with no blanks around it. -/
def IsPiece (means : Numeral → Number → Prop) (d : Nat) (piece : Bytes) (v : Json) : Prop :=
  ∃ core, piece = octetsOf core ∧ Spells means d core (.value v)

/-- The octets are the texts of the name and of the value. -/
def IsEntry (means : Numeral → Number → Prop) (d : Nat) (piece : Bytes × Bytes)
    (entry : String × Json) : Prop :=
  (∃ quoted, piece.1 = octetsOf quoted ∧ WritesString quoted entry.1) ∧
    IsPiece means d piece.2 entry.2

theorem dropBlanks {blanks : List Char} (h : IsBlanks blanks) {b : UInt8}
    (hb : Scan.isBlank b = false) (rest : Bytes) :
    (octetsOf blanks ++ b :: rest).dropWhile Scan.isBlank = b :: rest := by
  induction blanks with
  | nil => simp [hb]
  | cons c blanks ih =>
    obtain ⟨hc, hblank⟩ := Scan.isBlank_octet (h c List.mem_cons_self)
    rw [octetsOf_cons hc, List.cons_append, List.dropWhile_cons_of_pos hblank]
    exact ih fun d hd => h d (List.mem_cons_of_mem c hd)

/-- What has to come next, after blanks. -/
theorem expect_octetsOf {blanks : List Char} (h : IsBlanks blanks) {c : Char}
    (hblank : Scan.isBlank (Scan.octet c) = false) (wanted : Char) (rest : Bytes) :
    expect wanted (octetsOf blanks ++ Scan.octet c :: rest) =
      if Scan.octet c == Scan.octet wanted then some rest else none := by
  unfold expect
  rw [dropBlanks h hblank]

/-- What the scanner passes over, with blanks around it, comes apart from what follows. -/
theorem splitValue_octetsOf {core text : List Char} (hpad : Padded core text)
    (hopen : ∃ c more, core = c :: more ∧ c ∈ openings) {c : Char}
    (hblank : Scan.isBlank (Scan.octet c) = false) (rest : Bytes)
    (hskip : ∀ {after}, IsBlanks after → Scan.skip [] .value
      (octetsOf core ++ (octetsOf after ++ Scan.octet c :: rest)) =
        some (octetsOf after ++ Scan.octet c :: rest)) :
    ∃ left, splitValue (octetsOf text ++ Scan.octet c :: rest) = some (octetsOf core, left) ∧
      ∀ wanted, expect wanted left =
        if Scan.octet c == Scan.octet wanted then some rest else none := by
  obtain ⟨before, after, hbefore, hafter, rfl⟩ := hpad
  refine ⟨_, ?_, fun wanted => expect_octetsOf hafter hblank wanted rest⟩
  have hskip := hskip hafter
  obtain ⟨first, more, rfl, hfirst⟩ := hopen
  obtain ⟨hascii, hstart⟩ := forall_mem_of_all (p := fun c => c.toNat < 128 ∧
    Scan.isBlank (Scan.octet c) = false) (by decide) first hfirst
  have hdrop := dropBlanks hbefore hstart
    (octetsOf more ++ (octetsOf after ++ Scan.octet c :: rest))
  rw [← List.cons_append, ← octetsOf_cons hascii] at hdrop
  rw [octetsOf_append, octetsOf_append, List.append_assoc, List.append_assoc]
  unfold splitValue
  rw [hdrop]
  simp only [hskip, Option.bind_eq_bind, Option.bind_some, List.length_append, Nat.add_sub_cancel,
    List.take_left']
  rfl

theorem splitValue_value {d : Nat} {core text : List Char} {v : Json} (hpad : Padded core text)
    (h : Spells means d core (.value v)) {c : Char} (hc : c ∈ delimiters)
    (hblank : Scan.isBlank (Scan.octet c) = false) (rest : Bytes) :
    ∃ left, splitValue (octetsOf text ++ Scan.octet c :: rest) = some (octetsOf core, left) ∧
      ∀ wanted, expect wanted left =
        if Scan.octet c == Scan.octet wanted then some rest else none := by
  refine splitValue_octetsOf hpad h.exists_cons hblank rest fun hafter => ?_
  exact Scan.passes h [] (Scan.ends_blanks hafter (Scan.ends_cons hc rest))

theorem splitValue_name {quoted name : List Char} {key : String} (hpad : Padded quoted name)
    (h : WritesString quoted key) (rest : Bytes) :
    ∃ left, splitValue (octetsOf name ++ Scan.octet ':' :: rest) = some (octetsOf quoted, left) ∧
      expect ':' left = some rest := by
  have hopen : ∃ c more, quoted = c :: more ∧ c ∈ openings := by
    obtain ⟨inner, rfl, -⟩ := h
    exact ⟨_, _, rfl, by decide⟩
  obtain ⟨left, hsplit, hexpect⟩ := splitValue_octetsOf (c := ':') hpad hopen (by decide) rest
    fun _ => Scan.skip_string h [] _
  exact ⟨left, hsplit, hexpect ':'⟩

/-- The text comes apart into what it is made of. -/
def ComesApart (means : Numeral → Number → Prop) (d : Nat) (text : List Char) : Part → Prop
  | .value _ => True
  | .items vs => ∃ pieces, List.Forall₂ (IsPiece means d) pieces vs ∧
      ∀ (fuel : Nat) (rest : Bytes), text.length < fuel →
        splitItemsFrom fuel (octetsOf text ++ Scan.octet ']' :: rest) = some (pieces, rest)
  | .members entries => ∃ pieces, List.Forall₂ (IsEntry means d) pieces entries ∧
      ∀ (fuel : Nat) (rest : Bytes), text.length < fuel →
        splitMembersFrom fuel (octetsOf text ++ Scan.octet '\x7d' :: rest) = some (pieces, rest)

theorem Spells.comesApart {d : Nat} {text : List Char} {part : Part}
    (h : Spells means d text part) : ComesApart means d text part := by
  induction h with
  | null => trivial
  | yes => trivial
  | no => trivial
  | number => trivial
  | string => trivial
  | noItems => trivial
  | array => trivial
  | noMembers => trivial
  | object => trivial
  | @lastItem d core text v hcore hpad _ =>
    refine ⟨[octetsOf core], .cons ⟨core, rfl, hcore⟩ .nil, fun fuel rest hfuel => ?_⟩
    obtain ⟨fuel, rfl⟩ := Nat.exists_eq_succ_of_ne_zero (Nat.ne_zero_of_lt hfuel)
    obtain ⟨left, hsplit, hexpect⟩ := splitValue_value (c := ']') hpad hcore (by decide) (by decide)
      rest
    rw [splitItemsFrom, hsplit]
    simp only [Option.bind_eq_bind, Option.bind_some, hexpect]
    rfl
  | @item d core text more v vs hcore hpad _ _ ihmore =>
    obtain ⟨pieces, hpieces, hmore⟩ := ihmore
    refine ⟨octetsOf core :: pieces, .cons ⟨core, rfl, hcore⟩ hpieces, fun fuel rest hfuel => ?_⟩
    obtain ⟨fuel, rfl⟩ := Nat.exists_eq_succ_of_ne_zero (Nat.ne_zero_of_lt hfuel)
    simp only [List.length_append, List.length_cons] at hfuel
    obtain ⟨left, hsplit, hexpect⟩ := splitValue_value (c := ',') hpad hcore (by decide) (by decide)
      (octetsOf more ++ Scan.octet ']' :: rest)
    rw [octetsOf_append, octetsOf_cons (by decide), List.append_assoc, List.cons_append,
      splitItemsFrom, hsplit]
    simp only [Option.bind_eq_bind, Option.bind_some, hexpect, beq_self_eq_true, if_true]
    rw [hmore fuel rest (by omega)]
    rfl
  | @lastMember d quoted name core text key v hname hpad' hcore hpad _ =>
    refine ⟨[(octetsOf quoted, octetsOf core)],
      .cons ⟨⟨quoted, rfl, hname⟩, core, rfl, hcore⟩ .nil, fun fuel rest hfuel => ?_⟩
    obtain ⟨fuel, rfl⟩ := Nat.exists_eq_succ_of_ne_zero (Nat.ne_zero_of_lt hfuel)
    obtain ⟨afterName, hsplitName, hcolon⟩ := splitValue_name hpad' hname
      (octetsOf text ++ Scan.octet '\x7d' :: rest)
    obtain ⟨left, hsplit, hexpect⟩ := splitValue_value (c := '\x7d') hpad hcore (by decide)
      (by decide) rest
    rw [octetsOf_append, octetsOf_cons (by decide), List.append_assoc, List.cons_append,
      splitMembersFrom, hsplitName]
    simp only [Option.bind_eq_bind, Option.bind_some, hcolon, hsplit, hexpect]
    rfl
  | @member d quoted name core text more key v entries hname hpad' hcore hpad _ _ ihmore =>
    obtain ⟨pieces, hpieces, hmore⟩ := ihmore
    refine ⟨(octetsOf quoted, octetsOf core) :: pieces,
      .cons ⟨⟨quoted, rfl, hname⟩, core, rfl, hcore⟩ hpieces, fun fuel rest hfuel => ?_⟩
    obtain ⟨fuel, rfl⟩ := Nat.exists_eq_succ_of_ne_zero (Nat.ne_zero_of_lt hfuel)
    simp only [List.length_append, List.length_cons] at hfuel
    obtain ⟨afterName, hsplitName, hcolon⟩ := splitValue_name hpad' hname
      (octetsOf text ++ Scan.octet ',' :: (octetsOf more ++ Scan.octet '\x7d' :: rest))
    obtain ⟨left, hsplit, hexpect⟩ := splitValue_value (c := ',') hpad hcore (by decide)
      (by decide) (octetsOf more ++ Scan.octet '\x7d' :: rest)
    simp only [octetsOf_append, octetsOf_cons (c := ':') (by decide),
      octetsOf_cons (c := ',') (by decide), List.append_assoc, List.cons_append]
    rw [splitMembersFrom, hsplitName]
    simp only [Option.bind_eq_bind, Option.bind_some, hcolon, hsplit, hexpect, beq_self_eq_true,
      if_true]
    rw [hmore fuel rest (by omega)]
    rfl

/-- What does not come next. -/
theorem expect_opensWith {allowed text : List Char} (htext : OpensWith allowed text) (wanted : Char)
    (hother : ∀ c ∈ allowed, c.toNat < 128 ∧ Scan.isBlank (Scan.octet c) = false ∧
      (Scan.octet c == Scan.octet wanted) = false) (rest : Bytes) :
    expect wanted (octetsOf text ++ rest) = none := by
  obtain ⟨blanks, hblanks, hsplit⟩ := exists_skipBlanks text
  obtain ⟨c, more, hopen, hc⟩ := htext
  obtain ⟨hascii, hblank, hno⟩ := hother c hc
  rw [hsplit, hopen, octetsOf_append, octetsOf_cons hascii, List.append_assoc, List.cons_append,
    expect_octetsOf hblanks hblank, hno]
  rfl

theorem dropWhile_blanks {blanks : List Char} (h : IsBlanks blanks) :
    ((octetsOf blanks).dropWhile Scan.isBlank).isEmpty = true := by
  induction blanks with
  | nil => rfl
  | cons c blanks ih =>
    obtain ⟨hc, hblank⟩ := Scan.isBlank_octet (h c List.mem_cons_self)
    rw [octetsOf_cons hc, List.dropWhile_cons_of_pos hblank]
    exact ih fun d hd => h d (List.mem_cons_of_mem c hd)

theorem length_le_octetsOf (s : List Char) : s.length ≤ (octetsOf s).length :=
  Utf8.length_le_flatMap s

/-- The octets of a text between brackets, with blanks around them. -/
theorem octetsOf_enclosed {first last : Char} (hfirst : first.toNat < 128)
    (hlast : last.toNat < 128)
    (before text after : List Char) :
    octetsOf (before ++ (first :: (text ++ [last]) ++ after)) =
      octetsOf before ++
        Scan.octet first :: (octetsOf text ++ Scan.octet last :: octetsOf after) := by
  simp [octetsOf_append, octetsOf_cons hfirst, octetsOf_cons hlast]

/-- **An array comes apart into its items.** -/
theorem splitItems_octetsOf {d : Nat} {core text : List Char} {vs : List Json}
    (hpad : Padded core text) (h : Spells means (d + 1) core (.value (array vs))) :
    ∃ pieces, splitItems (octetsOf text) = some pieces ∧
      List.Forall₂ (IsPiece means d) pieces vs := by
  obtain ⟨before, after, hbefore, hafter, rfl⟩ := hpad
  have hend := dropWhile_blanks hafter
  cases h with
  | @noItems _ blanks hblanks =>
    refine ⟨[], ?_, .nil⟩
    rw [octetsOf_enclosed (by decide) (by decide)]
    unfold splitItems
    rw [expect_octetsOf hbefore (by decide)]
    simp only [Option.bind_eq_bind, Option.bind_some, beq_self_eq_true, if_true,
      expect_octetsOf hblanks (c := ']') (by decide), Option.pure_def, hend]
  | @array _ text _ hitems =>
    obtain ⟨pieces, hpieces, hsplit⟩ := hitems.comesApart
    refine ⟨pieces, ?_, hpieces⟩
    have hopen : OpensWith openings text := by simpa using hitems.items_opensWith []
    have hnone := expect_opensWith hopen ']'
      (forall_mem_of_all (p := fun c => c.toNat < 128 ∧ Scan.isBlank (Scan.octet c) = false ∧
        (Scan.octet c == Scan.octet ']') = false) (by decide))
      (Scan.octet ']' :: octetsOf after)
    have hlength := length_le_octetsOf text
    rw [octetsOf_enclosed (by decide) (by decide)]
    unfold splitItems
    rw [expect_octetsOf hbefore (by decide)]
    simp only [Option.bind_eq_bind, Option.bind_some, beq_self_eq_true, if_true, hnone]
    rw [hsplit _ _ (by simp only [List.length_append, List.length_cons]; omega)]
    simp only [Option.bind_some, hend, if_true]

/-- **Members between braces come apart**, as they stand in the text. -/
theorem splitMembers_enclosed {d : Nat} {before text after : List Char}
    {entries : List (String × Json)} (hbefore : IsBlanks before) (hafter : IsBlanks after)
    (h : Spells means d text (.members entries)) :
    ∃ pieces, splitMembers (octetsOf (before ++ ('\x7b' :: (text ++ ['\x7d']) ++ after))) =
      some pieces ∧ List.Forall₂ (IsEntry means d) pieces entries := by
  obtain ⟨pieces, hpieces, hsplit⟩ := h.comesApart
  refine ⟨pieces, ?_, hpieces⟩
  have hopen : OpensWith ['"'] text := by simpa using h.members_opensWith []
  have hnone := expect_opensWith hopen '\x7d'
    (forall_mem_of_all (p := fun c => c.toNat < 128 ∧ Scan.isBlank (Scan.octet c) = false ∧
      (Scan.octet c == Scan.octet '\x7d') = false) (by decide))
    (Scan.octet '\x7d' :: octetsOf after)
  have hlength := length_le_octetsOf text
  rw [octetsOf_enclosed (by decide) (by decide)]
  unfold splitMembers
  rw [expect_octetsOf hbefore (by decide)]
  simp only [Option.bind_eq_bind, Option.bind_some, beq_self_eq_true, if_true, hnone]
  rw [hsplit _ _ (by simp only [List.length_append, List.length_cons]; omega)]
  simp only [Option.bind_some, dropWhile_blanks hafter, if_true]

/-- **An object comes apart into its members**, of which the last of each name count. -/
theorem splitMembers_octetsOf {d : Nat} {core text : List Char} {members : Keyed Json}
    (hpad : Padded core text) (h : Spells means (d + 1) core (.value (object members))) :
    ∃ pieces entries, splitMembers (octetsOf text) = some pieces ∧
      List.Forall₂ (IsEntry means d) pieces entries ∧ members = Keyed.ofList entries := by
  obtain ⟨before, after, hbefore, hafter, rfl⟩ := hpad
  cases h with
  | @noMembers _ blanks hblanks =>
    refine ⟨[], [], ?_, .nil, rfl⟩
    rw [octetsOf_enclosed (by decide) (by decide)]
    unfold splitMembers
    rw [expect_octetsOf hbefore (by decide)]
    simp only [Option.bind_eq_bind, Option.bind_some, beq_self_eq_true, if_true,
      expect_octetsOf hblanks (c := '\x7d') (by decide), Option.pure_def, dropWhile_blanks hafter]
  | @object _ text entries hmembers =>
    obtain ⟨pieces, hsplit, hpieces⟩ := splitMembers_enclosed hbefore hafter hmembers
    exact ⟨pieces, entries, by simpa using hsplit, hpieces, rfl⟩

/-! ### Reading the pieces -/

theorem parse_octetsOf {core : List Char} {v : Json}
    (h : Spells Numeral.Denotes maxDepth core (.value v)) : parse (octetsOf core) = some v := by
  refine parse_eq_some_iff.mpr ⟨String.ofList core, ?_, core, ?_, h⟩
  · rw [← octetsOf_toList, String.toList_ofList]
  · rw [String.toList_ofList]
    exact padded_self core

/-- The text of a value is read as that value. -/
theorem IsPiece.parse_eq {d : Nat} {piece : Bytes} {v : Json}
    (h : IsPiece Numeral.Denotes d piece v) (hd : d ≤ maxDepth) : parse piece = some v := by
  obtain ⟨core, rfl, hspells⟩ := h
  exact parse_octetsOf (hspells.mono hd)

/-- A text is read whatever the numerals elsewhere stand for. -/
theorem IsPiece.parse_string {d : Nat} {piece : Bytes} {s : String}
    (h : IsPiece means d piece (string s)) : parse piece = some (string s) := by
  obtain ⟨core, rfl, hspells⟩ := h
  cases hspells with
  | string hs => exact parse_octetsOf (.string hs)

theorem IsPiece.parse_null {d : Nat} {piece : Bytes} (h : IsPiece means d piece null) :
    parse piece = some null := by
  obtain ⟨core, rfl, hspells⟩ := h
  cases hspells with
  | null => exact parse_octetsOf .null

theorem IsEntry.parse_name {d : Nat} {piece : Bytes × Bytes} {entry : String × Json}
    (h : IsEntry means d piece entry) : parse piece.1 = some (string entry.1) := by
  obtain ⟨⟨quoted, hpiece, hname⟩, -⟩ := h
  rw [hpiece]
  exact parse_octetsOf (.string hname)

end Json
end WorkloadIdentity
