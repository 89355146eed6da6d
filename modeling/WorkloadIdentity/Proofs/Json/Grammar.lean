/-
# What texts spell

The grammar of JSON, with the value that a text stands for (`Json.Spells`). A value has no
blanks around it; its items, and the names and values of its members, may have
(`Json.Padded`). Members are listed as they stand; the object is of the last one of each
name. What a numeral stands for is left open, so that the form of a text can be spoken of
without its numbers.

Reading accepts just what the grammar allows, of numerals that give a number, and gives the
value that is spelled (`Json.parseText_eq_some_iff`). The one half goes by what each reader
leaves of the text, the other by what the grammar puts together.

Key definitions: `Json.Spells`, `Json.Padded`, `Json.Numeral.Denotes`.
Key theorems: `Json.Spells.readsBack`, `Json.findsSpelled`, `Json.parseText_eq_some_iff`,
`Json.parse_eq_some_iff`.
-/
import WorkloadIdentity.Proofs.Json.Token
import WorkloadIdentity.Proofs.Text.Utf8

namespace WorkloadIdentity
namespace Json

/-! ### The grammar -/

/-- The text is of blanks. -/
def IsBlanks (s : List Char) : Prop := ∀ c ∈ s, isBlank c = true

/-- The text is another with blanks around it. -/
def Padded (core text : List Char) : Prop :=
  ∃ before after, IsBlanks before ∧ IsBlanks after ∧ text = before ++ (core ++ after)

/-- What a part of a text spells. -/
inductive Part where
  | value (v : Json)
  /-- The items of an array, of which there is one at least. -/
  | items (vs : List Json)
  /-- The members of an object, of which there is one at least, as they stand. -/
  | members (entries : List (String × Json))

/-- The text spells the part, with arrays and objects nested at most so deep. -/
inductive Spells (means : Numeral → Number → Prop) : Nat → List Char → Part → Prop where
  | null {d : Nat} : Spells means d ['n', 'u', 'l', 'l'] (.value null)
  | yes {d : Nat} : Spells means d ['t', 'r', 'u', 'e'] (.value (bool true))
  | no {d : Nat} : Spells means d ['f', 'a', 'l', 's', 'e'] (.value (bool false))
  | number {d : Nat} {text : List Char} {t : Numeral} {n : Number} :
      WritesNumeral text t → means t n → Spells means d text (.value (number n))
  | string {d : Nat} {text : List Char} {s : String} :
      WritesString text s → Spells means d text (.value (string s))
  | noItems {d : Nat} {blanks : List Char} :
      IsBlanks blanks → Spells means (d + 1) ('[' :: (blanks ++ [']'])) (.value (array []))
  | array {d : Nat} {text : List Char} {vs : List Json} :
      Spells means d text (.items vs) →
      Spells means (d + 1) ('[' :: (text ++ [']'])) (.value (array vs))
  | noMembers {d : Nat} {blanks : List Char} :
      IsBlanks blanks →
      Spells means (d + 1) ('\x7b' :: (blanks ++ ['\x7d'])) (.value (object []))
  | object {d : Nat} {text : List Char} {entries : List (String × Json)} :
      Spells means d text (.members entries) →
      Spells means (d + 1) ('\x7b' :: (text ++ ['\x7d'])) (.value (object (Keyed.ofList entries)))
  | lastItem {d : Nat} {core text : List Char} {v : Json} :
      Spells means d core (.value v) → Padded core text → Spells means d text (.items [v])
  | item {d : Nat} {core text more : List Char} {v : Json} {vs : List Json} :
      Spells means d core (.value v) → Padded core text → Spells means d more (.items vs) →
      Spells means d (text ++ ',' :: more) (.items (v :: vs))
  | lastMember {d : Nat} {quoted name core text : List Char} {key : String} {v : Json} :
      WritesString quoted key → Padded quoted name → Spells means d core (.value v) →
      Padded core text → Spells means d (name ++ ':' :: text) (.members [(key, v)])
  | member {d : Nat} {quoted name core text more : List Char} {key : String} {v : Json}
      {entries : List (String × Json)} :
      WritesString quoted key → Padded quoted name → Spells means d core (.value v) →
      Padded core text → Spells means d more (.members entries) →
      Spells means d (name ++ ':' :: (text ++ ',' :: more)) (.members ((key, v) :: entries))

variable {means : Numeral → Number → Prop}

/-- What may be nested so deep may be nested deeper. -/
theorem Spells.mono {d : Nat} {text : List Char} {part : Part} (h : Spells means d text part) :
    ∀ {d' : Nat}, d ≤ d' → Spells means d' text part := by
  induction h with
  | null => exact fun _ => .null
  | yes => exact fun _ => .yes
  | no => exact fun _ => .no
  | number ht hn => exact fun _ => .number ht hn
  | string hs => exact fun _ => .string hs
  | noItems hblanks =>
    intro d' hle
    obtain ⟨d', rfl⟩ := Nat.exists_eq_add_of_lt hle
    exact .noItems hblanks
  | array _ ih =>
    intro d' hle
    obtain ⟨k, rfl⟩ := Nat.exists_eq_add_of_lt hle
    exact .array (ih (Nat.le_add_right _ _))
  | noMembers hblanks =>
    intro d' hle
    obtain ⟨d', rfl⟩ := Nat.exists_eq_add_of_lt hle
    exact .noMembers hblanks
  | object _ ih =>
    intro d' hle
    obtain ⟨k, rfl⟩ := Nat.exists_eq_add_of_lt hle
    exact .object (ih (Nat.le_add_right _ _))
  | lastItem _ hpad ih => exact fun hle => .lastItem (ih hle) hpad
  | item _ hpad _ ih ihmore => exact fun hle => .item (ih hle) hpad (ihmore hle)
  | lastMember hname hpad' _ hpad ih => exact fun hle => .lastMember hname hpad' (ih hle) hpad
  | member hname hpad' _ hpad _ ih ihmore =>
    exact fun hle => .member hname hpad' (ih hle) hpad (ihmore hle)

/-! ### Blanks -/

theorem isBlanks_nil : IsBlanks [] := by
  intro c hc
  cases hc

theorem padded_self (core : List Char) : Padded core core :=
  ⟨[], [], isBlanks_nil, isBlanks_nil, by simp⟩

theorem skipBlanks_append {blanks : List Char} (h : IsBlanks blanks) (s : List Char) :
    skipBlanks (blanks ++ s) = skipBlanks s := List.dropWhile_append_of_pos h

theorem skipBlanks_cons {c : Char} {s : List Char} (h : isBlank c = false) :
    skipBlanks (c :: s) = c :: s := by
  simp [skipBlanks, h]

/-- What a text starts with before it comes to something else than a blank. -/
theorem exists_skipBlanks (s : List Char) :
    ∃ blanks, IsBlanks blanks ∧ s = blanks ++ skipBlanks s :=
  ⟨s.takeWhile isBlank, fun _ hc => List.mem_takeWhile_imp hc,
    List.takeWhile_append_dropWhile.symm⟩

theorem mem_delimiters_of_isBlank {c : Char} (h : isBlank c = true) : c ∈ delimiters := by
  have hcases : c = ' ' ∨ c = '\n' ∨ c = '\t' ∨ c = '\r' := by
    simpa only [isBlank, Bool.or_eq_true, beq_iff_eq, or_assoc] using h
  rcases hcases with rfl | rfl | rfl | rfl <;> decide

/-- Blanks after a value, and what follows them, end it. -/
theorem IsBlanks.ends {blanks : List Char} (h : IsBlanks blanks) {rest : List Char}
    (hrest : Ends rest) : Ends (blanks ++ rest) := by
  cases blanks with
  | nil => exact hrest
  | cons c blanks => exact ends_cons (mem_delimiters_of_isBlank (h c List.mem_cons_self))

theorem readValue_skipBlanks {fuel depth : Nat} {s s' : List Char}
    (h : skipBlanks s = skipBlanks s') :
    readValue fuel depth s = readValue fuel depth s' := by
  cases fuel with
  | zero => rw [readValue, readValue]
  | succ fuel => rw [readValue, readValue, h]

/-! ### What values start with -/

/-- The characters that values start with. -/
def openings : List Char := "ntf\"[\x7b-0123456789".toList

theorem not_isBlank_of_mem_openings {c : Char} (h : c ∈ openings) : isBlank c = false :=
  forall_mem_of_all (p := fun c => isBlank c = false) (by decide) c h

theorem mem_openings_of_isDigit {c : Char} (h : c.isDigit = true) : c ∈ openings := by
  have hc : c.toNat < 128 := toNat_lt_of_isAlphanum (by simp [Char.isAlphanum, h])
  have hall := forall_ascii (p := fun c => !c.isDigit || openings.contains c) (by decide +kernel) hc
  simpa [h] using hall

/-- A numeral starts with a minus or a digit. -/
theorem WritesNumeral.exists_cons {text : List Char} {t : Numeral} (h : WritesNumeral text t) :
    ∃ c rest, text = c :: rest ∧ (c = '-' ∨ c.isDigit = true) := by
  cases h with
  | @parts negative whole fraction exponent _ _ _ hwhole _ _ _ =>
    cases negative with
    | true => exact ⟨'-', _, rfl, .inl rfl⟩
    | false =>
      obtain ⟨c, rest, rfl, hc⟩ := hwhole.exists_cons
      exact ⟨c, _, rfl, .inr hc⟩

theorem Spells.exists_cons {d : Nat} {text : List Char} {v : Json}
    (h : Spells means d text (.value v)) : ∃ c rest, text = c :: rest ∧ c ∈ openings := by
  cases h with
  | null => exact ⟨_, _, rfl, by decide⟩
  | yes => exact ⟨_, _, rfl, by decide⟩
  | no => exact ⟨_, _, rfl, by decide⟩
  | number ht _ =>
    obtain ⟨c, rest, rfl, rfl | hc⟩ := ht.exists_cons
    · exact ⟨_, _, rfl, by decide⟩
    · exact ⟨_, _, rfl, mem_openings_of_isDigit hc⟩
  | string hs =>
    obtain ⟨inner, rfl, -⟩ := hs
    exact ⟨_, _, rfl, by decide⟩
  | noItems => exact ⟨_, _, rfl, by decide⟩
  | array => exact ⟨_, _, rfl, by decide⟩
  | noMembers => exact ⟨_, _, rfl, by decide⟩
  | object => exact ⟨_, _, rfl, by decide⟩

/-- After its blanks the text starts with one of these characters. -/
def OpensWith (allowed : List Char) (text : List Char) : Prop :=
  ∃ c rest, skipBlanks text = c :: rest ∧ c ∈ allowed

theorem Padded.opensWith {core text rest : List Char} {c : Char} {allowed : List Char}
    (h : Padded (c :: core) text) (hc : c ∈ allowed) (hblank : isBlank c = false) :
    OpensWith allowed (text ++ rest) := by
  obtain ⟨before, after, hbefore, -, rfl⟩ := h
  refine ⟨c, core ++ (after ++ rest), ?_, hc⟩
  simp only [List.append_assoc]
  rw [skipBlanks_append hbefore]
  exact skipBlanks_cons hblank

theorem Spells.items_opensWith {d : Nat} {text : List Char} {vs : List Json} (rest : List Char)
    (h : Spells means d text (.items vs)) : OpensWith openings (text ++ rest) := by
  cases h with
  | lastItem hv hpad =>
    obtain ⟨c, core, rfl, hc⟩ := hv.exists_cons
    exact hpad.opensWith hc (not_isBlank_of_mem_openings hc)
  | item hv hpad _ =>
    obtain ⟨c, core, rfl, hc⟩ := hv.exists_cons
    rw [List.append_assoc]
    exact hpad.opensWith hc (not_isBlank_of_mem_openings hc)

theorem Spells.members_opensWith {d : Nat} {text : List Char} {entries : List (String × Json)}
    (rest : List Char) (h : Spells means d text (.members entries)) :
    OpensWith ['"'] (text ++ rest) := by
  cases h with
  | lastMember hname hpad _ _ =>
    obtain ⟨inner, rfl, -⟩ := hname
    rw [List.append_assoc]
    exact hpad.opensWith (by decide) (by decide)
  | member hname hpad _ _ _ =>
    obtain ⟨inner, rfl, -⟩ := hname
    rw [List.append_assoc]
    exact hpad.opensWith (by decide) (by decide)

/-! ### What is spelled is read -/

/-- The numeral gives the number. -/
def Numeral.Denotes (t : Numeral) (n : Number) : Prop := t.value? = some n

/-- The text is read to its end as the part that it spells. -/
def ReadsBack (d : Nat) (text : List Char) : Part → Prop
  | .value v => ∀ {fuel : Nat} {rest : List Char}, text.length ≤ fuel → Ends rest →
      readValue fuel d (text ++ rest) = some (v, rest)
  | .items vs => ∀ {fuel : Nat} (done : List Json) (rest : List Char), text.length < fuel →
      readItems fuel d done (text ++ ']' :: rest) = some (array (done.reverse ++ vs), rest)
  | .members entries => ∀ {fuel : Nat} (done : Keyed Json) (rest : List Char),
      text.length < fuel → readMembers fuel d done (text ++ '\x7d' :: rest) =
        some (object (Keyed.insertAll done entries), rest)

theorem readValue_number {fuel d : Nat} {text rest : List Char} {t : Numeral} {n : Number}
    (ht : WritesNumeral text t) (hn : t.Denotes n) (hrest : Ends rest) :
    readValue (fuel + 1) d (text ++ rest) = some (number n, rest) := by
  have hread := readNumeral_append ht hrest
  obtain ⟨c, s, rfl, hc⟩ := ht.exists_cons
  have hopening : c ∈ openings := by
    rcases hc with rfl | hc
    · decide
    · exact mem_openings_of_isDigit hc
  rw [List.cons_append] at hread ⊢
  unfold readValue
  rw [skipBlanks_cons (not_isBlank_of_mem_openings hopening)]
  have hno {x : Char} (hx : (x == '-' || x.isDigit) = false) {a b : List Char}
      (h : c :: a = x :: b) : False := by
    obtain ⟨rfl, -⟩ := List.cons.inj h
    rcases hc with rfl | hc
    · cases hx
    · simp [hc] at hx
  split
  · rename_i h; exact (hno (by decide) h).elim
  · rename_i h; exact (hno (by decide) h).elim
  · rename_i h; exact (hno (by decide) h).elim
  · rename_i h; exact (hno (by decide) h).elim
  · rename_i h; exact (hno (by decide) h).elim
  · rename_i h; exact (hno (by decide) h).elim
  · rw [hread]
    simp only [Numeral.Denotes, Option.bind_eq_bind, Option.bind_some] at hn ⊢
    rw [hn]
    rfl

/-- A value with blanks around it is read, and what comes next is what the blanks end with. -/
theorem readValue_padded {fuel d : Nat} {core text : List Char} {v : Json} {c : Char}
    (h : ReadsBack d core (.value v)) (hpad : Padded core text) (hfuel : text.length ≤ fuel)
    (hc : c ∈ delimiters) (hblank : isBlank c = false) (rest : List Char) :
    ∃ left, readValue fuel d (text ++ c :: rest) = some (v, left) ∧
      skipBlanks left = c :: rest := by
  obtain ⟨before, after, hbefore, hafter, rfl⟩ := hpad
  refine ⟨after ++ c :: rest, ?_, ?_⟩
  · have hskip : skipBlanks (before ++ (core ++ after) ++ c :: rest) =
        skipBlanks (core ++ (after ++ c :: rest)) := by
      simp only [List.append_assoc]
      exact skipBlanks_append hbefore _
    rw [readValue_skipBlanks hskip]
    refine h ?_ (hafter.ends (ends_cons hc))
    simp only [List.length_append] at hfuel
    omega
  · rw [skipBlanks_append hafter, skipBlanks_cons hblank]

/-- A name with blanks around it is read, and what comes next is the colon. -/
theorem readName_padded {quoted name : List Char} {key : String} (h : WritesString quoted key)
    (hpad : Padded quoted name) (rest : List Char) :
    ∃ inner left, skipBlanks (name ++ ':' :: rest) = '"' :: inner ∧
      readString [] inner = some (key, left) ∧ skipBlanks left = ':' :: rest := by
  obtain ⟨inner, rfl, hinner⟩ := h
  obtain ⟨before, after, hbefore, hafter, rfl⟩ := hpad
  refine ⟨inner ++ '"' :: (after ++ ':' :: rest), after ++ ':' :: rest, ?_, ?_, ?_⟩
  · simp only [List.append_assoc, List.cons_append, List.nil_append]
    rw [skipBlanks_append hbefore, skipBlanks_cons (by decide)]
  · rw [readString_of_writesChars hinner]
    simp
  · rw [skipBlanks_append hafter, skipBlanks_cons (by decide)]

/-- A value takes a character at least, and with it a step of the reader. -/
theorem readsBack_value {d : Nat} {c : Char} {text : List Char} {v : Json}
    (h : ∀ (fuel : Nat) (rest : List Char), text.length ≤ fuel → Ends rest →
      readValue (fuel + 1) d (c :: (text ++ rest)) = some (v, rest)) :
    ReadsBack d (c :: text) (.value v) := by
  intro fuel rest hfuel hrest
  obtain ⟨fuel, rfl⟩ := Nat.exists_eq_add_of_lt hfuel
  rw [List.length_cons] at hfuel
  exact h _ rest (by omega) hrest

/-- **What is spelled is read.** -/
theorem Spells.readsBack {d : Nat} {text : List Char} {part : Part}
    (h : Spells Numeral.Denotes d text part) : ReadsBack d text part := by
  induction h with
  | null => exact readsBack_value fun fuel rest _ _ => rfl
  | yes => exact readsBack_value fun fuel rest _ _ => rfl
  | no => exact readsBack_value fun fuel rest _ _ => rfl
  | number ht hn =>
    obtain ⟨c, text, rfl, -⟩ := ht.exists_cons
    exact readsBack_value fun fuel rest _ hrest => readValue_number ht hn hrest
  | string hs =>
    obtain ⟨inner, rfl, hinner⟩ := hs
    refine readsBack_value fun fuel rest _ _ => ?_
    have hread := readString_of_writesChars hinner [] rest
    rw [List.append_assoc, List.singleton_append, readValue, skipBlanks_cons (by decide)]
    simp only [hread, Option.map_some, List.reverse_nil, List.nil_append, String.ofList_toList]
  | noItems hblanks =>
    refine readsBack_value fun fuel rest _ _ => ?_
    rw [List.append_assoc, List.singleton_append, readValue, skipBlanks_cons (by decide)]
    simp only [skipBlanks_append hblanks, skipBlanks_cons (c := ']') (by decide)]
  | array hitems ih =>
    refine readsBack_value fun fuel rest hfuel _ => ?_
    obtain ⟨c, tail, hopen, hc⟩ := hitems.items_opensWith (']' :: rest)
    rw [List.length_append] at hfuel
    rw [List.append_assoc, List.singleton_append, readValue, skipBlanks_cons (by decide)]
    simp only [hopen]
    split
    · rename_i heq
      obtain ⟨rfl, -⟩ := List.cons.inj heq
      exact absurd hc (by decide)
    · exact ih [] rest hfuel
  | noMembers hblanks =>
    refine readsBack_value fun fuel rest _ _ => ?_
    rw [List.append_assoc, List.singleton_append, readValue, skipBlanks_cons (by decide)]
    simp only [skipBlanks_append hblanks, skipBlanks_cons (c := '\x7d') (by decide)]
  | object hmembers ih =>
    refine readsBack_value fun fuel rest hfuel _ => ?_
    obtain ⟨c, tail, hopen, hc⟩ := hmembers.members_opensWith ('\x7d' :: rest)
    rw [List.length_append] at hfuel
    rw [List.append_assoc, List.singleton_append, readValue, skipBlanks_cons (by decide)]
    simp only [hopen]
    split
    · rename_i heq
      obtain ⟨rfl, -⟩ := List.cons.inj heq
      exact absurd hc (by decide)
    · exact ih [] rest hfuel
  | lastItem _ hpad ih =>
    intro fuel done rest hfuel
    obtain ⟨fuel, rfl⟩ := Nat.exists_eq_succ_of_ne_zero (Nat.ne_zero_of_lt hfuel)
    obtain ⟨left, hread, hleft⟩ := readValue_padded (c := ']') ih hpad
      (Nat.le_of_lt_succ hfuel) (by decide) (by decide) rest
    rw [readItems, hread]
    simp only [hleft, List.reverse_cons]
  | @item _ _ _ more v vs _ hpad _ ih ihmore =>
    intro fuel done rest hfuel
    obtain ⟨fuel, rfl⟩ := Nat.exists_eq_succ_of_ne_zero (Nat.ne_zero_of_lt hfuel)
    simp only [List.length_append, List.length_cons] at hfuel
    obtain ⟨left, hread, hleft⟩ := readValue_padded (c := ',') ih hpad
      (show _ ≤ fuel by omega) (by decide) (by decide) (more ++ ']' :: rest)
    rw [List.append_assoc, List.cons_append, readItems, hread]
    simp only [hleft]
    rw [ihmore (v :: done) rest (by omega)]
    simp
  | @lastMember _ _ name core text key v hname hpad' _ hpad ih =>
    intro fuel done rest hfuel
    obtain ⟨fuel, rfl⟩ := Nat.exists_eq_succ_of_ne_zero (Nat.ne_zero_of_lt hfuel)
    simp only [List.length_append, List.length_cons] at hfuel
    obtain ⟨inner, afterName, hstart, hname, hcolon⟩ :=
      readName_padded hname hpad' (text ++ '\x7d' :: rest)
    obtain ⟨left, hread, hleft⟩ := readValue_padded (c := '\x7d') ih hpad
      (show _ ≤ fuel by omega) (by decide) (by decide) rest
    rw [List.append_assoc, List.cons_append, readMembers, hstart]
    simp only [hname, hcolon, hread, hleft]
    rfl
  | @member _ _ name core text more key v entries hname hpad' _ hpad _ ih ihmore =>
    intro fuel done rest hfuel
    obtain ⟨fuel, rfl⟩ := Nat.exists_eq_succ_of_ne_zero (Nat.ne_zero_of_lt hfuel)
    simp only [List.length_append, List.length_cons] at hfuel
    obtain ⟨inner, afterName, hstart, hname, hcolon⟩ :=
      readName_padded hname hpad' (text ++ ',' :: (more ++ '\x7d' :: rest))
    obtain ⟨left, hread, hleft⟩ := readValue_padded (c := ',') ih hpad
      (show _ ≤ fuel by omega) (by decide) (by decide) (more ++ '\x7d' :: rest)
    simp only [List.append_assoc, List.cons_append]
    rw [readMembers, hstart]
    simp only [hname, hcolon, hread, hleft]
    exact ihmore (Keyed.insert key v done) rest (by omega)

/-! ### What is read is spelled -/

/-- What the readers take off the front of a text spells what they give. -/
structure FindsSpelled (fuel : Nat) : Prop where
  value : ∀ {d s v rest}, readValue fuel d s = some (v, rest) →
    ∃ before core, IsBlanks before ∧ s = before ++ (core ++ rest) ∧
      Spells Numeral.Denotes d core (.value v)
  items : ∀ {d done s v rest}, readItems fuel d done s = some (v, rest) →
    ∃ text vs, s = text ++ ']' :: rest ∧ v = array (done.reverse ++ vs) ∧
      Spells Numeral.Denotes d text (.items vs)
  members : ∀ {d done s v rest}, readMembers fuel d done s = some (v, rest) →
    ∃ text entries, s = text ++ '\x7d' :: rest ∧ v = object (Keyed.insertAll done entries) ∧
      Spells Numeral.Denotes d text (.members entries)

theorem readValue_finds {fuel d : Nat} {s rest : List Char} {v : Json} (ih : FindsSpelled fuel)
    (h : readValue (fuel + 1) d s = some (v, rest)) :
    ∃ before core, IsBlanks before ∧ s = before ++ (core ++ rest) ∧
      Spells Numeral.Denotes d core (.value v) := by
  obtain ⟨before, hbefore, hs⟩ := exists_skipBlanks s
  unfold readValue at h
  generalize skipBlanks s = s' at h hs
  suffices hcore : ∃ core, s' = core ++ rest ∧ Spells Numeral.Denotes d core (.value v) by
    obtain ⟨core, rfl, hspells⟩ := hcore
    exact ⟨before, core, hbefore, hs, hspells⟩
  split at h
  · obtain ⟨rfl, rfl⟩ := Prod.mk.inj (Option.some.inj h)
    exact ⟨_, rfl, .null⟩
  · obtain ⟨rfl, rfl⟩ := Prod.mk.inj (Option.some.inj h)
    exact ⟨_, rfl, .yes⟩
  · obtain ⟨rfl, rfl⟩ := Prod.mk.inj (Option.some.inj h)
    exact ⟨_, rfl, .no⟩
  · obtain ⟨⟨text, left⟩, hstring, h⟩ := Option.map_eq_some_iff.mp h
    obtain ⟨rfl, rfl⟩ := Prod.mk.inj h
    obtain ⟨inner, cs, rfl, hinner, rfl⟩ := continues_of_readString hstring
    exact ⟨'"' :: (inner ++ ['"']), by simp, .string ⟨inner, rfl, by simpa using hinner⟩⟩
  · rename_i after
    split at h
    · cases h
    rename_i d
    obtain ⟨blanks, hblanks, hafter⟩ := exists_skipBlanks after
    split at h
    · rename_i hclose
      obtain ⟨rfl, rfl⟩ := Prod.mk.inj (Option.some.inj h)
      rw [hclose] at hafter
      exact ⟨'[' :: (blanks ++ [']']), by simp [hafter], .noItems hblanks⟩
    · obtain ⟨text, vs, rfl, rfl, hitems⟩ := ih.items h
      exact ⟨'[' :: (text ++ [']']), by simp, .array hitems⟩
  · rename_i after
    split at h
    · cases h
    rename_i d
    obtain ⟨blanks, hblanks, hafter⟩ := exists_skipBlanks after
    split at h
    · rename_i hclose
      obtain ⟨rfl, rfl⟩ := Prod.mk.inj (Option.some.inj h)
      rw [hclose] at hafter
      exact ⟨'\x7b' :: (blanks ++ ['\x7d']), by simp [hafter], .noMembers hblanks⟩
    · obtain ⟨text, entries, rfl, rfl, hmembers⟩ := ih.members h
      exact ⟨'\x7b' :: (text ++ ['\x7d']), by simp, .object hmembers⟩
  · obtain ⟨⟨t, left⟩, hnumeral, h⟩ := Option.bind_eq_some_iff.mp h
    obtain ⟨n, hvalue, h⟩ := Option.bind_eq_some_iff.mp h
    obtain ⟨rfl, rfl⟩ := Prod.mk.inj (Option.some.inj h)
    obtain ⟨text, rfl, ht⟩ := exists_writesNumeral hnumeral
    exact ⟨text, rfl, .number ht hvalue⟩

theorem readItems_finds {fuel d : Nat} {done : List Json} {s rest : List Char} {v : Json}
    (ih : FindsSpelled fuel) (h : readItems (fuel + 1) d done s = some (v, rest)) :
    ∃ text vs, s = text ++ ']' :: rest ∧ v = array (done.reverse ++ vs) ∧
      Spells Numeral.Denotes d text (.items vs) := by
  unfold readItems at h
  split at h
  · cases h
  rename_i item left hitem
  obtain ⟨before, core, hbefore, rfl, hcore⟩ := ih.value hitem
  obtain ⟨after, hafter, hleft⟩ := exists_skipBlanks left
  have hpad : Padded core (before ++ (core ++ after)) := ⟨before, after, hbefore, hafter, rfl⟩
  split at h
  · rename_i hcomma
    obtain ⟨more, vs, rfl, rfl, hmore⟩ := ih.items h
    rw [hcomma] at hleft
    refine ⟨before ++ (core ++ after) ++ ',' :: more, item :: vs, ?_, by simp,
      .item hcore hpad hmore⟩
    simp [hleft]
  · rename_i hclose
    obtain ⟨rfl, rfl⟩ := Prod.mk.inj (Option.some.inj h)
    rw [hclose] at hleft
    refine ⟨before ++ (core ++ after), [item], ?_, by simp, .lastItem hcore hpad⟩
    simp [hleft]
  · cases h

theorem readMembers_finds {fuel d : Nat} {done : Keyed Json} {s rest : List Char} {v : Json}
    (ih : FindsSpelled fuel) (h : readMembers (fuel + 1) d done s = some (v, rest)) :
    ∃ text entries, s = text ++ '\x7d' :: rest ∧ v = object (Keyed.insertAll done entries) ∧
      Spells Numeral.Denotes d text (.members entries) := by
  obtain ⟨before, hbefore, hs⟩ := exists_skipBlanks s
  unfold readMembers at h
  generalize skipBlanks s = s' at h hs
  subst hs
  split at h
  swap
  · cases h
  rename_i quoted
  split at h
  · cases h
  rename_i key afterName hkey
  obtain ⟨inner, cs, rfl, hinner, rfl⟩ := continues_of_readString hkey
  obtain ⟨after, hafter, hafterName⟩ := exists_skipBlanks afterName
  have hname : WritesString ('"' :: (inner ++ ['"'])) (String.ofList cs) :=
    ⟨inner, rfl, by simpa using hinner⟩
  have hpadName : Padded ('"' :: (inner ++ ['"']))
        (before ++ (('"' :: (inner ++ ['"'])) ++ after)) :=
    ⟨before, after, hbefore, hafter, rfl⟩
  split at h
  swap
  · cases h
  rename_i afterColon hcolon
  rw [hcolon] at hafterName
  split at h
  · cases h
  rename_i member left hmember
  obtain ⟨before', core, hbefore', rfl, hcore⟩ := ih.value hmember
  obtain ⟨after', hafter', hleft⟩ := exists_skipBlanks left
  have hpad : Padded core (before' ++ (core ++ after')) := ⟨before', after', hbefore', hafter', rfl⟩
  simp only [List.reverse_nil, List.nil_append] at h
  split at h
  · rename_i hcomma
    obtain ⟨more, entries, rfl, rfl, hmore⟩ := ih.members h
    refine ⟨_, _, ?_, ?_, .member hname hpadName hcore hpad hmore⟩
    · rw [hcomma] at hleft
      simp [hafterName, hleft]
    · rfl
  · rename_i hclose
    obtain ⟨rfl, rfl⟩ := Prod.mk.inj (Option.some.inj h)
    refine ⟨_, _, ?_, ?_, .lastMember hname hpadName hcore hpad⟩
    · rw [hclose] at hleft
      simp [hafterName, hleft]
    · rfl
  · cases h

theorem findsSpelled : ∀ fuel, FindsSpelled fuel
  | 0 => by constructor <;> intros <;> contradiction
  | fuel + 1 =>
    have ih := findsSpelled fuel
    ⟨readValue_finds ih, readItems_finds ih, readMembers_finds ih⟩

/-! ### Texts of one value -/

/-- **Reading is the grammar.** -/
theorem parseText_eq_some_iff {s : List Char} {v : Json} :
    parseText s = some v ↔
      ∃ core, Padded core s ∧ Spells Numeral.Denotes maxDepth core (.value v) := by
  constructor
  · intro h
    unfold parseText at h
    split at h
    · rename_i read rest hread
      split at h
      · rename_i hrest
        obtain rfl := Option.some.inj h
        obtain ⟨before, core, hbefore, rfl, hcore⟩ := (findsSpelled _).value hread
        obtain ⟨after, hafter, hskip⟩ := exists_skipBlanks rest
        rw [List.isEmpty_iff.mp hrest, List.append_nil] at hskip
        rw [hskip]
        exact ⟨core, ⟨before, after, hbefore, hafter, rfl⟩, hcore⟩
      · cases h
    · cases h
  · rintro ⟨core, ⟨before, after, hbefore, hafter, rfl⟩, hcore⟩
    have hread : readValue ((before ++ (core ++ after)).length + 1) maxDepth
        (before ++ (core ++ after)) = some (v, after) := by
      rw [readValue_skipBlanks (skipBlanks_append hbefore (core ++ after))]
      refine hcore.readsBack ?_ ?_
      · simp only [List.length_append]
        omega
      · simpa using hafter.ends ends_nil
    have hskip : skipBlanks after = [] := by
      simpa [skipBlanks] using skipBlanks_append hafter []
    unfold parseText
    rw [hread]
    simp [hskip]

theorem parse_eq_some_iff {octets : Bytes} {v : Json} :
    parse octets = some v ↔ ∃ text : String, octets = Utf8.encode text ∧
      ∃ core, Padded core text.toList ∧ Spells Numeral.Denotes maxDepth core (.value v) := by
  constructor
  · intro h
    obtain ⟨text, htext, h⟩ := Option.bind_eq_some_iff.mp h
    exact ⟨text, (Utf8.encode_of_decode htext).symm, parseText_eq_some_iff.mp h⟩
  · rintro ⟨text, rfl, h⟩
    refine Option.bind_eq_some_iff.mpr ⟨text, ?_, parseText_eq_some_iff.mpr h⟩
    exact Utf8.decode_encode text

end Json
end WorkloadIdentity
