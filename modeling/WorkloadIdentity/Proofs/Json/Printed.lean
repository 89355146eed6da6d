/-
# What is written is read back

A value whose objects have their members in order (`Json.WellFormed`) is written as a text
that spells it (`Json.spells_chars`), and every value that is spelled is one of these
(`Json.Spells.wellFormed`). So a value is read back from its writing if each of its numbers
is (`Json.parse_bytes`), and a value that was read is if each of its numbers is an integer
or minus zero (`Json.parse_bytes_of_parse`).

Key definitions: `Json.WellFormed`, `Json.WrittenAs`, `Json.numbers`, `Json.Number.IsWhole`.
Key theorems: `Json.spells_chars`, `Json.Spells.wellFormed`, `Json.parse_bytes`,
`Json.parse_bytes_of_parse`.
-/
import WorkloadIdentity.Proofs.Json.Literal

namespace WorkloadIdentity
namespace Json

/-- A value with arrays and objects nested at most so deep, the members of each object in
order of their names. -/
inductive WellFormed : Nat → Json → Prop where
  | null {d : Nat} : WellFormed d null
  | bool {d : Nat} (b : Bool) : WellFormed d (bool b)
  | number {d : Nat} (n : Number) : WellFormed d (number n)
  | string {d : Nat} (s : String) : WellFormed d (string s)
  | array {d : Nat} {items : List Json} :
      (∀ item ∈ items, WellFormed d item) → WellFormed (d + 1) (array items)
  | object {d : Nat} {members : Keyed Json} : Keyed.Sorted members →
      (∀ entry ∈ members, WellFormed d entry.2) → WellFormed (d + 1) (object members)

variable {means : Numeral → Number → Prop}

/-- The writing of the number is a numeral with that meaning. -/
def WrittenAs (means : Numeral → Number → Prop) (n : Number) : Prop :=
  ∃ t, WritesNumeral (numberText n) t ∧ means t n

/-! ### What is written is spelled -/

/-- Items that are spelled one by one are spelled with commas between them. -/
theorem spells_itemsChars {d : Nat} : ∀ {items : List Json}, items ≠ [] →
    (∀ item ∈ items, Spells means d (chars item) (.value item)) →
    Spells means d (itemsChars items) (.items items)
  | [], hne, _ => absurd rfl hne
  | [item], _, h => by
    rw [itemsChars]
    exact .lastItem (h item List.mem_cons_self) (padded_self _)
  | item :: next :: rest, _, h => by
    rw [itemsChars]
    · exact .item (h item List.mem_cons_self) (padded_self _)
        (spells_itemsChars (List.cons_ne_nil _ _) fun item hitem =>
          h item (List.mem_cons_of_mem _ hitem))
    · exact fun h => by cases h

theorem spells_membersChars {d : Nat} : ∀ {members : List (String × Json)}, members ≠ [] →
    (∀ entry ∈ members, Spells means d (chars entry.2) (.value entry.2)) →
    Spells means d (membersChars members) (.members members)
  | [], hne, _ => absurd rfl hne
  | [(name, value)], _, h => by
    rw [membersChars]
    exact .lastMember (writesString_stringText name) (padded_self _)
      (h (name, value) List.mem_cons_self) (padded_self _)
  | (name, value) :: next :: rest, _, h => by
    rw [membersChars]
    · simp only [List.append_assoc, List.cons_append]
      exact .member (writesString_stringText name) (padded_self _)
        (h (name, value) List.mem_cons_self) (padded_self _)
        (spells_membersChars (List.cons_ne_nil _ _) fun entry hentry =>
          h entry (List.mem_cons_of_mem _ hentry))
    · exact fun h => by cases h

/-- **The writing of a value spells it**, if the writing of each of its numbers does. -/
theorem spells_chars {d : Nat} {value : Json} (h : WellFormed d value)
    (hnumbers : ∀ n, Holds value n → WrittenAs means n) :
    Spells means d (chars value) (.value value) := by
  induction h with
  | null => exact .null
  | bool b =>
    cases b with
    | true => exact .yes
    | false => exact .no
  | number n =>
    obtain ⟨t, ht, hn⟩ := hnumbers n (.self n)
    rw [chars]
    exact .number ht hn
  | string s =>
    rw [chars]
    exact .string (writesString_stringText s)
  | @array d items _ ih =>
    rw [chars]
    by_cases hnil : items = []
    · subst hnil
      exact .noItems isBlanks_nil
    · exact .array (spells_itemsChars hnil fun item hitem =>
        ih item hitem fun n hn => hnumbers n (.item hitem hn))
  | @object d members hsorted _ ih =>
    rw [chars]
    by_cases hnil : members = []
    · subst hnil
      exact .noMembers isBlanks_nil
    · have hmembers : Spells means d (membersChars members) (.members members) :=
        spells_membersChars hnil fun entry hentry =>
        ih entry hentry fun n hn =>
          hnumbers n (.member ((Keyed.find?_eq_some_iff_mem hsorted).mpr hentry) hn)
      have hobject := hmembers.object
      rwa [Keyed.ofList_of_sorted hsorted] at hobject

/-! ### What is spelled is well-formed -/

/-- The values of a part are well-formed. -/
def Part.WellFormed (d : Nat) : Part → Prop
  | value v => Json.WellFormed d v
  | items vs => ∀ v ∈ vs, Json.WellFormed d v
  | members entries => ∀ entry ∈ entries, Json.WellFormed d entry.2

/-- **A value that is spelled is well-formed.** -/
theorem Spells.wellFormed {d : Nat} {text : List Char} {part : Part}
    (h : Spells means d text part) : part.WellFormed d := by
  induction h with
  | null => exact .null
  | yes => exact .bool true
  | no => exact .bool false
  | number => exact .number _
  | string => exact .string _
  | noItems => exact .array fun item hitem => by cases hitem
  | array _ ih => exact .array ih
  | noMembers => exact .object List.Pairwise.nil fun entry hentry => by cases hentry
  | object _ ih =>
    refine .object (Keyed.sorted_ofList _) fun entry hentry => ?_
    exact ih entry (Keyed.mem_of_mem_ofList hentry)
  | lastItem _ _ ih =>
    intro v hv
    rwa [List.mem_singleton.mp hv]
  | item _ _ _ ih ihmore =>
    intro v hv
    rcases List.mem_cons.mp hv with rfl | hv
    · exact ih
    · exact ihmore v hv
  | lastMember _ _ _ _ ih =>
    intro entry hentry
    rwa [List.mem_singleton.mp hentry]
  | member _ _ _ _ _ ih ihmore =>
    intro entry hentry
    rcases List.mem_cons.mp hentry with rfl | hentry
    · exact ih
    · exact ihmore entry hentry

/-! ### The numbers of a value -/

mutual

/-- The numbers of a value, in order. -/
def numbers : Json → List Number
  | number n => [n]
  | array items => itemsNumbers items
  | object members => membersNumbers members
  | _ => []

/-- The numbers of items. -/
def itemsNumbers : List Json → List Number
  | [] => []
  | item :: rest => numbers item ++ itemsNumbers rest

/-- The numbers of members. -/
def membersNumbers : List (String × Json) → List Number
  | [] => []
  | (_, value) :: rest => numbers value ++ membersNumbers rest

end

theorem mem_itemsNumbers {item : Json} {n : Number} (hn : n ∈ numbers item) :
    ∀ {items : List Json}, item ∈ items → n ∈ itemsNumbers items
  | _ :: rest, h => by
    rw [itemsNumbers, List.mem_append]
    rcases List.mem_cons.mp h with rfl | h
    · exact .inl hn
    · exact .inr (mem_itemsNumbers hn h)

theorem mem_membersNumbers {name : String} {value : Json} {n : Number} (hn : n ∈ numbers value) :
    ∀ {members : Keyed Json}, Keyed.find? name members = some value → n ∈ membersNumbers members
  | (k, v) :: rest, h => by
    rw [membersNumbers, List.mem_append]
    unfold Keyed.find? at h
    split at h
    · obtain rfl := Option.some.inj h
      exact .inl hn
    · exact .inr (mem_membersNumbers hn h)

/-- A value holds no other numbers. -/
theorem Holds.mem_numbers {value : Json} {n : Number} (h : Holds value n) : n ∈ numbers value := by
  induction h with
  | self n =>
    rw [numbers]
    exact List.mem_singleton_self n
  | item hitem _ ih =>
    rw [numbers]
    exact mem_itemsNumbers ih hitem
  | member hfind _ ih =>
    rw [numbers]
    exact mem_membersNumbers ih hfind

/-! ### Reading back -/

/-- An integer, or minus zero, which is kept as a double. -/
def Number.IsWhole : Number → Prop
  | integer _ => True
  | real x => x = Binary64.zero true

instance : DecidablePred Number.IsWhole
  | .integer _ => .isTrue trivial
  | .real x => inferInstanceAs (Decidable (x = Binary64.zero true))

theorem Number.IsInteger.writtenAs {n : Number} (h : n.IsInteger) :
    WrittenAs Numeral.Denotes n := by
  obtain ⟨value, rfl, hlow, hhigh⟩ := h
  exact ⟨_, writesNumeral_integer value, denotes_integerNumeral hlow hhigh⟩

/-- **A value is read back from its writing** if its numbers are. -/
theorem parse_bytes {value : Json} (h : WellFormed maxDepth value)
    (hnumbers : ∀ n, Holds value n → WrittenAs Numeral.Denotes n) :
    parse (bytes value) = some value := by
  refine parse_eq_some_iff.mpr ⟨text value, rfl, chars value, ?_, spells_chars h hnumbers⟩
  unfold text
  rw [String.toList_ofList]
  exact padded_self _

/-- A value that was read is well-formed, and its integers are of 64 bits. -/
theorem wellFormed_of_parse {octets : Bytes} {value : Json} (h : parse octets = some value) :
    WellFormed maxDepth value ∧
      ∀ n : Int, Holds value (.integer n) → (Number.integer n).IsInteger := by
  obtain ⟨s, -, core, -, hspells⟩ := parse_eq_some_iff.mp h
  refine ⟨hspells.wellFormed, fun n hn => ?_⟩
  obtain ⟨before, numeral, after, t, -, ht, hmeans, -⟩ := hspells.hasNumeral hn
  exact isInteger_of_denotes ht hmeans

/-- **What was read is read again from its writing** if its numbers are whole. -/
theorem parse_bytes_of_parse {octets : Bytes} {value : Json} (h : parse octets = some value)
    (hwhole : ∀ n, Holds value n → n.IsWhole) : parse (bytes value) = some value := by
  obtain ⟨hvalue, hintegers⟩ := wellFormed_of_parse h
  refine parse_bytes hvalue fun n hn => ?_
  cases n with
  | integer k => exact (hintegers k hn).writtenAs
  | real x =>
    have hzero : x = Binary64.zero true := hwhole _ hn
    rw [hzero]
    exact ⟨_, denotes_minusZero⟩

end Json
end WorkloadIdentity
