/-
# The grammar of identities

What a text has to look like to name an identity, said without the reader: the
prefix, a name over its alphabet, and any number of segments over theirs with a
slash before each. A `Spelling` is a name and segments that keep to this.

`SpiffeId.parse` reads exactly the texts of spellings, each as the identity
`Spelling.id` (`SpiffeId.parse_eq_ok_iff`), and no text has two spellings
(`Spelling.text_injective`). Whether or not it is one of them, a text comes apart at its
slashes (`IsCut`), and that is how the checks see it.

Key definitions: `IsName`, `IsSegment`, `pathOf`, `Spelling`, `IsCut`, `HasParts`.
Key theorems: `IsCut.splitOn`, `checkPath_pathOf`, `checkPath_eq_ok_iff`,
`SpiffeId.parse_of_hasParts`, `SpiffeId.parse_eq_ok_iff`, `SpiffeId.parse_isOk_iff_spelled`.
-/
import Mathlib.Data.String.Basic
import WorkloadIdentity.Id.Basic
import WorkloadIdentity.Proofs.Outcome
import WorkloadIdentity.Proofs.Text.Characters

namespace WorkloadIdentity

/-! ### The grammar -/

/-- The characters of a name. -/
def nameAlphabet : List Char := "abcdefghijklmnopqrstuvwxyz0123456789-._".toList

/-- The characters of a segment. -/
def segmentAlphabet : List Char :=
  "abcdefghijklmnopqrstuvwxyzABCDEFGHIJKLMNOPQRSTUVWXYZ0123456789-._".toList

/-- A name of a trust domain. -/
def IsName (name : List Char) : Prop := name ≠ [] ∧ ∀ c ∈ name, c ∈ nameAlphabet

/-- A segment of a path. -/
def IsSegment (segment : List Char) : Prop :=
  segment ≠ [] ∧ segment ≠ ['.'] ∧ segment ≠ ['.', '.'] ∧ ∀ c ∈ segment, c ∈ segmentAlphabet

/-- Segments in writing, a slash before each. -/
def pathOf (segments : List (List Char)) : List Char := segments.flatMap ('/' :: ·)

/-- A name and segments of the grammar. -/
structure Spelling where
  name : List Char
  segments : List (List Char)
  isName : IsName name
  isSegment : ∀ segment ∈ segments, IsSegment segment

/-- What is spelled. -/
def Spelling.text (x : Spelling) : String :=
  "spiffe://" ++ String.ofList x.name ++ String.ofList (pathOf x.segments)

@[simp] theorem pathOf_nil : pathOf [] = [] := rfl

@[simp] theorem pathOf_cons (segment : List Char) (rest : List (List Char)) :
    pathOf (segment :: rest) = '/' :: segment ++ pathOf rest := by
  simp [pathOf]

theorem pathOf_append (xs ys : List (List Char)) : pathOf (xs ++ ys) = pathOf xs ++ pathOf ys := by
  simp [pathOf]

/-! ### Texts cut at their slashes

Before it is known whether they keep to the grammar, a name and segments are what stands
between the slashes of a text. There is one way to cut a text so. -/

/-- The text is `front` and then the segments with a slash before each, and there is no other
slash in it. -/
structure IsCut (text front : List Char) (segments : List (List Char)) : Prop where
  text_eq : text = front ++ pathOf segments
  front_free : '/' ∉ front
  segments_free : ∀ segment ∈ segments, '/' ∉ segment

theorem exists_isCut : ∀ text : List Char, ∃ front segments, IsCut text front segments
  | [] => ⟨[], [], rfl, List.not_mem_nil, by simp⟩
  | c :: text => by
    obtain ⟨front, segments, rfl, hfront, hsegments⟩ := exists_isCut text
    by_cases hc : c = '/'
    · subst hc
      exact ⟨[], front :: segments, by simp, List.not_mem_nil,
        List.forall_mem_cons.mpr ⟨hfront, hsegments⟩⟩
    · refine ⟨c :: front, segments, rfl, ?_, hsegments⟩
      rw [List.mem_cons, not_or]
      exact ⟨fun h => hc h.symm, hfront⟩

namespace IsCut

variable {text front : List Char} {segments : List (List Char)}

theorem splitOn (h : IsCut text front segments) : text.splitOn '/' = front :: segments := by
  obtain ⟨rfl, hfront, hsegments⟩ := h
  induction segments generalizing front with
  | nil => rw [pathOf_nil, List.append_nil, List.splitOn_eq_singleton hfront]
  | cons segment rest ih =>
    obtain ⟨hsegment, hrest⟩ := List.forall_mem_cons.mp hsegments
    rw [pathOf_cons, List.cons_append, List.splitOn_append_cons_self_of_not_mem hfront,
      ih hsegment hrest]

theorem ne_slash (h : IsCut text front segments) : ∀ c ∈ front, (c != '/') = true := by
  intro c hc
  have : c ≠ '/' := fun hslash => h.front_free (hslash ▸ hc)
  simpa using this

theorem takeWhile (h : IsCut text front segments) : text.takeWhile (· != '/') = front := by
  rw [h.text_eq, List.takeWhile_append_of_pos h.ne_slash]
  cases segments <;> simp

theorem dropWhile (h : IsCut text front segments) :
    text.dropWhile (· != '/') = pathOf segments := by
  rw [h.text_eq, List.dropWhile_append_of_pos h.ne_slash]
  cases segments <;> simp

end IsCut

/-- The text is of the scheme, with a name up to the next slash or the end, and segments. -/
def HasParts (s : String) (name : List Char) (segments : List (List Char)) : Prop :=
  ∃ rest, s = "spiffe://" ++ String.ofList rest ∧ IsCut rest name segments

/-! ### Characters

The classes that the reader tests for hold ASCII characters only, so comparing
them with the alphabets is a matter of 128 cases. -/

theorem toNat_lt_of_isSegmentChar {c : Char} (h : isSegmentChar c = true) : c.toNat < 128 := by
  simp only [isSegmentChar, Bool.or_eq_true, beq_iff_eq] at h
  rcases h with ((h | rfl) | rfl) | rfl
  · exact toNat_lt_of_isAlphanum h
  all_goals decide

theorem isSegmentChar_of_isNameChar {c : Char} (h : isNameChar c = true) :
    isSegmentChar c = true := by
  have halphanum : c.isLower = true ∨ c.isDigit = true → c.isAlphanum = true := by
    intro h
    show ((c.isUpper || c.isLower) || c.isDigit) = true
    rcases h with h | h <;> simp [h]
  simp only [isNameChar, isSegmentChar, Bool.or_eq_true] at h ⊢
  tauto

theorem isNameChar_iff (c : Char) : isNameChar c = true ↔ c ∈ nameAlphabet := by
  constructor
  · intro h
    have hc := toNat_lt_of_isSegmentChar (isSegmentChar_of_isNameChar h)
    have htest := forall_ascii (p := fun c => !isNameChar c || nameAlphabet.contains c)
      (by decide +kernel) hc
    simpa [h] using htest
  · intro h
    have htest : nameAlphabet.all isNameChar = true := by decide +kernel
    exact List.all_eq_true.mp htest c h

theorem isSegmentChar_iff (c : Char) : isSegmentChar c = true ↔ c ∈ segmentAlphabet := by
  constructor
  · intro h
    have htest := forall_ascii (p := fun c => !isSegmentChar c || segmentAlphabet.contains c)
      (by decide +kernel) (toNat_lt_of_isSegmentChar h)
    simpa [h] using htest
  · intro h
    have htest : segmentAlphabet.all isSegmentChar = true := by decide +kernel
    exact List.all_eq_true.mp htest c h

theorem slash_not_mem_nameAlphabet : '/' ∉ nameAlphabet := by decide +kernel

theorem slash_not_mem_segmentAlphabet : '/' ∉ segmentAlphabet := by decide +kernel

theorem IsName.slash_not_mem {name : List Char} (h : IsName name) : '/' ∉ name :=
  fun hs => slash_not_mem_nameAlphabet (h.2 _ hs)

theorem IsSegment.slash_not_mem {segment : List Char} (h : IsSegment segment) : '/' ∉ segment :=
  fun hs => slash_not_mem_segmentAlphabet (h.2.2.2 _ hs)

/-! ### The checks -/

theorem checkName_eq_ok_iff (name : List Char) : checkName name = .ok () ↔ IsName name := by
  unfold checkName IsName
  split
  · rename_i h
    simp_all
  · rename_i h
    split
    · rename_i hall
      simp_all [isNameChar_iff]
    · rename_i hall
      simp_all [isNameChar_iff]

theorem checkSegment_eq_ok_iff (segment : List Char) :
    checkSegment segment = .ok () ↔ IsSegment segment := by
  unfold checkSegment IsSegment
  split
  · simp_all
  · split
    · rename_i h
      rcases h with h | h <;> simp [h]
    · rename_i hdot
      rw [not_or] at hdot
      split
      · simp_all [isSegmentChar_iff]
      · simp_all [isSegmentChar_iff]

theorem checkSegments_cons_cons (segment second : List Char) (rest : List (List Char)) :
    checkSegments (segment :: second :: rest) =
      (checkSegment segment >>= fun _ => checkSegments (second :: rest)) := rfl

theorem checkSegments_eq_ok_iff : ∀ segments : List (List Char),
    checkSegments segments = .ok () ↔ ∀ segment ∈ segments, IsSegment segment
  | [] => by simp [checkSegments]
  | [last] => by
    have h := checkSegment_eq_ok_iff last
    unfold checkSegments
    split
    · rename_i he
      have hnil : last = [] := by simpa using he
      simp [hnil, IsSegment]
    · simpa using h
  | segment :: second :: rest => by
    rw [checkSegments_cons_cons, ok_of_check, checkSegment_eq_ok_iff,
      checkSegments_eq_ok_iff (second :: rest), List.forall_mem_cons (l := second :: rest)]

/-- The path of segments without slashes is checked segment by segment. -/
theorem checkPath_pathOf {segments : List (List Char)} (h : ∀ segment ∈ segments, '/' ∉ segment) :
    checkPath (pathOf segments) = checkSegments segments := by
  cases segments with
  | nil => rfl
  | cons segment rest =>
    obtain ⟨hsegment, hrest⟩ := List.forall_mem_cons.mp h
    have hsplit := IsCut.splitOn ⟨rfl, hsegment, hrest⟩
    rw [pathOf_cons]
    show checkSegments ((segment ++ pathOf rest).splitOn '/') = checkSegments (segment :: rest)
    rw [hsplit]

theorem checkPath_pathOf_eq_ok {segments : List (List Char)}
    (h : ∀ segment ∈ segments, IsSegment segment) : checkPath (pathOf segments) = .ok () := by
  rw [checkPath_pathOf fun segment hs => (h segment hs).slash_not_mem]
  exact (checkSegments_eq_ok_iff _).mpr h

theorem checkPath_eq_ok_iff (path : List Char) : checkPath path = .ok () ↔
    ∃ segments, (∀ segment ∈ segments, IsSegment segment) ∧ pathOf segments = path := by
  constructor
  · intro h
    unfold checkPath at h
    split at h
    · exact ⟨[], by simp, rfl⟩
    · rename_i rest
      obtain ⟨segment, more, hcut⟩ := exists_isCut rest
      rw [hcut.splitOn] at h
      refine ⟨segment :: more, (checkSegments_eq_ok_iff _).mp h, ?_⟩
      rw [pathOf_cons, hcut.text_eq]
      rfl
    · cases h
  · rintro ⟨segments, h, rfl⟩
    exact checkPath_pathOf_eq_ok h

theorem joinSegments_eq_ok_iff : ∀ (segments : List (List Char)) (path : List Char),
    joinSegments segments = .ok path ↔
      (∀ segment ∈ segments, IsSegment segment) ∧ pathOf segments = path
  | [], path => by simp [joinSegments]
  | segment :: rest, path => by
    unfold joinSegments
    rw [ok_of_check, ok_of_steps, checkSegment_eq_ok_iff, List.forall_mem_cons, pathOf_cons]
    constructor
    · rintro ⟨hsegment, more, hrest, hpath⟩
      obtain ⟨hall, rfl⟩ := (joinSegments_eq_ok_iff rest more).mp hrest
      exact ⟨⟨hsegment, hall⟩, ok_of_pure.mp hpath⟩
    · rintro ⟨⟨hsegment, hall⟩, hpath⟩
      exact ⟨hsegment, _, (joinSegments_eq_ok_iff rest _).mpr ⟨hall, rfl⟩, ok_of_pure.mpr hpath⟩

/-! ### The parts of an identity -/

namespace SpiffeId

@[simp] theorem text_join (name path : String) :
    (join name path).text = spiffePrefix ++ name ++ path := rfl

@[simp] theorem pathStart_join (name path : String) :
    (join name path).pathStart = spiffePrefix.utf8ByteSize + name.utf8ByteSize := by
  simp [join]

/-- The part of a text between two others, by its offsets. -/
theorem extract_append (a b c : String) :
    String.Pos.Raw.extract (a ++ b ++ c) ⟨a.utf8ByteSize⟩ ⟨a.utf8ByteSize + b.utf8ByteSize⟩ = b := by
  have h := String.extract_of_valid a.toList b.toList c.toList
  simpa [String.utf8Len_toList, String.append_assoc] using h

@[simp] theorem trustDomain_join (name path : String) : (join name path).trustDomain = ⟨name⟩ := by
  simp only [trustDomain, text_join, pathStart_join, extract_append]

@[simp] theorem path_join (name path : String) : (join name path).path = path := by
  have h := extract_append (spiffePrefix ++ name) path ""
  simpa [SpiffeId.path] using h

/-- More path after a path is one path. -/
theorem extend_join (name path more : String) :
    (join name path).extend more = join name (path ++ more) := by
  simp only [extend, join, SpiffeId.mk.injEq, String.utf8ByteSize_append]
  exact ⟨by simp [String.append_assoc], by omega⟩

end SpiffeId

/-! ### Reading and spelling -/

/-- The identity that is spelled. -/
def Spelling.id (x : Spelling) : SpiffeId :=
  SpiffeId.join (String.ofList x.name) (String.ofList (pathOf x.segments))

@[simp] theorem Spelling.text_id (x : Spelling) : x.id.text = x.text := rfl

/-- The slashes of a spelling are those before its segments. -/
theorem Spelling.isCut (x : Spelling) : IsCut (x.name ++ pathOf x.segments) x.name x.segments :=
  ⟨rfl, x.isName.slash_not_mem, fun segment hs => (x.isSegment segment hs).slash_not_mem⟩

theorem Spelling.toList_text (x : Spelling) :
    x.text.toList = spiffePrefix.toList ++ (x.name ++ pathOf x.segments) := by
  simp [Spelling.text, spiffePrefix]

theorem Spelling.hasParts (x : Spelling) : HasParts x.text x.name x.segments :=
  ⟨_, by simp [Spelling.text, String.append_assoc], x.isCut⟩

namespace SpiffeId

/-- A text is empty, or of another scheme, or has parts. -/
theorem parse_cases (s : String) : s = "" ∨ (s ≠ "" ∧ ¬ "spiffe://".toList <+: s.toList) ∨
    ∃ name segments, HasParts s name segments := by
  by_cases hempty : s = ""
  · exact .inl hempty
  by_cases hscheme : "spiffe://".toList <+: s.toList
  · obtain ⟨rest, hrest⟩ := hscheme
    obtain ⟨name, segments, hcut⟩ := exists_isCut rest
    refine .inr (.inr ⟨name, segments, rest, String.toList_injective ?_, hcut⟩)
    rw [String.toList_append, String.toList_ofList (l := rest), hrest]
  · exact .inr (.inl ⟨hempty, hscheme⟩)

theorem parse_of_not_scheme {s : String} (hne : s ≠ "")
    (hscheme : ¬ "spiffe://".toList <+: s.toList) : parse s = .error .wrongScheme := by
  unfold parse
  rw [if_neg (by rwa [String.isEmpty_iff])]
  split
  · rfl
  · rename_i rest hrest
    exact absurd ⟨rest, List.isPrefixOf?_eq_some_iff_append_eq.mp hrest⟩ hscheme

/-- A text with parts is checked part by part, the name before the segments. -/
theorem parse_of_hasParts {s : String} {name : List Char} {segments : List (List Char)}
    (h : HasParts s name segments) :
    parse s = (checkName name >>= fun _ => checkSegments segments >>= fun _ =>
      pure ⟨s, s.utf8ByteSize - (String.ofList (pathOf segments)).utf8ByteSize⟩) := by
  obtain ⟨rest, rfl, hcut⟩ := h
  have hne : ("spiffe://" ++ String.ofList rest).isEmpty = false := by
    rw [← Bool.not_eq_true, String.isEmpty_iff, ← String.toList_eq_nil_iff]
    simp
  have hrest : spiffePrefix.toList.isPrefixOf? ("spiffe://" ++ String.ofList rest).toList =
      some rest := by
    rw [List.isPrefixOf?_eq_some_iff_append_eq]
    simp [spiffePrefix]
  unfold parse
  rw [hne, hrest]
  simp only [Bool.false_eq_true, if_false, hcut.takeWhile, hcut.dropWhile,
    checkPath_pathOf hcut.segments_free]

theorem parse_text (x : Spelling) : parse x.text = .ok x.id := by
  rw [parse_of_hasParts x.hasParts, (checkName_eq_ok_iff _).mpr x.isName,
    (checkSegments_eq_ok_iff _).mpr x.isSegment]
  rfl

theorem spelling_of_parse {s : String} {id : SpiffeId} (h : parse s = .ok id) :
    ∃ x : Spelling, x.text = s := by
  rcases parse_cases s with rfl | ⟨hne, hscheme⟩ | ⟨name, segments, hparts⟩
  · cases h
  · rw [parse_of_not_scheme hne hscheme] at h
    cases h
  · rw [parse_of_hasParts hparts, ok_of_check, ok_of_check] at h
    obtain ⟨hname, hsegments, -⟩ := h
    refine ⟨⟨name, segments, (checkName_eq_ok_iff _).mp hname,
      (checkSegments_eq_ok_iff _).mp hsegments⟩, ?_⟩
    obtain ⟨_, rfl, hcut⟩ := hparts
    rw [hcut.text_eq, String.ofList_append, ← String.append_assoc]
    rfl

end SpiffeId

theorem SpiffeId.parse_eq_ok_iff (s : String) (id : SpiffeId) :
    SpiffeId.parse s = .ok id ↔ ∃ x : Spelling, x.text = s ∧ x.id = id := by
  constructor
  · intro h
    obtain ⟨x, rfl⟩ := SpiffeId.spelling_of_parse h
    rw [SpiffeId.parse_text] at h
    exact ⟨x, rfl, Except.ok.inj h⟩
  · rintro ⟨x, rfl, rfl⟩
    exact SpiffeId.parse_text x

/-- A text can be taken apart in one way only. -/
theorem Spelling.text_injective {x y : Spelling} (h : x.text = y.text) : x = y := by
  have hrest : x.name ++ pathOf x.segments = y.name ++ pathOf y.segments := by
    have := congrArg String.toList h
    rwa [x.toList_text, y.toList_text, List.append_cancel_left_eq] at this
  have hparts : x.name :: x.segments = y.name :: y.segments := by
    rw [← x.isCut.splitOn, hrest, y.isCut.splitOn]
  obtain ⟨hname, hsegments⟩ := List.cons.inj hparts
  cases x
  cases y
  simp_all

/-- **Identities are read exactly from the grammar.** A text names an identity if
and only if it is spelled by the grammar, and then in one way. The identity has
the text for its own, and gives out the name and the path of the spelling. No
two texts name one identity. -/
theorem SpiffeId.parse_isOk_iff_spelled (s : String) :
    ((∃ id, SpiffeId.parse s = .ok id) ↔ ∃ x : Spelling, x.text = s) ∧
    (∀ x y : Spelling, x.text = s → y.text = s → x = y) ∧
    (∀ (id : SpiffeId) (x : Spelling), SpiffeId.parse s = .ok id → x.text = s →
      id.text = s ∧ id.trustDomain.name = String.ofList x.name ∧
        id.path = String.ofList (pathOf x.segments)) ∧
    (∀ (t : String) (id : SpiffeId), SpiffeId.parse s = .ok id → SpiffeId.parse t = .ok id →
      s = t) := by
  refine ⟨⟨?_, ?_⟩, ?_, ?_, ?_⟩
  · rintro ⟨id, h⟩
    exact SpiffeId.spelling_of_parse h
  · rintro ⟨x, rfl⟩
    exact ⟨x.id, SpiffeId.parse_text x⟩
  · intro x y hx hy
    exact Spelling.text_injective (hx.trans hy.symm)
  · rintro id x h rfl
    rw [SpiffeId.parse_text] at h
    obtain rfl := Except.ok.inj h
    exact ⟨rfl, by simp [Spelling.id], by simp [Spelling.id]⟩
  · intro t id hs ht
    obtain ⟨x, rfl, rfl⟩ := (SpiffeId.parse_eq_ok_iff s id).mp hs
    obtain ⟨y, rfl, hid⟩ := (SpiffeId.parse_eq_ok_iff t x.id).mp ht
    exact (congrArg SpiffeId.text hid).symm

/-- An identity that is read has the parts of its spelling. -/
theorem SpiffeId.parse_web_spelled :
    SpiffeId.parse "spiffe://acme.io/ns/web" = .ok ⟨"spiffe://acme.io/ns/web", 16⟩ ∧
    ∃ x : Spelling, x.text = "spiffe://acme.io/ns/web" ∧ String.ofList x.name = "acme.io" ∧
      String.ofList (pathOf x.segments) = "/ns/web" := by
  have hparse : SpiffeId.parse "spiffe://acme.io/ns/web" =
      .ok ⟨"spiffe://acme.io/ns/web", 16⟩ := by decide +kernel
  obtain ⟨hiff, -, hparts, -⟩ := SpiffeId.parse_isOk_iff_spelled "spiffe://acme.io/ns/web"
  obtain ⟨x, hx⟩ := hiff.mp ⟨_, hparse⟩
  obtain ⟨-, hname, hpath⟩ := hparts _ x hparse hx
  refine ⟨hparse, x, hx, ?_, ?_⟩
  · rw [← hname]
    decide +kernel
  · rw [← hpath]
    decide +kernel

/-- A character of more than one octet ends the segment it stands in. -/
example : SpiffeId.parse "spiffe://acme.io/caf\u00e9" = .error .badPathSegmentChar := by
  decide +kernel

end WorkloadIdentity
