/-
# The first violation from the left

A text that names no identity is refused for the first rule that it breaks, read from the
left: it is empty, it is not of the scheme, the name in front of its first slash is missing or
strays from its alphabet, or one of the segments behind its slashes is wrong while all segments
before it are right (`SpiffeId.IsRefused`). What else is wrong further on does not matter.

An empty segment is told by its place. Behind the last slash of the text it is a trailing
slash, and anywhere else it is an empty segment (`IsFault`). A path by itself may also lack its
first slash; in a text of the scheme the name goes up to that slash, so this never happens
there.

Key definitions: `HasStray`, `IsFault`, `FirstAtFault`, `SpiffeId.IsRefused`.
Key theorems: `checkSegments_eq_error_iff`, `SpiffeId.parse_eq_error_iff`,
`SpiffeId.parse_first_violation`.
-/
import WorkloadIdentity.Proofs.Id.Grammar
import WorkloadIdentity.Proofs.Text.Utf8

namespace WorkloadIdentity

/-! ### What may be wrong -/

/-- An octet of the text is none of the alphabet's. -/
def HasStray (alphabet text : List Char) : Prop :=
  ∃ b ∈ Utf8.encode (String.ofList text), b ∉ Utf8.encode (String.ofList alphabet)

/-- What is wrong with a segment, given the segments after it. -/
inductive IsFault (segment : List Char) (after : List (List Char)) : IdError → Prop where
  | dot : segment = ['.'] ∨ segment = ['.', '.'] → IsFault segment after .dotSegment
  | stray : HasStray segmentAlphabet segment → IsFault segment after .badPathSegmentChar
  | trailing : segment = [] → after = [] → IsFault segment after .trailingSlash
  | empty : segment = [] → after ≠ [] → IsFault segment after .emptySegment

/-- A segment is at fault, and all before it are segments of the grammar. -/
def FirstAtFault (fault : List Char → List (List Char) → Prop) (segments : List (List Char)) :
    Prop :=
  ∃ before segment after, segments = before ++ segment :: after ∧
    (∀ earlier ∈ before, IsSegment earlier) ∧ fault segment after

namespace SpiffeId

/-- What is first wrong with a text. -/
inductive IsRefused : String → IdError → Prop where
  | empty : IsRefused "" .empty
  | scheme {s : String} : s ≠ "" → ¬ "spiffe://".toList <+: s.toList → IsRefused s .wrongScheme
  | noName {s : String} {segments : List (List Char)} :
      HasParts s [] segments → IsRefused s .missingTrustDomain
  | strayName {s : String} {name : List Char} {segments : List (List Char)} :
      HasParts s name segments → HasStray nameAlphabet name → IsRefused s .badTrustDomainChar
  | path {s : String} {name : List Char} {segments : List (List Char)} {e : IdError} :
      HasParts s name segments → IsName name → FirstAtFault (IsFault · · e) segments →
        IsRefused s e

end SpiffeId

/-! ### Strays -/

theorem hasStray_iff {alphabet : List Char} {test : Char → Bool}
    (htest : ∀ c, test c = true ↔ c ∈ alphabet) (hascii : ∀ c, test c = true → c.toNat < 128)
    (text : List Char) : HasStray alphabet text ↔ text.all test = false := by
  unfold HasStray
  rw [Utf8.exists_octet_not_mem_iff fun c hc => hascii c ((htest c).mpr hc), List.all_eq_false]
  simp only [htest]

theorem hasStray_name_iff (name : List Char) :
    HasStray nameAlphabet name ↔ name.all isNameChar = false :=
  hasStray_iff isNameChar_iff (fun _ h => toNat_lt_of_isSegmentChar (isSegmentChar_of_isNameChar h))
    name

theorem hasStray_segment_iff (segment : List Char) :
    HasStray segmentAlphabet segment ↔ segment.all isSegmentChar = false :=
  hasStray_iff isSegmentChar_iff (fun _ h => toNat_lt_of_isSegmentChar h) segment

/-! ### The checks -/

theorem checkName_eq_error_iff (name : List Char) (e : IdError) :
    checkName name = .error e ↔
      name = [] ∧ e = .missingTrustDomain ∨
        HasStray nameAlphabet name ∧ e = .badTrustDomainChar := by
  rw [hasStray_name_iff]
  constructor
  · intro h
    unfold checkName at h
    split at h
    · rename_i hnil
      exact .inl ⟨List.isEmpty_iff.mp hnil, (Except.error.inj h).symm⟩
    · split at h
      · cases h
      · rename_i hall
        exact .inr ⟨Bool.eq_false_iff.mpr hall, (Except.error.inj h).symm⟩
  · rintro (⟨rfl, rfl⟩ | ⟨hall, rfl⟩)
    · rfl
    · have hne : ¬ name.isEmpty = true := by
        intro hnil
        rw [List.isEmpty_iff.mp hnil] at hall
        cases hall
      unfold checkName
      rw [if_neg hne, hall]
      rfl

/-- An empty segment at the end is left to the check of all segments. -/
theorem checkSegment_eq_error_iff {segment : List Char} {after : List (List Char)}
    (h : segment = [] → after ≠ []) (e : IdError) :
    checkSegment segment = .error e ↔ IsFault segment after e := by
  constructor
  · intro hcheck
    unfold checkSegment at hcheck
    split at hcheck
    · rename_i hnil
      obtain rfl := Except.error.inj hcheck
      have hnil := List.isEmpty_iff.mp hnil
      exact .empty hnil (h hnil)
    split at hcheck
    · rename_i hdot
      obtain rfl := Except.error.inj hcheck
      exact .dot hdot
    split at hcheck
    · cases hcheck
    · rename_i hall
      obtain rfl := Except.error.inj hcheck
      exact .stray ((hasStray_segment_iff segment).mpr (Bool.eq_false_iff.mpr hall))
  · intro hfault
    cases hfault with
    | dot hdot => rcases hdot with rfl | rfl <;> rfl
    | stray hstray =>
      rw [hasStray_segment_iff] at hstray
      have hne : ¬ segment.isEmpty = true := by
        intro hnil
        rw [List.isEmpty_iff.mp hnil] at hstray
        cases hstray
      -- dots are of the alphabet
      have hdot : ¬ (segment = ['.'] ∨ segment = ['.', '.']) := by
        rintro (rfl | rfl) <;> cases hstray
      unfold checkSegment
      rw [if_neg hne, if_neg hdot, hstray]
      rfl
    | trailing hnil hlast => exact absurd hlast (h hnil)
    | empty hnil _ =>
      rw [hnil]
      rfl

theorem not_firstAtFault_nil {fault : List Char → List (List Char) → Prop} :
    ¬ FirstAtFault fault [] := by
  rintro ⟨before, segment, after, h, -⟩
  simp at h

/-- The first segment is at fault, or it is one of the grammar and a later one is. -/
theorem firstAtFault_cons {fault : List Char → List (List Char) → Prop} {segment : List Char}
    {rest : List (List Char)} :
    FirstAtFault fault (segment :: rest) ↔
      fault segment rest ∨ IsSegment segment ∧ FirstAtFault fault rest := by
  constructor
  · rintro ⟨before, wrong, after, hsplit, hbefore, hfault⟩
    cases before with
    | nil =>
      obtain ⟨rfl, rfl⟩ := List.cons.inj hsplit
      exact .inl hfault
    | cons first before =>
      obtain ⟨rfl, rfl⟩ := List.cons.inj hsplit
      obtain ⟨hfirst, hbefore⟩ := List.forall_mem_cons.mp hbefore
      exact .inr ⟨hfirst, before, wrong, after, rfl, hbefore, hfault⟩
  · rintro (hfault | ⟨hsegment, before, wrong, after, rfl, hbefore, hfault⟩)
    · exact ⟨[], segment, rest, rfl, by simp, hfault⟩
    · exact ⟨segment :: before, wrong, after, rfl, List.forall_mem_cons.mpr ⟨hsegment, hbefore⟩,
        hfault⟩

/-- **Segments are refused for the first one at fault.** -/
theorem checkSegments_eq_error_iff (e : IdError) : ∀ segments : List (List Char),
    checkSegments segments = .error e ↔ FirstAtFault (IsFault · · e) segments
  | [] => ⟨nofun, fun h => absurd h not_firstAtFault_nil⟩
  | [last] => by
    rw [firstAtFault_cons]
    unfold checkSegments
    split
    · rename_i hnil
      obtain rfl := List.isEmpty_iff.mp hnil
      constructor
      · rintro ⟨⟩
        exact .inl (.trailing rfl rfl)
      · intro hfault
        cases hfault.resolve_right fun hlater => not_firstAtFault_nil hlater.2 with
        | dot hdot => simp at hdot
        | stray hstray => simp [hasStray_segment_iff] at hstray
        | trailing _ _ => rfl
        | empty _ hlast => exact absurd rfl hlast
    · rename_i hne
      rw [List.isEmpty_iff] at hne
      rw [checkSegment_eq_error_iff (fun hnil => absurd hnil hne)]
      exact ⟨.inl, fun h => h.resolve_right fun h => not_firstAtFault_nil h.2⟩
  | segment :: second :: rest => by
    rw [checkSegments_cons_cons, error_of_check, checkSegment_eq_ok_iff, firstAtFault_cons,
      checkSegment_eq_error_iff (fun _ => List.cons_ne_nil second rest),
      checkSegments_eq_error_iff e (second :: rest)]

namespace SpiffeId

/-! ### Texts -/

theorem parse_eq_error_iff_of_hasParts {s : String} {name : List Char}
    {segments : List (List Char)} (h : HasParts s name segments) (e : IdError) :
    SpiffeId.parse s = .error e ↔ checkName name = .error e ∨
      IsName name ∧ FirstAtFault (IsFault · · e) segments := by
  rw [parse_of_hasParts h, error_of_check, checkName_eq_ok_iff, error_of_check,
    checkSegments_eq_error_iff]
  -- what comes after the checks does not fail
  refine or_congr_right (and_congr_right fun _ => or_iff_left ?_)
  rintro ⟨-, hid⟩
  cases hid

/-- **A text is refused for what is first wrong with it.** -/
theorem parse_eq_error_iff (s : String) (e : IdError) :
    SpiffeId.parse s = .error e ↔ IsRefused s e := by
  constructor
  · intro h
    rcases parse_cases s with rfl | ⟨hne, hscheme⟩ | ⟨name, segments, hparts⟩
    · obtain rfl := Except.error.inj h
      exact .empty
    · rw [parse_of_not_scheme hne hscheme] at h
      obtain rfl := Except.error.inj h
      exact .scheme hne hscheme
    rcases (parse_eq_error_iff_of_hasParts hparts e).mp h with hname | ⟨hname, hpath⟩
    · rcases (checkName_eq_error_iff name e).mp hname with ⟨rfl, rfl⟩ | ⟨hstray, rfl⟩
      · exact .noName hparts
      · exact .strayName hparts hstray
    · exact .path hparts hname hpath
  · intro h
    cases h with
    | empty => rfl
    | scheme hne hscheme => exact parse_of_not_scheme hne hscheme
    | noName hparts => exact (parse_eq_error_iff_of_hasParts hparts _).mpr (.inl rfl)
    | strayName hparts hstray =>
      exact (parse_eq_error_iff_of_hasParts hparts _).mpr
        (.inl ((checkName_eq_error_iff _ _).mpr (.inr ⟨hstray, rfl⟩)))
    | path hparts hname hpath =>
      exact (parse_eq_error_iff_of_hasParts hparts e).mpr (.inr ⟨hname, hpath⟩)

end SpiffeId

/-- No segment is refused for a slash that is missing in front of it. -/
theorem not_firstAtFault_noLeadingSlash (segments : List (List Char)) :
    ¬ FirstAtFault (IsFault · · .noLeadingSlash) segments := by
  rintro ⟨before, segment, after, -, -, hfault⟩
  cases hfault

theorem checkPath_noLeadingSlash_iff (path : List Char) :
    checkPath path = .error .noLeadingSlash ↔ path ≠ [] ∧ ¬ ['/'] <+: path := by
  unfold checkPath
  split
  · simp
  · rename_i rest
    rw [checkSegments_eq_error_iff]
    refine ⟨fun h => absurd h (not_firstAtFault_noLeadingSlash _), fun h => absurd ?_ h.2⟩
    exact ⟨rest, rfl⟩
  · rename_i c rest hc
    refine ⟨fun _ => ⟨List.cons_ne_nil c rest, ?_⟩, fun _ => rfl⟩
    rintro ⟨more, hmore⟩
    exact hc (List.cons.inj hmore).1.symm

/-- **The first violation from the left is reported.** A text is refused with an error if and only
if this is what is first wrong with it, whatever is wrong further on. A text is never refused for
a path without a leading slash; a path by itself is, if and only if it is not empty and has
none. -/
theorem SpiffeId.parse_first_violation (s path : String) :
    (∀ e, SpiffeId.parse s = .error e ↔ IsRefused s e) ∧
    SpiffeId.parse s ≠ .error .noLeadingSlash ∧
    (checkPath path.toList = .error .noLeadingSlash ↔ path ≠ "" ∧ ¬ ['/'] <+: path.toList) := by
  refine ⟨parse_eq_error_iff s, ?_, ?_⟩
  · rw [Ne, parse_eq_error_iff]
    intro h
    cases h with
    | path _ _ hpath => exact not_firstAtFault_noLeadingSlash _ hpath
  · rw [checkPath_noLeadingSlash_iff, Ne, String.toList_eq_nil_iff]

/-- A dot segment behind an empty one is not reached. -/
example : SpiffeId.parse "spiffe://acme.io/ns//../a%20b/" = .error .emptySegment := by
  decide +kernel

end WorkloadIdentity
