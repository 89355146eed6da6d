/-
# Reading a URL of a plain scheme

A URL without a query and a fragment is a scheme, a colon, and the text that
the authority and the path are read from. Under a plain scheme (none that the
standard names) that text starts with two slashes and has an authority, or with
one and is a path, or is a path below nothing, which is only escaped.

What is read this way is in normal form (`parseHierarchy_cases`): a path is
empty, rooted or opaque, and a port has 16 bits. A text that is in normal form
already is read whole (`parse_of_parseHierarchy`): nothing is trimmed off it, no
query or fragment is cut off, and the scheme is found before the first colon.

Key definitions: `Url.IsScheme`, `Url.IsMain`, `Url.IsOpaque`.
Key theorems: `Url.parse_of_parseHierarchy`, `Url.parseHierarchy_of_parse`,
`Url.parseHierarchy_cases`, `Url.exists_rootedPath_of_parseHierarchy`,
`Url.parseHierarchy_of_path`, `Url.parseHierarchy_of_host`, `Url.parseHierarchy_of_port`,
`Url.parseHierarchy_of_isOpaque`.
-/
import Mathlib.Data.List.TakeWhile
import WorkloadIdentity.Proofs.Net.Address
import WorkloadIdentity.Proofs.Outcome
import WorkloadIdentity.Proofs.Url.Path

namespace WorkloadIdentity
namespace Url

open Percent

/-! ### What is trimmed -/

/-- A blank or a control, which is trimmed off the ends. -/
abbrev isBlank (c : Char) : Bool := c.toNat ≤ 0x20

theorem dropWhile_of_head? {p : Char → Bool} {s : List Char} (h : ∀ c ∈ s.head?, p c = false) :
    s.dropWhile p = s := by
  cases s with
  | nil => rfl
  | cons c s => rw [List.dropWhile_cons, h c rfl, if_neg Bool.false_ne_true]

/-- Tabs and line ends are controls. -/
theorem not_isLineEnd {c : Char} (hc : 0x20 ≤ c.toNat) :
    (!(c == '\t' || c == '\n' || c == '\r')) = true := by
  have hne {d : Char} (hd : d.toNat < 0x20) : c ≠ d := by
    rintro rfl
    omega
  simp [hne (d := '\t') (by decide), hne (d := '\n') (by decide), hne (d := '\r') (by decide)]

/-- A text is read whole if it has no controls and no blanks at its ends. -/
theorem significant_of_trimmed {s : List Char} (hhead : ∀ c ∈ s.head?, 0x20 < c.toNat)
    (hlast : ∀ c ∈ s.getLast?, 0x20 < c.toNat) (hs : ∀ c ∈ s, 0x20 ≤ c.toNat) :
    significant s = s := by
  have hfront : s.dropWhile isBlank = s :=
    dropWhile_of_head? fun c hc => decide_eq_false (Nat.not_le.mpr (hhead c hc))
  have hback : s.reverse.dropWhile isBlank = s.reverse := by
    refine dropWhile_of_head? fun c hc => decide_eq_false (Nat.not_le.mpr (hlast c ?_))
    rwa [List.head?_reverse] at hc
  rw [significant, hfront, hback, List.reverse_reverse]
  exact List.filter_eq_self.mpr fun c hc => not_isLineEnd (hs c hc)

/-- What is read has no blank at its end. -/
theorem getLast?_significant (s : List Char) : ∀ c ∈ (significant s).getLast?, 0x20 < c.toNat := by
  intro c hc
  unfold significant at hc
  rw [List.getLast?_eq_head?_reverse, List.filter_reverse, List.reverse_reverse] at hc
  have hnot := List.head?_dropWhile_not isBlank (s.dropWhile isBlank).reverse
  cases hrest : (s.dropWhile isBlank).reverse.dropWhile isBlank with
  | nil =>
    rw [hrest] at hc
    cases hc
  | cons d rest =>
    rw [hrest] at hc hnot
    have hd : 0x20 < d.toNat := by simpa using hnot
    rw [List.filter_cons, if_pos (not_isLineEnd (Nat.le_of_lt hd))] at hc
    obtain rfl : d = c := Option.some.inj hc
    exact hd

/-! ### The scheme -/

/-- A scheme of letters in lower case. -/
def IsScheme (scheme : List Char) : Prop := scheme ≠ [] ∧ scheme.all Char.isLower = true

theorem of_isLower {c : Char} (h : c.isLower = true) :
    c.isAlpha = true ∧ c.isAlphanum = true ∧ c.toLower = c ∧ 0x20 < c.toNat := by
  have halphanum : c.isAlphanum = true := by
    show ((c.isUpper || c.isLower) || c.isDigit) = true
    simp [h]
  have htest := forall_ascii (p := fun c => !c.isLower ||
    (c.isAlpha && c.isAlphanum && c.toLower == c && decide (0x20 < c.toNat))) (by decide +kernel)
    (toNat_lt_of_isAlphanum halphanum)
  simp only [h, Bool.not_true, Bool.false_or, Bool.and_eq_true, beq_iff_eq,
    decide_eq_true_eq] at htest
  exact ⟨htest.1.1.1, htest.1.1.2, htest.1.2, htest.2⟩

/-- The scheme is found before the first colon. -/
theorem splitScheme_append {scheme : List Char} (h : IsScheme scheme) (rest : List Char) :
    splitScheme (scheme ++ ':' :: rest) = some (scheme, rest) := by
  obtain ⟨hne, hall⟩ := h
  have hlower : ∀ c ∈ scheme, c.isLower = true := List.all_eq_true.mp hall
  have hchar : ∀ c ∈ scheme, (c.isAlphanum || c == '+' || c == '-' || c == '.') = true := by
    intro c hc
    simp [(of_isLower (hlower c hc)).2.1]
  have hmap : scheme.map Char.toLower = scheme :=
    (List.map_congr_left fun c hc => (of_isLower (hlower c hc)).2.2.1).trans (List.map_id scheme)
  have hhead : (scheme ++ ':' :: rest).head?.any Char.isAlpha = true := by
    obtain ⟨c, scheme, rfl⟩ := List.exists_cons_of_ne_nil hne
    exact (of_isLower (hlower c (by simp))).1
  have hcolon : (':'.isAlphanum || ':' == '+' || ':' == '-' || ':' == '.') = false := by decide
  simp only [splitScheme, if_pos hhead, List.dropWhile_append_of_pos hchar,
    List.takeWhile_append_of_pos hchar, List.dropWhile_cons, List.takeWhile_cons, hcolon,
    Bool.false_eq_true, if_false, List.append_nil, hmap]

/-- What follows the scheme and its colon is the rest of the text. -/
theorem exists_of_splitScheme {s scheme rest : List Char} (h : splitScheme s = some (scheme, rest)) :
    ∃ before, s = before ++ ':' :: rest := by
  simp only [splitScheme] at h
  split at h
  · split at h
    · next rest' hdrop =>
      obtain rfl : rest' = rest := (Prod.mk.inj (Option.some.inj h)).2
      exact ⟨_, by rw [← hdrop, List.takeWhile_append_dropWhile]⟩
    · cases h
  · cases h

/-! ### Query and fragment -/

theorem splitParts_of_no_marks {s : List Char} (h : ∀ c ∈ s, (c != '?' && c != '#') = true) :
    splitParts s = (s, none, none) := by
  have hdrop : s.dropWhile (fun c => c != '?' && c != '#') = [] :=
    List.dropWhile_eq_nil_iff.mpr h
  have htake : s.takeWhile (fun c => c != '?' && c != '#') = s :=
    List.takeWhile_eq_self_iff.mpr h
  simp only [splitParts, hdrop, htake]

theorem no_marks_of_splitParts {s main : List Char} (h : splitParts s = (main, none, none)) :
    main = s ∧ ∀ c ∈ s, (c != '?' && c != '#') = true := by
  simp only [splitParts] at h
  split at h
  · split at h <;> cases h
  · cases h
  · next hdrop =>
    have hall := List.dropWhile_eq_nil_iff.mp hdrop
    refine ⟨?_, hall⟩
    rw [← (Prod.mk.inj h).1]
    exact List.takeWhile_eq_self_iff.mpr hall

/-! ### The text after the scheme -/

/-- The text between the colon and the end of a URL that has no query and no
fragment: no mark of either, and no blank at its end. -/
structure IsMain (rest : List Char) : Prop where
  marks : ∀ c ∈ rest, (c != '?' && c != '#') = true
  last : ∀ c ∈ rest.getLast?, 0x20 < c.toNat

/-- The colon before such a text is no blank. -/
theorem getLast?_colon_iff (rest : List Char) :
    (∀ c ∈ (':' :: rest).getLast?, 0x20 < c.toNat) ↔ ∀ c ∈ rest.getLast?, 0x20 < c.toNat := by
  cases rest with
  | nil => simp
  | cons d rest => rw [List.getLast?_cons_cons]

theorem significant_of_isMain {scheme rest : List Char} (hscheme : IsScheme scheme)
    (hmain : IsMain rest) (hrest : ∀ c ∈ rest, 0x20 ≤ c.toNat) :
    significant (scheme ++ ':' :: rest) = scheme ++ ':' :: rest := by
  have hletter : ∀ c ∈ scheme, 0x20 < c.toNat := fun c hc =>
    (of_isLower (List.all_eq_true.mp hscheme.2 c hc)).2.2.2
  refine significant_of_trimmed (fun c hc => ?_) (fun c hc => ?_) (fun c hc => ?_)
  · obtain ⟨first, others, rfl⟩ := List.exists_cons_of_ne_nil hscheme.1
    obtain rfl : first = c := Option.some.inj hc
    exact hletter first (by simp)
  · rw [List.getLast?_append_cons] at hc
    exact (getLast?_colon_iff rest).mpr hmain.last c hc
  · rcases List.mem_append.mp hc with hc | hc
    · exact Nat.le_of_lt (hletter c hc)
    rcases List.mem_cons.mp hc with rfl | hc
    · decide
    · exact hrest c hc

/-- **A scheme and such a text without controls are read as they stand.** -/
theorem parse_of_parseHierarchy {scheme rest path : List Char} {authority : Option Authority}
    (hscheme : IsScheme scheme) (hmain : IsMain rest) (hrest : ∀ c ∈ rest, 0x20 ≤ c.toNat)
    (h : parseHierarchy scheme rest none = .ok (authority, path)) :
    parse (String.ofList (scheme ++ ':' :: rest)) = .ok ⟨scheme, authority, path, none, none⟩ := by
  rw [parse, String.toList_ofList, significant_of_isMain hscheme hmain hrest,
    splitScheme_append hscheme]
  simp only [splitParts_of_no_marks hmain.marks]
  exact ok_of_steps.mpr ⟨_, h, rfl⟩

/-- **A URL without a query and a fragment is read from such a text.** -/
theorem parseHierarchy_of_parse {s : String} {u : Url} (h : parse s = .ok u)
    (hquery : u.query = none) (hfragment : u.fragment = none) :
    ∃ rest, splitScheme (significant s.toList) = some (u.scheme, rest) ∧ IsMain rest ∧
      parseHierarchy u.scheme rest none = .ok (u.authority, u.path) := by
  unfold parse at h
  split at h
  · cases h
  · next scheme rest hscheme =>
    cases hparts : splitParts rest with
    | mk main marks =>
      obtain ⟨query, fragment⟩ := marks
      rw [hparts] at h
      obtain ⟨⟨authority, path⟩, hread, hu⟩ := ok_of_steps.mp h
      obtain rfl := Except.ok.inj hu
      obtain rfl : query = none := Option.map_eq_none_iff.mp hquery
      obtain rfl : fragment = none := Option.map_eq_none_iff.mp hfragment
      obtain ⟨rfl, hmarks⟩ := no_marks_of_splitParts hparts
      obtain ⟨before, hbefore⟩ := exists_of_splitScheme hscheme
      have hlast := getLast?_significant s.toList
      rw [hbefore, List.getLast?_append_cons, getLast?_colon_iff] at hlast
      exact ⟨main, hscheme, ⟨hmarks, hlast⟩, hread⟩

theorem le_of_not_control {c : Char} (h : controlSet c = false) : 0x20 ≤ c.toNat := by
  simp only [controlSet, Bool.or_eq_false_iff, decide_eq_false_iff_not] at h
  omega

theorem le_of_isEscaped {s : List Char} (h : IsEscaped controlSet s) : ∀ c ∈ s, 0x20 ≤ c.toNat :=
  fun c hc => le_of_not_control (h c hc).2

/-- What needs no escape in a path needs none anywhere, and is no mark or blank. -/
theorem of_pathSet {c : Char} (h : c.toNat < 0x80 ∧ pathSet c = false) :
    controlSet c = false ∧ (c != '?' && c != '#') = true ∧ 0x20 < c.toNat := by
  have htest := forall_ascii (p := fun c => pathSet c ||
    (!controlSet c && (c != '?' && c != '#') && decide (0x20 < c.toNat))) (by decide +kernel) h.1
  simp only [h.2, Bool.false_or, Bool.and_eq_true, Bool.not_eq_true', decide_eq_true_eq] at htest
  exact ⟨htest.1.1, by simpa using htest.1.2, htest.2⟩

theorem isMain_of_isEscaped {s : List Char} (h : IsEscaped pathSet s) : IsMain s :=
  ⟨fun c hc => (of_pathSet (h c hc)).2.1,
    fun c hc => (of_pathSet (h c (List.mem_of_getLast? hc))).2.2⟩

/-- Where paths escape nothing, the text is read as it stands. -/
theorem parse_of_isEscaped {scheme rest path : List Char} {authority : Option Authority}
    (hscheme : IsScheme scheme) (hrest : IsEscaped pathSet rest)
    (h : parseHierarchy scheme rest none = .ok (authority, path)) :
    parse (String.ofList (scheme ++ ':' :: rest)) = .ok ⟨scheme, authority, path, none, none⟩ :=
  parse_of_parseHierarchy hscheme (isMain_of_isEscaped hrest)
    (le_of_isEscaped fun c hc => ⟨(hrest c hc).1, (of_pathSet (hrest c hc)).1⟩) h

/-! ### Ports -/

theorem le_of_parsePort {own : Option Nat} {s rest : List Char} {n : Nat}
    (h : parsePort own s = .ok (some n, rest)) : n ≤ 65535 := by
  simp only [parsePort] at h
  split at h
  · cases h
  · next hbad =>
    split at h
    · cases h
    · obtain rfl := Option.some.inj (Prod.mk.inj (Except.ok.inj h)).1
      simp only [Bool.or_eq_true, not_or, decide_eq_true_eq, Nat.not_lt] at hbad
      exact hbad.1

theorem parsePort_decimal {n : Nat} (hn : n ≤ 65535) :
    parsePort none (decimal n) = .ok (some n, []) := by
  have hdigits : ∀ c ∈ decimal n, c.isDigit = true := fun c => isDigit_of_mem_decimal
  have htake : (decimal n).takeWhile Char.isDigit = decimal n :=
    List.takeWhile_eq_self_iff.mpr hdigits
  have hdrop : (decimal n).dropWhile Char.isDigit = [] := List.dropWhile_eq_nil_iff.mpr hdigits
  have hle : ¬65535 < n := by omega
  simp only [parsePort, htake, hdrop, foldl_decimal]
  simp [hle, decimal_ne_nil]

/-- What an authority comes to: a port is read if a colon follows the host, and otherwise all that
follows the host is left; behind no host nothing can follow. -/
theorem parseAuthority_cases {scheme s rest : List Char} {next : Option Char} {a : Authority}
    (h : parseAuthority .plain scheme s next = .ok (a, rest)) :
    ∃ after : List Char, (a.host = .absent → after = []) ∧
      ((∃ digits, after = ':' :: digits ∧
          parsePort (ownPort scheme) digits = .ok (a.port, rest)) ∨
        (a.port = none ∧ rest = after)) := by
  unfold parseAuthority at h
  have hplain : ¬SchemeKind.isSpecial .plain = true := by decide
  simp only [ok_of_unless, ok_of_steps, if_neg hplain] at h
  obtain ⟨-, -, host, -, hafter, h⟩ := h
  have hnothing {after : List Char} (h : ¬(host == .absent && !after.isEmpty) = true) :
      host = .absent → after = [] := by
    rintro rfl
    simpa using h
  split at h
  · next digits heq =>
    simp only [ok_of_unless, ok_of_steps, ok_of_pure, Prod.mk.injEq] at h
    obtain ⟨⟨port, rest'⟩, hport, -, rfl, rfl⟩ := h
    exact ⟨':' :: digits, heq ▸ hnothing hafter, .inl ⟨digits, rfl, hport⟩⟩
  · simp only [ok_of_unless, ok_of_steps, ok_of_pure, Prod.mk.injEq] at h
    obtain ⟨_, rfl, -, rfl, rfl⟩ := h
    exact ⟨_, hnothing hafter, .inr ⟨rfl, rfl⟩⟩

/-- A port that is read has 16 bits. -/
theorem port_le_of_parseAuthority {scheme s rest : List Char} {next : Option Char}
    {a : Authority} (h : parseAuthority .plain scheme s next = .ok (a, rest)) :
    ∀ n ∈ a.port, n ≤ 65535 := by
  obtain ⟨after, -, ⟨digits, -, hport⟩ | ⟨hnone, -⟩⟩ := parseAuthority_cases h
  · intro n hn
    rw [Option.mem_def.mp hn] at hport
    exact le_of_parsePort hport
  · simp [hnone]

/-- Without a host there is nothing behind the authority that it could leave. -/
theorem rest_of_parseAuthority {scheme s rest : List Char} {next : Option Char} {a : Authority}
    (h : parseAuthority .plain scheme s next = .ok (a, rest)) (habsent : a.host = .absent) :
    rest = [] := by
  obtain ⟨after, hafter, ⟨digits, hcolon, -⟩ | ⟨-, hrest⟩⟩ := parseAuthority_cases h
  · rw [hafter habsent] at hcolon
    cases hcolon
  · rw [hrest, hafter habsent]

/-! ### What is read -/

/-- A path that is below nothing: escaped, and with nothing in it that would
be read as something else. -/
structure IsOpaque (path : List Char) : Prop where
  isEscaped : IsEscaped controlSet path
  isMain : IsMain path
  head : path.head? ≠ some '/'

theorem isOpaque_encode {s : List Char} (hmain : IsMain s) (hhead : s.head? ≠ some '/') :
    IsOpaque (encode controlSet s) := by
  have hescape : escapeAlphabet.all (!controlSet ·) = true := by decide +kernel
  have hmarks : ∀ c ∈ escapeAlphabet, (c != '?' && c != '#') = true :=
    forall_mem_of_all (by decide +kernel)
  have hprinted : ∀ c ∈ escapeAlphabet, 0x20 < c.toNat ∧ c ≠ '/' :=
    forall_mem_of_all (by decide +kernel)
  refine ⟨isEscaped_encode hescape s, ⟨fun c hc => ?_, fun c hc => ?_⟩, fun hc => ?_⟩
  · rcases mem_encode hc with ⟨hc, -⟩ | hc
    · exact hmain.marks c hc
    · exact hmarks c hc
  · rcases mem_getLast?_encode hc with hc | hc
    · exact hmain.last c hc
    · exact (hprinted c hc).1
  · rcases mem_head?_encode hc with hc | hc
    · exact hhead hc
    · exact (hprinted '/' hc).2 rfl

/-- What is read under a plain scheme is in normal form: below an authority there
is no path or a rooted one, and without one the path is rooted or opaque. -/
theorem parseHierarchy_cases {scheme rest path : List Char} {next : Option Char}
    {authority : Option Authority} (hkind : SchemeKind.of scheme = .plain)
    (h : parseHierarchy scheme rest next = .ok (authority, path)) :
    (∃ a, authority = some a ∧ (path = [] ∨ IsRooted path) ∧ ∀ n ∈ a.port, n ≤ 65535) ∨
      (authority = none ∧ IsRooted path) ∨
      (authority = none ∧ rest.head? ≠ some '/' ∧ path = encode controlSet rest) := by
  simp only [parseHierarchy, hkind] at h
  split at h
  · next rest =>
    simp only [parseBelow, ok_of_steps, ok_of_pure, Prod.mk.injEq] at h
    obtain ⟨⟨a, below⟩, ha, rfl, rfl⟩ := h
    exact .inl ⟨a, rfl, pathBelow_plain_cases _, port_le_of_parseAuthority ha⟩
  · next rest _ =>
    obtain ⟨rfl, rfl⟩ := Prod.mk.inj (Except.ok.inj h)
    exact .inr (.inl ⟨rfl, isRooted_rootedPath rest⟩)
  · next hslashes hslash =>
    obtain ⟨rfl, rfl⟩ := Prod.mk.inj (Except.ok.inj h)
    refine .inr (.inr ⟨rfl, fun hhead => ?_, rfl⟩)
    obtain ⟨others, rfl⟩ := List.head?_eq_some_iff.mp hhead
    exact hslash others rfl

/-- A path that starts with a slash is read from the first slash behind an authority, or from the
only one in front. -/
theorem exists_rootedPath_of_parseHierarchy {scheme rest : List Char} {next : Option Char} {u : Url}
    (hkind : SchemeKind.of scheme = .plain)
    (h : parseHierarchy scheme rest next = .ok (u.authority, u.path)) (habsent : u.host = .absent)
    (hhead : u.path.head? = some '/') :
    ∃ more, u.path = rootedPath .plain more ∧
      ((∃ written, rest = '/' :: '/' :: (written ++ '/' :: more)) ∨
        (rest = '/' :: more ∧ more.head? ≠ some '/')) := by
  simp only [parseHierarchy, hkind] at h
  split at h
  · next rest =>
    simp only [parseBelow, ok_of_steps, ok_of_pure, Prod.mk.injEq] at h
    obtain ⟨⟨a, left⟩, ha, hauthority, hpath⟩ := h
    rw [Url.host, ← hauthority] at habsent
    obtain rfl : left = [] := rest_of_parseAuthority ha habsent
    have hend := List.head?_dropWhile_not (!isSlash .plain ·) rest
    have hrest : rest.takeWhile (!isSlash .plain ·) ++ rest.dropWhile (!isSlash .plain ·) = rest :=
      List.takeWhile_append_dropWhile
    cases hafter : rest.dropWhile (!isSlash .plain ·) with
    | nil =>
      rw [hafter] at hpath
      rw [← hpath] at hhead
      cases hhead
    | cons c more =>
      rw [hafter] at hpath hend hrest
      obtain rfl : c = '/' := by simpa [isSlash_plain] using hend
      refine ⟨more, hpath.symm, .inl ⟨rest.takeWhile (!isSlash .plain ·), ?_⟩⟩
      rw [hrest]
  · next more hslashes =>
    obtain ⟨-, hpath⟩ := Prod.mk.inj (Except.ok.inj h)
    refine ⟨more, hpath.symm, .inr ⟨rfl, fun hmore => ?_⟩⟩
    obtain ⟨others, rfl⟩ := List.head?_eq_some_iff.mp hmore
    exact hslashes others rfl
  · next hslashes hslash =>
    obtain ⟨-, hpath⟩ := Prod.mk.inj (Except.ok.inj h)
    rw [← hpath] at hhead
    -- an escape is no slash, so the text would start with one
    rcases mem_head?_encode hhead with hhead | hescape
    · obtain ⟨others, rfl⟩ := List.head?_eq_some_iff.mp hhead
      exact absurd rfl (hslash others)
    · exact absurd hescape (by decide +kernel)

section Parsed

variable {s : String} {u : Url} (h : parse s = .ok u) (hkind : SchemeKind.of u.scheme = .plain)
  (hquery : u.query = none) (hfragment : u.fragment = none)
include h hkind hquery hfragment

/-- A path that starts with a slash is rooted. -/
theorem isRooted_of_parse (hhead : u.path.head? = some '/') : IsRooted u.path := by
  obtain ⟨rest, -, hmain, hread⟩ := parseHierarchy_of_parse h hquery hfragment
  rcases parseHierarchy_cases hkind hread with
    ⟨a, -, hpath | hpath, -⟩ | ⟨-, hpath⟩ | ⟨-, hrest, hpath⟩
  · rw [hpath] at hhead
    cases hhead
  · exact hpath
  · exact hpath
  · rw [hpath] at hhead
    exact absurd hhead (isOpaque_encode hmain hrest).head

/-- A path below nothing that starts with no slash is opaque. -/
theorem isOpaque_of_parse (hauthority : u.authority = none) (hhead : u.path.head? ≠ some '/') :
    IsOpaque u.path := by
  obtain ⟨rest, -, hmain, hread⟩ := parseHierarchy_of_parse h hquery hfragment
  rcases parseHierarchy_cases hkind hread with ⟨a, ha, -⟩ | ⟨-, hpath⟩ | ⟨-, hrest, hpath⟩
  · rw [hauthority] at ha
    cases ha
  · obtain ⟨others, hothers⟩ := hpath.exists_cons
    rw [hothers] at hhead
    exact absurd rfl hhead
  · rw [hpath]
    exact isOpaque_encode hmain hrest

theorem port_le_of_parse {port : Nat} (hport : u.port = some port) : port ≤ 65535 := by
  obtain ⟨rest, -, -, hread⟩ := parseHierarchy_of_parse h hquery hfragment
  rcases parseHierarchy_cases hkind hread with ⟨a, ha, -, hle⟩ | ⟨ha, -⟩ | ⟨ha, -⟩ <;>
    rw [Url.port, ha] at hport
  · exact hle port hport
  · cases hport
  · cases hport

end Parsed

/-! ### What is in normal form -/

theorem splitAtLastAt_of_not_mem {s : List Char} (h : '@' ∉ s) : splitAtLastAt s = none := by
  have htake : s.reverse.takeWhile (· != '@') = s.reverse := by
    refine List.takeWhile_eq_self_iff.mpr fun c hc => bne_iff_ne.mpr ?_
    rintro rfl
    exact h (List.mem_reverse.mp hc)
  simp only [splitAtLastAt, htake, List.reverse_reverse, if_true]

/-- A host without brackets ends at the first colon, or with the text. -/
theorem splitHost_of_no_mark {host : List Char} (h : ∀ c ∈ host, c ≠ ':' ∧ c ≠ '[')
    (rest : List Char) (hrest : ∀ c ∈ rest.head?, c = ':') :
    splitHost false (host ++ rest) = (host, rest) := by
  induction host with
  | nil =>
    cases rest with
    | nil => rfl
    | cons c rest =>
      obtain rfl : c = ':' := hrest c rfl
      rfl
  | cons c host ih =>
    obtain ⟨hc, hhost⟩ := List.forall_mem_cons.mp h
    have hopen : (c == '[') = false := beq_eq_false_iff_ne.mpr hc.2
    rw [List.cons_append, splitHost]
    simp [hc.1, hopen, ih hhost]

/-- A host in brackets ends behind the closing one. -/
theorem splitHost_of_brackets {host : List Char} (h : ']' ∉ host) (rest : List Char) :
    splitHost false ('[' :: (host ++ ']' :: ':' :: rest)) =
      ('[' :: (host ++ [']']), ':' :: rest) := by
  have hinside : splitHost true (host ++ ']' :: ':' :: rest) = (host ++ [']'], ':' :: rest) := by
    induction host with
    | nil => rfl
    | cons c host ih =>
      rw [List.mem_cons, not_or] at h
      have hclose : (c != ']') = true := bne_iff_ne.mpr (Ne.symm h.1)
      rw [List.cons_append, splitHost]
      simp [hclose, ih h.2]
  rw [splitHost]
  simp [hinside]

/-- A host, where no user info and no port can be. -/
theorem parseAuthority_of_host {scheme text : List Char} {host : Host} {next : Option Char}
    (hat : '@' ∉ text) (hsplit : splitHost false text = (text, []))
    (hhost : Host.parsePlain text = .ok host) :
    parseAuthority .plain scheme text next = .ok (⟨[], none, host, none⟩, []) := by
  have hplain : ¬SchemeKind.isSpecial .plain = true := by decide
  unfold parseAuthority
  simp only [splitAtLastAt_of_not_mem hat, hsplit, if_neg hplain, hhost, ok_of_unless, ok_of_steps]
  exact ⟨by simp, by simp, host, rfl, by simp, (none, []), rfl, by simp [parseUserInfo, encode],
    rfl⟩

/-- A host and a port, where no user info can be. -/
theorem parseAuthority_of_port {scheme text : List Char} {host : Host} {port : Nat}
    (hown : ownPort scheme = none) (hat : '@' ∉ text ++ ':' :: decimal port)
    (hsplit : ∀ rest, splitHost false (text ++ ':' :: rest) = (text, ':' :: rest))
    (hhost : Host.parsePlain text = .ok host) (habsent : host ≠ .absent) (hport : port ≤ 65535) :
    parseAuthority .plain scheme (text ++ ':' :: decimal port) none =
      .ok (⟨[], none, host, some port⟩, []) := by
  have hpresent : (host == .absent) = false := beq_eq_false_iff_ne.mpr habsent
  have hplain : ¬SchemeKind.isSpecial .plain = true := by decide
  unfold parseAuthority
  simp only [splitAtLastAt_of_not_mem hat, hsplit, if_neg hplain, hhost, hown,
    parsePort_decimal hport, ok_of_unless, ok_of_steps]
  -- none of the three refusals holds, and the host and the port are read
  exact ⟨by simp, by simp, host, rfl, by simp [hpresent], (some port, []), rfl,
    by simp [hpresent], rfl⟩

/-- An authority ends at the first slash, and the path is read from there. -/
theorem parseHierarchy_of_authority {scheme written path : List Char} {next : Option Char}
    {a : Authority} (hkind : SchemeKind.of scheme = .plain) (hwritten : '/' ∉ written)
    (hpath : path = [] ∨ path.head? = some '/')
    (h : parseAuthority .plain scheme written (path.head? <|> next) = .ok (a, [])) :
    parseHierarchy scheme ('/' :: '/' :: (written ++ path)) next =
      .ok (some a, pathBelow .plain path) := by
  have hall : ∀ c ∈ written, (!isSlash .plain c) = true := by
    intro c hc
    have hne : c ≠ '/' := fun hslash => hwritten (hslash ▸ hc)
    simp [isSlash_plain, hne]
  have hend : path.takeWhile (!isSlash .plain ·) = [] ∧
      path.dropWhile (!isSlash .plain ·) = path := by
    rcases hpath with rfl | hhead
    · exact ⟨rfl, rfl⟩
    · obtain ⟨rest, rfl⟩ := List.head?_eq_some_iff.mp hhead
      simp [isSlash_plain]
  simp only [parseHierarchy, hkind, parseBelow, List.takeWhile_append_of_pos hall,
    List.dropWhile_append_of_pos hall, hend.1, hend.2, List.append_nil]
  exact ok_of_steps.mpr ⟨_, h, rfl⟩

/-- No path and a rooted one are read below an authority as they are. -/
theorem pathBelow_of_isRooted {path : List Char} (h : path = [] ∨ IsRooted path) :
    (path = [] ∨ path.head? = some '/') ∧ pathBelow .plain path = path := by
  rcases h with rfl | hpath
  · exact ⟨.inl rfl, rfl⟩
  · obtain ⟨rest, rfl⟩ := hpath.exists_cons
    exact ⟨.inr rfl, rootedPath_of_isRooted hpath⟩

/-- A path is read below an authority that names no host. -/
theorem parseHierarchy_of_path {scheme path : List Char} {next : Option Char}
    (hkind : SchemeKind.of scheme = .plain) (hhead : path.head? = some '/') :
    parseHierarchy scheme ('/' :: '/' :: path) next =
      .ok (some ⟨[], none, .absent, none⟩, pathBelow .plain path) := by
  have hauthority : parseAuthority .plain scheme [] (path.head? <|> next) =
      .ok (⟨[], none, .absent, none⟩, []) := parseAuthority_of_host List.not_mem_nil rfl rfl
  exact parseHierarchy_of_authority hkind List.not_mem_nil (.inr hhead) hauthority

/-- A host is read behind the two slashes, with the path below it. -/
theorem parseHierarchy_of_host {scheme text path : List Char} {host : Host} {next : Option Char}
    (hkind : SchemeKind.of scheme = .plain)
    (htext : ∀ c ∈ text, c ≠ '/' ∧ c ≠ '@' ∧ c ≠ ':' ∧ c ≠ '[')
    (hhost : Host.parsePlain text = .ok host) (hpath : path = [] ∨ IsRooted path) :
    parseHierarchy scheme ('/' :: '/' :: (text ++ path)) next =
      .ok (some ⟨[], none, host, none⟩, path) := by
  obtain ⟨hhead, hbelow⟩ := pathBelow_of_isRooted hpath
  have hat : '@' ∉ text := fun hc => (htext '@' hc).2.1 rfl
  have hslash : '/' ∉ text := fun hc => (htext '/' hc).1 rfl
  have hsplit := splitHost_of_no_mark (fun c hc => (htext c hc).2.2) [] (by simp)
  rw [List.append_nil] at hsplit
  have hauthority : parseAuthority .plain scheme text (path.head? <|> next) =
      .ok (⟨[], none, host, none⟩, []) := parseAuthority_of_host hat hsplit hhost
  have hread := parseHierarchy_of_authority hkind hslash hhead hauthority
  rwa [hbelow] at hread

/-- A host and a port are read behind the two slashes. -/
theorem parseHierarchy_of_port {scheme text : List Char} {host : Host} {port : Nat}
    (hkind : SchemeKind.of scheme = .plain) (hown : ownPort scheme = none)
    (htext : ∀ c ∈ text, c ≠ '/' ∧ c ≠ '@')
    (hsplit : ∀ rest, splitHost false (text ++ ':' :: rest) = (text, ':' :: rest))
    (hhost : Host.parsePlain text = .ok host) (habsent : host ≠ .absent) (hport : port ≤ 65535) :
    parseHierarchy scheme ('/' :: '/' :: (text ++ ':' :: decimal port)) none =
      .ok (some ⟨[], none, host, some port⟩, []) := by
  have hall : ∀ c ∈ text ++ ':' :: decimal port, c ≠ '/' ∧ c ≠ '@' := by
    intro c hc
    rcases List.mem_append.mp hc with hc | hc
    · exact htext c hc
    rcases List.mem_cons.mp hc with rfl | hc
    · decide
    · have hdigit := isDigit_of_mem_decimal hc
      constructor <;> (rintro rfl; exact absurd hdigit (by decide))
  have hslash : '/' ∉ text ++ ':' :: decimal port := fun h => (hall '/' h).1 rfl
  have hat : '@' ∉ text ++ ':' :: decimal port := fun h => (hall '@' h).2 rfl
  have hauthority := parseAuthority_of_port hown hat hsplit hhost habsent hport
  have hread := parseHierarchy_of_authority hkind hslash (.inl rfl) hauthority
  rwa [List.append_nil] at hread

/-- An opaque path is read as it is. -/
theorem parseHierarchy_of_isOpaque {scheme path : List Char} {next : Option Char}
    (hkind : SchemeKind.of scheme = .plain) (hpath : IsOpaque path) :
    parseHierarchy scheme path next = .ok (none, path) := by
  have hencode : encode controlSet path = path := encode_of_isEscaped hpath.isEscaped
  simp only [parseHierarchy, hkind]
  split
  · exact absurd rfl hpath.head
  · exact absurd rfl hpath.head
  · rw [hencode]

/-! ### Addresses as hosts -/

/-- A host that needs no escapes is read as it is. -/
theorem parsePlain_of_forall {text : List Char} (hne : text ≠ [])
    (h : ∀ c ∈ text, Host.isForbidden c = false ∧ c ≠ '[' ∧ c.toNat < 0x80 ∧ controlSet c = false) :
    Host.parsePlain text = .ok (.domain text) := by
  have hescaped : IsEscaped controlSet text := fun c hc => (h c hc).2.2
  have hhead : ¬(text.head? == some '[') = true := by
    intro hhead
    exact (h '[' (List.mem_of_mem_head? (eq_of_beq hhead))).2.1 rfl
  have hforbidden : ¬text.any Host.isForbidden = true := by
    rw [List.any_eq_true]
    rintro ⟨c, hc, hbad⟩
    rw [(h c hc).1] at hbad
    cases hbad
  have hempty : ¬text.isEmpty = true := by rwa [List.isEmpty_iff]
  rw [Host.parsePlain, if_neg hhead, if_neg hforbidden, if_neg hempty,
    encode_of_isEscaped hescaped]

/-- Without brackets an address of version 4 is read as a name. -/
theorem parsePlain_v4 (x : Ipv4) : Host.parsePlain x.text = .ok (.domain x.text) := by
  have hallowed : ∀ c ∈ Ipv4.alphabet, Host.isForbidden c = false ∧ c ≠ '[' ∧
      c.toNat < 0x80 ∧ controlSet c = false := forall_mem_of_all (by decide +kernel)
  exact parsePlain_of_forall (by simp [Ipv4.text])
    fun c hc => hallowed c (Ipv4.mem_alphabet_of_mem_text hc)

/-- Between brackets stands an address of version 6. -/
theorem parsePlain_v6 (x : Ipv6) :
    Host.parsePlain ('[' :: (x.text ++ [']'])) = .ok (.v6 x) := by
  have hlast : ('[' :: (x.text ++ [']'])).getLast? = some ']' := by
    rw [← List.cons_append, List.getLast?_concat]
  simp [Host.parsePlain, Host.parseBracketed, hlast, Ipv6.parse_text]

end Url
end WorkloadIdentity
