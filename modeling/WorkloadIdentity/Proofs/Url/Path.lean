/-
# Paths of URLs in normal form

Reading a path escapes its characters and resolves its dot segments. What comes
out needs neither: its characters are ASCII and outside the set that paths
escape, and none of its segments spells one dot or two. A path like this is
`IsRooted`. The reader gives no other ones (`isRooted_rootedPath`) and leaves
them as they are (`rootedPath_of_isRooted`), so reading a path twice comes to
reading it once.

Escaping makes no dots of what was none. Escapes of a dot are read as the octet of
one, and reading the escapes of a segment gives its own octets back, unless it had
percent signs (`isPathSegment_encode`). So a path without dot segments and percent
signs is only escaped (`rootedPath_of_segments`).

Empty segments are kept. A path comes out as slashes only if it was the root, or if
it has two slashes in a row (`exists_segment_of_rootedPath`).

Key definitions: `Url.IsPathSegment`, `Url.IsRooted`.
Key theorems: `Url.isPathSegment_encode`, `Url.isRooted_rootedPath`,
`Url.rootedPath_of_segments`, `Url.rootedPath_of_isRooted`, `Url.exists_segment_of_rootedPath`.
-/
import WorkloadIdentity.Url.Parser
import WorkloadIdentity.Proofs.Url.Percent

namespace WorkloadIdentity
namespace Url

open Percent

/-! ### Dot segments -/

/-- A segment that the reader leaves as it is. -/
structure IsPathSegment (segment : List Char) : Prop where
  isEscaped : IsEscaped pathSet segment
  slash : '/' ∉ segment
  doubleDot : isDoubleDot segment = false
  singleDot : isSingleDot segment = false

theorem isPathSegment_nil : IsPathSegment [] :=
  ⟨fun _ h => absurd h List.not_mem_nil, List.not_mem_nil, by decide +kernel, by decide +kernel⟩

/-- What these characters are in lower case, no other ASCII ones are, but for the letter. -/
theorem of_toLower {c : Char} (hc : c.toNat < 0x80) :
    (c.toLower = '.' → c = '.') ∧ (c.toLower = '%' → c = '%') ∧ (c.toLower = '2' → c = '2') ∧
      (c.toLower = 'e' → Hex.value? c = some 14) := by
  have htest := forall_ascii (p := fun c => (c.toLower != '.' || c == '.') &&
    (c.toLower != '%' || c == '%') && (c.toLower != '2' || c == '2') &&
    (c.toLower != 'e' || Hex.value? c == some 14)) (by decide +kernel) hc
  simp only [Bool.and_eq_true, Bool.or_eq_true, bne_iff_ne, beq_iff_eq] at htest
  tauto

theorem isSingleDot_iff {segment : List Char} : isSingleDot segment = true ↔
    segment.map Char.toLower = ['.'] ∨ segment.map Char.toLower = ['%', '2', 'e'] := by
  unfold isSingleDot
  rw [List.contains_iff_mem, List.mem_cons, List.mem_singleton, ← String.toList_inj,
    ← String.toList_inj, String.toList_ofList]
  rfl

/-- Two dots are spelled by two spellings of one. -/
theorem exists_of_isDoubleDot {segment : List Char} (h : isDoubleDot segment = true) :
    ∃ first second, segment = first ++ second ∧ isSingleDot first = true ∧
      isSingleDot second = true := by
  unfold isDoubleDot at h
  simp only [List.contains_iff_mem, List.mem_cons, List.not_mem_nil, or_false,
    ← String.toList_inj, String.toList_ofList] at h
  have hcut (front back : List Char) (h : segment.map Char.toLower = front ++ back)
      (hfront : front = ['.'] ∨ front = ['%', '2', 'e'])
      (hback : back = ['.'] ∨ back = ['%', '2', 'e']) :
      ∃ first second, segment = first ++ second ∧ isSingleDot first = true ∧
        isSingleDot second = true := by
    obtain ⟨first, second, rfl, rfl, rfl⟩ := List.map_eq_append_iff.mp h
    exact ⟨first, second, rfl, isSingleDot_iff.mpr hfront, isSingleDot_iff.mpr hback⟩
  rcases h with h | h | h | h
  · exact hcut ['.'] ['.'] h (.inl rfl) (.inl rfl)
  · exact hcut ['.'] ['%', '2', 'e'] h (.inl rfl) (.inr rfl)
  · exact hcut ['%', '2', 'e'] ['.'] h (.inr rfl) (.inl rfl)
  · exact hcut ['%', '2', 'e'] ['%', '2', 'e'] h (.inr rfl) (.inr rfl)

/-- A dot in any spelling is read as the octet of a dot. -/
theorem decode_append_of_isSingleDot {segment : List Char} (hascii : ∀ c ∈ segment, c.toNat < 0x80)
    (h : isSingleDot segment = true) (rest : List Char) :
    decode (segment ++ rest) = 0x2e :: decode rest := by
  rcases isSingleDot_iff.mp h with hdot | hescape
  · obtain ⟨c, rfl, hc⟩ := List.map_eq_singleton_iff.mp hdot
    obtain rfl := (of_toLower (hascii c (by simp))).1 hc
    exact decode_cons_of_ne (by decide) rest
  · obtain ⟨c₁, s₁, rfl, h₁, hescape⟩ := List.map_eq_cons_iff.mp hescape
    obtain ⟨c₂, s₂, rfl, h₂, hescape⟩ := List.map_eq_cons_iff.mp hescape
    obtain ⟨c₃, rfl, h₃⟩ := List.map_eq_singleton_iff.mp hescape
    obtain rfl := (of_toLower (hascii c₁ (by simp))).2.1 h₁
    obtain rfl := (of_toLower (hascii c₂ (by simp))).2.2.1 h₂
    have hlow := (of_toLower (hascii c₃ (by simp))).2.2.2 h₃
    have hhigh : Hex.value? '2' = some 2 := by decide
    simp only [List.cons_append, List.nil_append, decode, hhigh, hlow]
    rfl

theorem slash_not_mem_encode {s : List Char} (h : '/' ∉ s) : '/' ∉ encode pathSet s := by
  intro hmem
  rcases mem_encode hmem with ⟨hmem, -⟩ | hmem
  · exact h hmem
  · exact absurd hmem (by decide +kernel)

/-- A text without percent signs that is escaped is a segment that the reader leaves, unless it
was dots. -/
theorem isPathSegment_encode {s : List Char} (hpercent : '%' ∉ s) (hslash : '/' ∉ s)
    (hdot : s ≠ ['.']) (hdots : s ≠ ['.', '.']) : IsPathSegment (encode pathSet s) := by
  have hescape : escapeAlphabet.all (!pathSet ·) = true := by decide +kernel
  have hescaped : IsEscaped pathSet (encode pathSet s) := isEscaped_encode hescape s
  have hoctets (bytes : Bytes) {t : List Char} (ht : bytes = Utf8.encode (String.ofList t))
      (hread : decode (encode pathSet s) = bytes) : s = t := by
    rw [decode_encode pathSet hpercent, ht] at hread
    have := congrArg Utf8.decode hread
    rw [Utf8.decode_encode, Utf8.decode_encode] at this
    exact String.ofList_injective (Option.some.inj this)
  have hread {segment : List Char} (hmem : ∀ c ∈ segment, c ∈ encode pathSet s)
      (h : isSingleDot segment = true) (rest : List Char) :
      decode (segment ++ rest) = 0x2e :: decode rest :=
    decode_append_of_isSingleDot (fun c hc => (hescaped c (hmem c hc)).1) h rest
  refine ⟨hescaped, slash_not_mem_encode hslash, Bool.eq_false_iff.mpr fun h => ?_,
    Bool.eq_false_iff.mpr fun h => ?_⟩
  · obtain ⟨first, second, hcut, hfirst, hsecond⟩ := exists_of_isDoubleDot h
    refine hdots (hoctets [0x2e, 0x2e] (by decide +kernel) ?_)
    have hmem : ∀ c ∈ first ++ second, c ∈ encode pathSet s := by
      rw [hcut]
      exact fun c hc => hc
    rw [List.forall_mem_append] at hmem
    have hlast := hread hmem.2 hsecond []
    rw [List.append_nil] at hlast
    rw [hcut, hread hmem.1 hfirst, hlast]
    rfl
  · refine hdot (hoctets [0x2e] (by decide +kernel) ?_)
    have hlast := hread (fun c hc => hc) h []
    rw [List.append_nil] at hlast
    exact hlast

theorem mem_of_mem_up {segment : List Char} {done : List (List Char)}
    (h : segment ∈ resolve.up done) : segment ∈ done := by
  cases done with
  | nil => exact h
  | cons last before =>
    rw [resolve.up] at h
    split at h
    · exact h
    · exact List.mem_cons_of_mem last h

/-- A resolved path has segments that were there and are no dots, and empty
ones. -/
theorem forall_mem_resolve {p : List Char → Prop} (hnil : p []) {done segments : List (List Char)}
    (hdone : ∀ x ∈ done, p x)
    (hsegments : ∀ x ∈ segments, isDoubleDot x = false → isSingleDot x = false → p x) :
    ∀ x ∈ resolve done segments, p x := by
  have hup {done : List (List Char)} (hdone : ∀ x ∈ done, p x) : ∀ x ∈ resolve.up done, p x :=
    fun x hx => hdone x (mem_of_mem_up hx)
  have hlast {last : List Char} {done : List (List Char)} (hlast : p last)
      (hdone : ∀ x ∈ done, p x) : ∀ x ∈ (last :: done).reverse, p x := fun x hx =>
    List.forall_mem_cons.mpr ⟨hlast, hdone⟩ x (List.mem_reverse.mp hx)
  fun_induction resolve done segments with
  | case1 done => simpa using hdone
  | case2 done last hdouble => exact hlast hnil (hup hdone)
  | case3 done last hdouble hsingle => exact hlast hnil hdone
  | case4 done last hdouble hsingle =>
    exact hlast (hsegments last (by simp) (by simpa using hdouble) (by simpa using hsingle)) hdone
  | case5 done segment rest hne hdouble ih =>
    exact ih (hup hdone) fun x hx => hsegments x (List.mem_cons_of_mem segment hx)
  | case6 done segment rest hne hdouble hsingle ih =>
    exact ih hdone fun x hx => hsegments x (List.mem_cons_of_mem segment hx)
  | case7 done segment rest hne hdouble hsingle ih =>
    have hsegment : p segment :=
      hsegments segment (by simp) (by simpa using hdouble) (by simpa using hsingle)
    exact ih (List.forall_mem_cons.mpr ⟨hsegment, hdone⟩)
      fun x hx => hsegments x (List.mem_cons_of_mem segment hx)

theorem resolve_ne_nil {done segments : List (List Char)} (h : segments ≠ []) :
    resolve done segments ≠ [] := by
  fun_induction resolve done segments with
  | case1 => exact absurd rfl h
  | case2 | case3 | case4 => simp
  | case5 _ _ _ hne _ ih | case6 _ _ _ hne _ _ ih | case7 _ _ _ hne _ _ ih => exact ih hne

theorem resolve_of_no_dots {done segments : List (List Char)}
    (h : ∀ x ∈ segments, isDoubleDot x = false ∧ isSingleDot x = false) :
    resolve done segments = done.reverse ++ segments := by
  fun_induction resolve done segments with
  | case1 => simp
  | case2 done last hdouble => simp [h last] at hdouble
  | case3 done last _ hsingle => simp [h last] at hsingle
  | case4 => simp
  | case5 done segment rest _ hdouble => simp [h segment] at hdouble
  | case6 done segment rest _ _ hsingle => simp [h segment] at hsingle
  | case7 done segment rest _ _ _ ih =>
    rw [ih fun x hx => h x (List.mem_cons_of_mem segment hx)]
    simp

/-! ### Rooted paths -/

/-- A slash, and segments in normal form with slashes between them. -/
def IsRooted (path : List Char) : Prop :=
  ∃ segments : List (List Char), segments ≠ [] ∧ (∀ x ∈ segments, IsPathSegment x) ∧
    path = '/' :: ['/'].intercalate segments

theorem IsRooted.exists_cons {path : List Char} (h : IsRooted path) :
    ∃ rest, path = '/' :: rest := by
  obtain ⟨segments, -, -, rfl⟩ := h
  exact ⟨_, rfl⟩

/-- A path escapes no slashes. -/
theorem isEscaped_slash_cons {s : List Char} (h : IsEscaped pathSet s) :
    IsEscaped pathSet ('/' :: s) :=
  List.forall_mem_cons.mpr ⟨by decide +kernel, h⟩

theorem IsRooted.isEscaped {path : List Char} (h : IsRooted path) : IsEscaped pathSet path := by
  obtain ⟨segments, -, hsegments, rfl⟩ := h
  refine isEscaped_slash_cons fun c hc => ?_
  rcases eq_or_mem_of_mem_intercalate hc with rfl | ⟨segment, hsegment, hc⟩
  · decide +kernel
  · exact (hsegments segment hsegment).isEscaped c hc

/-- Under a plain scheme only a slash is one. -/
theorem isSlash_plain (c : Char) : isSlash .plain c = (c == '/') := by
  simp [isSlash, SchemeKind.isSpecial]

theorem map_isSlash_plain (s : List Char) :
    (s.map fun c => if isSlash .plain c then '/' else c) = s := by
  refine (List.map_congr_left fun c _ => ?_).trans (List.map_id s)
  by_cases hc : c = '/'
  · simp [hc]
  · simp [isSlash_plain, hc]

theorem rootedPath_plain (s : List Char) : rootedPath .plain s =
    '/' :: ['/'].intercalate (resolve [] ((s.splitOn '/').map (encode pathSet))) := by
  rw [rootedPath, map_isSlash_plain]

/-- What is left of the segments of a path is in normal form. -/
theorem isPathSegment_of_mem_resolve {s segment : List Char}
    (h : segment ∈ resolve [] ((s.splitOn '/').map (encode pathSet))) : IsPathSegment segment := by
  have hescape : escapeAlphabet.all (!pathSet ·) = true := by decide +kernel
  refine forall_mem_resolve isPathSegment_nil (by simp) (fun x hx hdouble hsingle => ?_) segment h
  obtain ⟨part, hpart, rfl⟩ := List.mem_map.mp hx
  have hslash : '/' ∉ part := not_mem_of_mem_splitOn '/' s part hpart
  exact ⟨isEscaped_encode hescape part, slash_not_mem_encode hslash, hdouble, hsingle⟩

/-- **What the reader makes of a path is in normal form.** -/
theorem isRooted_rootedPath (s : List Char) : IsRooted (rootedPath .plain s) :=
  ⟨resolve [] ((s.splitOn '/').map (encode pathSet)), resolve_ne_nil (by simp),
    fun _ hx => isPathSegment_of_mem_resolve hx, rootedPath_plain s⟩

/-- A path without dot segments is only escaped. -/
theorem rootedPath_of_segments {segments : List (List Char)} (hne : segments ≠ [])
    (hslash : ∀ x ∈ segments, '/' ∉ x)
    (hsegments : ∀ x ∈ segments, IsPathSegment (encode pathSet x)) :
    rootedPath .plain (['/'].intercalate segments) =
      encode pathSet ('/' :: ['/'].intercalate segments) := by
  have hslashChar : encodeChar pathSet '/' = ['/'] := by decide +kernel
  have hresolve : resolve [] (segments.map (encode pathSet)) = segments.map (encode pathSet) := by
    refine resolve_of_no_dots (List.forall_mem_map.mpr fun x hx => ?_)
    exact ⟨(hsegments x hx).doubleDot, (hsegments x hx).singleDot⟩
  rw [rootedPath_plain, List.splitOn_intercalate '/' hslash hne, hresolve, encode_cons, hslashChar,
    encode_intercalate hslashChar]
  rfl

/-- **A path in normal form is read as it is.** -/
theorem rootedPath_of_isRooted {rest : List Char} (h : IsRooted ('/' :: rest)) :
    rootedPath .plain rest = '/' :: rest := by
  obtain ⟨segments, hne, hsegments, hrest⟩ := id h
  obtain rfl : rest = ['/'].intercalate segments := (List.cons.inj hrest).2
  have hwritten : ∀ x ∈ segments, IsPathSegment (encode pathSet x) := by
    intro x hx
    rw [encode_of_isEscaped (hsegments x hx).isEscaped]
    exact hsegments x hx
  rw [rootedPath_of_segments hne (fun x hx => (hsegments x hx).slash) hwritten,
    encode_of_isEscaped h.isEscaped]

/-! ### Paths of slashes only -/

/-- Resolving leaves no empty segment before the last one where none was. -/
theorem ne_nil_of_mem_dropLast_resolve {done segments : List (List Char)}
    (hdone : ∀ x ∈ done, x ≠ []) (hsegments : ∀ x ∈ segments.dropLast, x ≠ []) :
    ∀ x ∈ (resolve done segments).dropLast, x ≠ [] := by
  have hlast {last : List Char} {done : List (List Char)} (hdone : ∀ x ∈ done, x ≠ []) :
      ∀ x ∈ (last :: done).reverse.dropLast, x ≠ [] := by
    rw [List.reverse_cons, List.dropLast_concat]
    exact fun x hx => hdone x (List.mem_reverse.mp hx)
  have hup {done : List (List Char)} (hdone : ∀ x ∈ done, x ≠ []) :
      ∀ x ∈ resolve.up done, x ≠ [] := fun x hx => hdone x (mem_of_mem_up hx)
  have hrest {segment : List Char} {rest : List (List Char)} (hne : rest ≠ [])
      (h : ∀ x ∈ (segment :: rest).dropLast, x ≠ []) :
      segment ≠ [] ∧ ∀ x ∈ rest.dropLast, x ≠ [] := by
    rwa [List.dropLast_cons_of_ne_nil hne, List.forall_mem_cons] at h
  fun_induction resolve done segments with
  | case1 done => exact fun x hx => hdone x (List.mem_reverse.mp (List.mem_of_mem_dropLast hx))
  | case2 done last hdouble => exact hlast (hup hdone)
  | case3 done last hdouble hsingle => exact hlast hdone
  | case4 done last hdouble hsingle => exact hlast hdone
  | case5 done segment rest hne hdouble ih => exact ih (hup hdone) (hrest hne hsegments).2
  | case6 done segment rest hne hdouble hsingle ih => exact ih hdone (hrest hne hsegments).2
  | case7 done segment rest hne hdouble hsingle ih =>
    obtain ⟨hsegment, hlater⟩ := hrest hne hsegments
    exact ih (List.forall_mem_cons.mpr ⟨hsegment, hdone⟩) hlater

/-- An empty segment before the last one stands between two slashes. -/
theorem infix_of_nil_mem_dropLast : ∀ {segments : List (List Char)},
    [] ∈ segments.dropLast → ['/', '/'] <:+: '/' :: ['/'].intercalate segments
  | [], h => absurd h List.not_mem_nil
  | [_], h => absurd h List.not_mem_nil
  | segment :: next :: rest, h => by
    rw [List.dropLast_cons_cons] at h
    rw [List.intercalate_cons_cons]
    rcases List.mem_cons.mp h with rfl | h
    · exact ⟨[], ['/'].intercalate (next :: rest), rfl⟩
    · have ih := infix_of_nil_mem_dropLast h
      exact ih.trans ⟨'/' :: segment, [], by simp⟩

/-- **A path without two slashes in a row is the root, or is read as one that names something.** -/
theorem exists_segment_of_rootedPath {s : List Char} (hroot : rootedPath .plain s ≠ ['/'])
    (h : ¬['/', '/'] <:+: '/' :: s) :
    ∃ segment ∈ (rootedPath .plain s).splitOn '/', segment ≠ [] := by
  have hwritten : ∀ x ∈ (s.splitOn '/').dropLast, x ≠ [] := by
    rintro x hx rfl
    have hdouble := infix_of_nil_mem_dropLast hx
    rw [List.intercalate_splitOn '/'] at hdouble
    exact h hdouble
  have hlater : ∀ x ∈ (resolve [] ((s.splitOn '/').map (encode pathSet))).dropLast, x ≠ [] := by
    refine ne_nil_of_mem_dropLast_resolve (by simp) ?_
    rw [← List.map_dropLast, List.forall_mem_map]
    exact fun x hx => encode_ne_nil (hwritten x hx)
  have hslash : ∀ x ∈ resolve [] ((s.splitOn '/').map (encode pathSet)), '/' ∉ x := fun x hx =>
    (isPathSegment_of_mem_resolve hx).slash
  have hne : resolve [] ((s.splitOn '/').map (encode pathSet)) ≠ [] := resolve_ne_nil (by simp)
  rw [rootedPath_plain] at hroot ⊢
  generalize resolve [] ((s.splitOn '/').map (encode pathSet)) = segments at *
  have hsplit : ('/' :: ['/'].intercalate segments).splitOn '/' = [] :: segments := by
    have hcons := List.splitOn_append_cons_self_of_not_mem (List.not_mem_nil (a := '/'))
      (['/'].intercalate segments)
    rwa [List.splitOn_intercalate '/' hslash hne] at hcons
  rw [hsplit]
  match segments with
  | [] => exact absurd rfl hne
  | [last] =>
    refine ⟨last, by simp, ?_⟩
    rintro rfl
    exact hroot rfl
  | first :: second :: rest => exact ⟨first, by simp, hlater first (by simp)⟩

theorem pathBelow_plain_cases (s : List Char) :
    pathBelow .plain s = [] ∨ IsRooted (pathBelow .plain s) := by
  cases s with
  | nil => exact .inl rfl
  | cons c s => exact .inr (isRooted_rootedPath _)

end Url
end WorkloadIdentity
