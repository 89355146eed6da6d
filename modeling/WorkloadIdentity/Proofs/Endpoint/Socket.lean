/-
# Paths of sockets

A socket is dialed at the path that its endpoint holds, and this is the path of the URL, in which
blanks, other marks and all that is not ASCII stand as escapes. So the path of a file
(`Endpoint.IsSocketPath`) is read with these characters escaped, whichever form it is written in
(`Endpoint.parse_of_isSocketPath`): the octets of the escapes are those of the path, but the path
that is held is the one that was written only if nothing in it is escaped.

The root is no socket, and it is refused by its shortest spelling. Empty segments are kept, so two
slashes in a row in what is written can leave a path of slashes, which is the root all the same.
With no slash doubled behind the authority the path names something
(`Endpoint.namesFile_of_parse`).

Key definitions: `Endpoint.IsSocketPath`, `Endpoint.NamesFile`, `Endpoint.DoublesSlash`.
Key theorems: `Endpoint.parse_of_isSocketPath`, `Endpoint.namesFile_of_parse`,
`Endpoint.socket_path_escaped`.
-/
import WorkloadIdentity.Proofs.Endpoint.Short

namespace WorkloadIdentity
namespace Endpoint

open Percent Url

/-! ### Paths of files -/

/-- The name of a file or of a directory without controls and marks of a URL, and no dot
segment. -/
structure IsFileName (name : List Char) : Prop where
  ne_nil : name ≠ []
  slash : '/' ∉ name
  singleDot : name ≠ ['.']
  doubleDot : name ≠ ['.', '.']
  marks : ∀ c ∈ name, controlSet c = false ∧ c ≠ '?' ∧ c ≠ '#' ∧ c ≠ '%'

instance (name : List Char) : Decidable (IsFileName name) :=
  have : Decidable (∀ c ∈ name, controlSet c = false ∧ c ≠ '?' ∧ c ≠ '#' ∧ c ≠ '%') :=
    List.decidableBAll _ name
  decidable_of_iff (name ≠ [] ∧ '/' ∉ name ∧ name ≠ ['.'] ∧ name ≠ ['.', '.'] ∧
      ∀ c ∈ name, controlSet c = false ∧ c ≠ '?' ∧ c ≠ '#' ∧ c ≠ '%')
    ⟨fun ⟨hne, hslash, hdot, hdots, hmarks⟩ => ⟨hne, hslash, hdot, hdots, hmarks⟩,
      fun h => ⟨h.ne_nil, h.slash, h.singleDot, h.doubleDot, h.marks⟩⟩

/-- An absolute path of a file, with no blank at its end. -/
structure IsSocketPath (path : List Char) : Prop where
  names : ∃ names : List (List Char), names ≠ [] ∧ (∀ x ∈ names, IsFileName x) ∧
    path = '/' :: ['/'].intercalate names
  last : path.getLast? ≠ some ' '

namespace IsSocketPath

variable {path : List Char} (h : IsSocketPath path)
include h

/-- One slash stands in front, since no name is empty. -/
theorem exists_cons : ∃ c rest, path = '/' :: c :: rest ∧ c ≠ '/' := by
  obtain ⟨names, hne, hnames, rfl⟩ := h.names
  obtain ⟨name, names, rfl⟩ := List.exists_cons_of_ne_nil hne
  have hname : IsFileName name := hnames name List.mem_cons_self
  obtain ⟨c, name, rfl⟩ := List.exists_cons_of_ne_nil hname.ne_nil
  have hc : c ≠ '/' := by
    rintro rfl
    exact hname.slash List.mem_cons_self
  cases names with
  | nil => exact ⟨c, name, by simp, hc⟩
  | cons next names => exact ⟨c, _, by rw [List.intercalate_cons_cons]; rfl, hc⟩

theorem marks : ∀ c ∈ path, controlSet c = false ∧ c ≠ '?' ∧ c ≠ '#' ∧ c ≠ '%' := by
  obtain ⟨names, -, hnames, rfl⟩ := h.names
  have hslash : controlSet '/' = false ∧ '/' ≠ '?' ∧ '/' ≠ '#' ∧ '/' ≠ '%' := by decide +kernel
  intro c hc
  rcases List.mem_cons.mp hc with rfl | hc
  · exact hslash
  rcases eq_or_mem_of_mem_intercalate hc with rfl | ⟨name, hname, hc⟩
  · exact hslash
  · exact (hnames name hname).marks c hc

/-- No name spells a dot segment, so the path is only escaped. -/
theorem pathBelow : pathBelow .plain path = encode pathSet path := by
  obtain ⟨names, hne, hnames, rfl⟩ := h.names
  refine rootedPath_of_segments hne (fun x hx => (hnames x hx).slash) fun x hx => ?_
  have hname : IsFileName x := hnames x hx
  have hpercent : '%' ∉ x := fun hc => (hname.marks '%' hc).2.2.2 rfl
  exact isPathSegment_encode hpercent hname.slash hname.singleDot hname.doubleDot

theorem isMain : IsMain ('/' :: '/' :: path) := by
  refine ⟨fun c hc => ?_, fun c hc => ?_⟩
  · simp only [List.mem_cons] at hc
    rcases hc with rfl | rfl | hc
    · decide
    · decide
    · simp [(h.marks c hc).2.1, (h.marks c hc).2.2.1]
  · obtain ⟨d, rest, hpath, -⟩ := h.exists_cons
    have hc : path.getLast? = some c := by
      rw [hpath] at hc ⊢
      rwa [List.getLast?_cons_cons, List.getLast?_cons_cons] at hc
    have hblank : c ≠ ' ' := by
      rintro rfl
      exact h.last hc
    have hcontrol := le_of_not_control (h.marks c (List.mem_of_getLast? hc)).1
    have hne : c.toNat ≠ 0x20 := fun heq => hblank (Char.toNat_inj.mp heq)
    omega

end IsSocketPath

/-- **The path of a file is read with its characters escaped.** -/
theorem parse_of_isSocketPath {path : String} (h : IsSocketPath path.toList) :
    parse ("unix://" ++ path) = .ok (unix (String.ofList (encode pathSet path.toList))) := by
  obtain ⟨c, rest, hpath, -⟩ := h.exists_cons
  have hhead : path.toList.head? = some '/' := by rw [hpath, List.head?_cons]
  have hprinted : ∀ d ∈ path.toList, 0x20 ≤ d.toNat := fun d hd =>
    le_of_not_control (h.marks d hd).1
  have hroot : pathBelow .plain path.toList ≠ ['/'] := by
    have hslash : encodeChar pathSet '/' = ['/'] := by decide +kernel
    rw [h.pathBelow, hpath, encode_cons, hslash]
    exact fun heq => encode_ne_nil (List.cons_ne_nil c rest) (List.cons.inj heq).2
  rw [parse_unix_of_path h.isMain hprinted hhead hroot, h.pathBelow]

/-! ### Paths that name something -/

/-- Not all of the path is slashes. -/
def NamesFile (path : List Char) : Prop := ∃ segment ∈ path.splitOn '/', segment ≠ []

/-- Two slashes in a row, behind those that the authority starts with. -/
def DoublesSlash (s : String) : Prop :=
  ∃ parts ∈ splitScheme (significant (lengthen s.toList)), ['/', '/'] <:+: parts.2.drop 2

instance (path : List Char) : Decidable (NamesFile path) :=
  inferInstanceAs (Decidable (∃ segment ∈ path.splitOn '/', segment ≠ []))

instance (s : String) : Decidable (DoublesSlash s) :=
  inferInstanceAs (Decidable (∃ parts ∈ splitScheme (significant (lengthen s.toList)),
    ['/', '/'] <:+: parts.2.drop 2))

/-- If one slash stands in front, two in a row are behind the character after it. -/
theorem infix_drop_of_head? {more : List Char} (hfirst : more.head? ≠ some '/')
    (h : ['/', '/'] <:+: '/' :: more) : ['/', '/'] <:+: more.drop 1 := by
  rcases List.infix_cons_iff.mp h with ⟨others, hothers⟩ | h
  · obtain rfl : '/' :: others = more := (List.cons.inj hothers).2
    exact absurd rfl hfirst
  · cases more with
    | nil => exact absurd h (by decide)
    | cons c more =>
      rcases List.infix_cons_iff.mp h with ⟨others, hothers⟩ | h
      · obtain rfl : '/' = c := (List.cons.inj hothers).1
        exact absurd rfl hfirst
      · exact h

/-- A socket's path is that of a URL with no host. -/
theorem exists_url_of_parse_unix {s path : String} (h : parse s = .ok (unix path)) :
    ∃ u, Url.parse (String.ofList (lengthen s.toList)) = .ok u ∧ u.query = none ∧
      u.fragment = none ∧ u.scheme = "unix".toList ∧ u.host = .absent ∧
      u.path.head? = some '/' ∧ u.path ≠ ['/'] ∧ u.path = path.toList := by
  obtain ⟨u, hu, hof⟩ := exists_url_of_parse h
  obtain ⟨hquery, hfragment, ⟨hscheme, hof⟩ | ⟨-, hof⟩ | ⟨-, hof⟩⟩ := ofUrl_eq_ok hof
  · obtain ⟨hhost, hhead, hroot, heq⟩ := ofUnix_eq_ok hof
    obtain rfl := Endpoint.unix.inj heq
    exact ⟨u, hu, hquery, hfragment, hscheme, hhost, hhead, hroot, String.toList_ofList.symm⟩
  · obtain ⟨host, port, -, heq⟩ := ofTcp_eq_ok hof
    cases heq
  · obtain ⟨-, -, -, heq⟩ := ofNamedPipe_eq_ok hof
    cases heq

/-- **What is read names something, unless a slash is doubled.** -/
theorem namesFile_of_parse {s path : String} (h : parse s = .ok (unix path))
    (hdouble : ¬DoublesSlash s) : NamesFile path.toList := by
  obtain ⟨u, hu, hquery, hfragment, hscheme, hhost, hhead, hroot, hpath⟩ :=
    exists_url_of_parse_unix h
  obtain ⟨rest, hsplit, -, hread⟩ := parseHierarchy_of_parse hu hquery hfragment
  rw [String.toList_ofList] at hsplit
  have hkind : SchemeKind.of u.scheme = .plain := by
    rw [hscheme]
    decide
  have hsingle : ¬['/', '/'] <:+: rest.drop 2 := fun hslashes =>
    hdouble ⟨(u.scheme, rest), hsplit, hslashes⟩
  obtain ⟨more, hmore, hrest⟩ := exists_rootedPath_of_parseHierarchy hkind hread hhost hhead
  rw [hmore] at hroot
  rw [← hpath, NamesFile, hmore]
  refine exists_segment_of_rootedPath hroot fun hslashes => hsingle ?_
  rcases hrest with ⟨written, rfl⟩ | ⟨rfl, hfirst⟩
  · exact hslashes.trans (List.suffix_append written ('/' :: more)).isInfix
  · exact infix_drop_of_head? hfirst hslashes

/-! ### What is written and what is held -/

/-- **The path of a file is read in both forms, escaped, and is the one that was written only if
nothing is escaped; and every path that is read is absolute and no root, unless a slash is
doubled.** -/
theorem socket_path_escaped (s path : String) :
    (IsSocketPath path.toList →
      ∃ held : String, parse ("unix://" ++ path) = .ok (unix held) ∧
        parse ("unix:" ++ path) = .ok (unix held) ∧
        held.toList = encode pathSet path.toList ∧ decode held.toList = Utf8.encode path ∧
        (held = path ↔ IsEscaped pathSet path.toList)) ∧
    (parse s = .ok (unix path) →
      path.toList.head? = some '/' ∧ path ≠ "/" ∧ (¬DoublesSlash s → NamesFile path.toList)) := by
  refine ⟨fun hpath => ?_, fun h => ?_⟩
  · obtain ⟨c, rest, hcons, hc⟩ := hpath.exists_cons
    have hlong := parse_of_isSocketPath hpath
    have hshort : parse ("unix:" ++ path) = parse ("unix://" ++ path) :=
      parse_short_unix hcons (by simpa using hc)
    have hpercent : '%' ∉ path.toList := fun hmem => (hpath.marks '%' hmem).2.2.2 rfl
    refine ⟨_, hlong, hshort.trans hlong, String.toList_ofList, ?_, ?_⟩
    · rw [String.toList_ofList, decode_encode pathSet hpercent, String.ofList_toList]
    · rw [← String.toList_inj, String.toList_ofList]
      exact encode_eq_self_iff (by decide +kernel)
  · obtain ⟨u, -, -, -, -, -, hhead, hroot, hpath⟩ := exists_url_of_parse_unix h
    rw [hpath] at hhead hroot
    refine ⟨hhead, ?_, namesFile_of_parse h⟩
    rintro rfl
    exact hroot rfl

/-- A path with nothing to escape, which is read from another spelling too, and one with a
blank. -/
theorem socket_path_escaped_forms :
    (parse "unix:///run/agent.sock" = .ok (unix "/run/agent.sock") ∧
      parse "unix:/run/agent.sock" = .ok (unix "/run/agent.sock")) ∧
    (parse " UNIX:/tmp/../run/%2E/agent.sock" = .ok (unix "/run/agent.sock") ∧
      NamesFile "/run/agent.sock".toList) ∧
    ∃ held, parse "unix:/my agent.sock" = .ok (unix held) ∧ held ≠ "/my agent.sock" ∧
      decode held.toList = Utf8.encode "/my agent.sock" := by
  have hplain : IsSocketPath "/run/agent.sock".toList :=
    ⟨⟨["run".toList, "agent.sock".toList], by decide, by decide +kernel, rfl⟩, by decide +kernel⟩
  have hblank : IsSocketPath "/my agent.sock".toList :=
    ⟨⟨["my agent.sock".toList], by decide, by decide +kernel, rfl⟩, by decide +kernel⟩
  have hread : parse " UNIX:/tmp/../run/%2E/agent.sock" = .ok (unix "/run/agent.sock") := by
    decide +kernel
  have hsingle : ¬DoublesSlash " UNIX:/tmp/../run/%2E/agent.sock" := by decide +kernel
  obtain ⟨hwritten, haccepted⟩ :=
    socket_path_escaped " UNIX:/tmp/../run/%2E/agent.sock" "/run/agent.sock"
  obtain ⟨held, hlong, hshort, -, -, hsame⟩ := hwritten hplain
  obtain rfl : held = "/run/agent.sock" := hsame.mpr (by decide +kernel)
  obtain ⟨held, -, hescaped, -, hoctets, hother⟩ :=
    (socket_path_escaped "" "/my agent.sock").1 hblank
  refine ⟨⟨hlong, hshort⟩, ⟨hread, (haccepted hread).2.2 hsingle⟩, held, hescaped, ?_, hoctets⟩
  exact fun heq => absurd (hother.mp heq) (by decide +kernel)

/-- A path with a blank is held with its escape, and the root is held in a spelling of three
slashes. -/
theorem socket_path_altered :
    (IsSocketPath "/a b".toList ∧ parse "unix:///a b" = .ok (unix "/a%20b") ∧
      parse "unix:///a b" ≠ .ok (unix "/a b")) ∧
    parse "unix://///" = .ok (unix "///") ∧ ¬NamesFile "///".toList := by
  have hpath : IsSocketPath "/a b".toList :=
    ⟨⟨["a b".toList], by decide, by decide +kernel, rfl⟩, by decide +kernel⟩
  have hread : parse "unix:///a b" = .ok (unix "/a%20b") := by decide +kernel
  refine ⟨⟨hpath, hread, ?_⟩, by decide +kernel, by decide +kernel⟩
  rw [hread]
  decide

end Endpoint
end WorkloadIdentity
