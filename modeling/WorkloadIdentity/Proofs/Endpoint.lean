/-
# Endpoints in writing

The text of an endpoint that was read is read as that endpoint again
(`Endpoint.parse_text_of_parse`), whatever it was read from: a scheme in any
case, blanks around it, the short form or the long one, dot segments, escapes.

A text is put into normal form once. What an endpoint that was read holds is a
rooted path other than the root, a port of 16 bits, or an opaque name
(`Endpoint.isNormal_of_parse`), and an endpoint that holds this is read back
from its text, in which nothing is left to trim, to escape or to resolve
(`Endpoint.parse_text_of_isNormal`).

Key definitions: `Endpoint.IsNormal`.
Key theorems: `Endpoint.isNormal_of_parse`, `Endpoint.parse_text_of_isNormal`,
`Endpoint.parse_text_of_parse`.
-/
import WorkloadIdentity.Endpoint
import WorkloadIdentity.Proofs.Url.Reading

namespace WorkloadIdentity
namespace Endpoint

open Percent Url

/-- What the endpoint holds is in the form that reading gives it. -/
def IsNormal : Endpoint → Prop
  | unix path => IsRooted path.toList ∧ path.toList ≠ ['/']
  | tcp _ port => port ≤ 65535
  | namedPipe name => IsOpaque name.toList ∧ name.toList ≠ []

/-! ### What is read is in normal form -/

theorem ofUrl_eq_ok {u : Url} {e : Endpoint} (h : ofUrl u = .ok e) :
    u.query = none ∧ u.fragment = none ∧
      ((u.scheme = "unix".toList ∧ ofUnix u = .ok e) ∨
        (u.scheme = "tcp".toList ∧ ofTcp u = .ok e) ∨
        (u.scheme = "npipe".toList ∧ ofNamedPipe u = .ok e)) := by
  unfold ofUrl at h
  split at h
  · cases h
  split at h
  · cases h
  · next hquery =>
    split at h
    · cases h
    · next hfragment =>
      refine ⟨by simpa using hquery, by simpa using hfragment, ?_⟩
      split at h
      · next hscheme => exact .inl ⟨hscheme, h⟩
      split at h
      · next hscheme => exact .inr (.inl ⟨hscheme, h⟩)
      split at h
      · next hscheme => exact .inr (.inr ⟨hscheme, h⟩)
      · cases h

theorem ofUnix_eq_ok {u : Url} {e : Endpoint} (h : ofUnix u = .ok e) :
    u.host = .absent ∧ u.path.head? = some '/' ∧ u.path ≠ ['/'] ∧
      e = unix (String.ofList u.path) := by
  unfold ofUnix at h
  split at h
  · cases h
  · next hhost =>
    split at h
    · cases h
    · next hpath =>
      rw [not_or, not_not] at hpath
      exact ⟨not_not.mp hhost, hpath.1, hpath.2, (Except.ok.inj h).symm⟩

theorem ofTcp_eq_ok {u : Url} {e : Endpoint} (h : ofTcp u = .ok e) :
    ∃ host port, u.port = some port ∧ e = tcp host port := by
  unfold ofTcp at h
  split at h
  · cases h
  · cases h
  · next host port _ hport =>
    split at h
    · exact ⟨host, port, hport, (Except.ok.inj h).symm⟩
    · cases h

theorem ofNamedPipe_eq_ok {u : Url} {e : Endpoint} (h : ofNamedPipe u = .ok e) :
    u.authority = none ∧ u.path.head? ≠ some '/' ∧ u.path ≠ [] ∧
      e = namedPipe (String.ofList u.path) := by
  unfold ofNamedPipe at h
  split at h
  · cases h
  · next hbase =>
    split at h
    · cases h
    · next hpath =>
      simp only [cannotBeABase, Bool.not_eq_true', Bool.not_eq_false, Bool.and_eq_true,
        Option.isNone_iff_eq_none, bne_iff_ne] at hbase
      exact ⟨hbase.1, hbase.2, by simpa using hpath, (Except.ok.inj h).symm⟩

/-- An endpoint is read off the URL that the long form of the text gives. -/
theorem exists_url_of_parse {s : String} {e : Endpoint} (h : parse s = .ok e) :
    ∃ u, Url.parse (String.ofList (lengthen s.toList)) = .ok u ∧ ofUrl u = .ok e := by
  unfold parse at h
  split at h
  · cases h
  · next u hu => exact ⟨u, hu, h⟩

/-- **An endpoint that is read holds what is in normal form.** -/
theorem isNormal_of_parse {s : String} {e : Endpoint} (h : parse s = .ok e) : e.IsNormal := by
  obtain ⟨u, hu, hof⟩ := exists_url_of_parse h
  obtain ⟨hquery, hfragment, hof⟩ := ofUrl_eq_ok hof
  have hkind : SchemeKind.of u.scheme = .plain := by
    rcases hof with ⟨hscheme, -⟩ | ⟨hscheme, -⟩ | ⟨hscheme, -⟩ <;> rw [hscheme] <;> decide
  rcases hof with ⟨-, hof⟩ | ⟨-, hof⟩ | ⟨-, hof⟩
  · obtain ⟨-, hhead, hroot, rfl⟩ := ofUnix_eq_ok hof
    have hpath := isRooted_of_parse hu hkind hquery hfragment hhead
    simpa [IsNormal] using ⟨hpath, hroot⟩
  · obtain ⟨host, port, hport, rfl⟩ := ofTcp_eq_ok hof
    exact port_le_of_parse hu hkind hquery hfragment hport
  · obtain ⟨hauthority, hhead, hne, rfl⟩ := ofNamedPipe_eq_ok hof
    have hpath := isOpaque_of_parse hu hkind hquery hfragment hauthority hhead
    simpa [IsNormal] using ⟨hpath, hne⟩

/-! ### What is in normal form is read back -/

theorem text_unix (path : String) : (unix path).text = "unix://" ++ path := rfl

theorem text_v4 (x : Ipv4) (port : Nat) : (tcp (.v4 x) port).text =
    String.ofList ("tcp://".toList ++ x.text ++ ':' :: decimal port) := rfl

theorem text_v6 (x : Ipv6) (port : Nat) : (tcp (.v6 x) port).text =
    String.ofList ("tcp://[".toList ++ x.text ++ ']' :: ':' :: decimal port) := rfl

theorem text_namedPipe (name : String) : (namedPipe name).text = "npipe:" ++ name := rfl

/-- A text in the long form is read as it is. -/
theorem parse_ofList {s : List Char} {u : Url} (h : Url.parse (String.ofList s) = .ok u)
    (hlong : lengthen s = s) : parse (String.ofList s) = ofUrl u := by
  unfold parse
  rw [String.toList_ofList, hlong, h]

/-- A path is read behind the slashes of an authority, if it gives no root. -/
theorem parse_unix_of_path {path : String} (hmain : IsMain ('/' :: '/' :: path.toList))
    (hprinted : ∀ c ∈ path.toList, 0x20 ≤ c.toNat) (hhead : path.toList.head? = some '/')
    (hroot : pathBelow .plain path.toList ≠ ['/']) :
    parse ("unix://" ++ path) = .ok (unix (String.ofList (pathBelow .plain path.toList))) := by
  have htext : "unix://" ++ path =
      String.ofList ("unix".toList ++ ':' :: '/' :: '/' :: path.toList) := by
    rw [← String.toList_inj, String.toList_append]
    exact String.toList_ofList.symm
  have hslash : 0x20 ≤ '/'.toNat := by decide
  have hrest : ∀ c ∈ '/' :: '/' :: path.toList, 0x20 ≤ c.toNat :=
    List.forall_mem_cons.mpr ⟨hslash, List.forall_mem_cons.mpr ⟨hslash, hprinted⟩⟩
  have hurl : Url.parse (String.ofList ("unix".toList ++ ':' :: '/' :: '/' :: path.toList)) =
      .ok ⟨"unix".toList, some ⟨[], none, .absent, none⟩, pathBelow .plain path.toList, none,
        none⟩ :=
    parse_of_parseHierarchy ⟨by decide, by decide +kernel⟩ hmain hrest
      (parseHierarchy_of_path (by decide) hhead)
  have hbelow : (pathBelow .plain path.toList).head? = some '/' := by
    obtain ⟨rest, hpath⟩ := List.head?_eq_some_iff.mp hhead
    rw [hpath]
    rfl
  rw [htext, parse_ofList hurl rfl]
  simp [ofUrl, ofUnix, Url.user, Url.password, Url.host, hbelow, hroot]

theorem parse_text_unix {path : String} (hpath : IsRooted path.toList)
    (hroot : path.toList ≠ ['/']) : parse (unix path).text = .ok (unix path) := by
  have hmain : IsMain ('/' :: '/' :: path.toList) :=
    isMain_of_isEscaped (isEscaped_slash_cons (isEscaped_slash_cons hpath.isEscaped))
  have hprinted : ∀ c ∈ path.toList, 0x20 ≤ c.toNat := fun c hc =>
    le_of_not_control (of_pathSet (hpath.isEscaped c hc)).1
  have hhead : path.toList.head? = some '/' := by
    obtain ⟨rest, hslashed⟩ := hpath.exists_cons
    rw [hslashed, List.head?_cons]
  have hbelow : pathBelow .plain path.toList = path.toList := (pathBelow_of_isRooted (.inr hpath)).2
  rw [text_unix, parse_unix_of_path hmain hprinted hhead (by rwa [hbelow]), hbelow,
    String.ofList_toList]

theorem parse_text_namedPipe {name : String} (hname : IsOpaque name.toList)
    (hne : name.toList ≠ []) : parse (namedPipe name).text = .ok (namedPipe name) := by
  have htext : (namedPipe name).text = String.ofList ("npipe".toList ++ ':' :: name.toList) := by
    rw [← String.toList_inj, text_namedPipe, String.toList_append]
    exact String.toList_ofList.symm
  have hurl : Url.parse (String.ofList ("npipe".toList ++ ':' :: name.toList)) =
      .ok ⟨"npipe".toList, none, name.toList, none, none⟩ :=
    parse_of_parseHierarchy ⟨by decide, by decide +kernel⟩ hname.isMain
      (le_of_isEscaped hname.isEscaped) (parseHierarchy_of_isOpaque (by decide) hname)
  rw [htext, parse_ofList hurl rfl]
  simp [ofUrl, ofNamedPipe, cannotBeABase, Url.user, Url.password, hname.head, hne]

/-- A host that is an address and a port are read. -/
theorem parse_of_port {text : List Char} {read : Url.Host} {host : IpAddress} {port : Nat}
    (htext : ∀ c ∈ text, c ∈ '[' :: ']' :: Ipv6.alphabet)
    (hsplit : ∀ rest, splitHost false (text ++ ':' :: rest) = (text, ':' :: rest))
    (hread : Url.Host.parsePlain text = .ok read) (haddress : address? read = some host)
    (hport : port ≤ 65535) :
    parse (String.ofList ("tcp".toList ++ ':' :: '/' :: '/' :: (text ++ ':' :: decimal port))) =
      .ok (tcp host port) := by
  have hhosts : ∀ c ∈ '[' :: ']' :: Ipv6.alphabet, (c ≠ '/' ∧ c ≠ '@') ∧
      c.toNat < 0x80 ∧ pathSet c = false := forall_mem_of_all (by decide +kernel)
  have hdigit : ∀ c ∈ Ipv4.alphabet, c.toNat < 0x80 ∧ pathSet c = false :=
    forall_mem_of_all (by decide +kernel)
  have hcolon : ':'.toNat < 0x80 ∧ pathSet ':' = false := by decide +kernel
  have hrest : IsEscaped pathSet ('/' :: '/' :: (text ++ ':' :: decimal port)) := by
    refine isEscaped_slash_cons (isEscaped_slash_cons ?_)
    refine List.forall_mem_append.mpr ⟨fun c hc => (hhosts c (htext c hc)).2, ?_⟩
    exact List.forall_mem_cons.mpr
      ⟨hcolon, fun c hc => hdigit c (Ipv4.mem_alphabet_of_mem_decimal hc)⟩
  have habsent : read ≠ .absent := by
    rintro rfl
    cases haddress
  have hurl : Url.parse (String.ofList
      ("tcp".toList ++ ':' :: '/' :: '/' :: (text ++ ':' :: decimal port))) =
      .ok ⟨"tcp".toList, some ⟨[], none, read, some port⟩, [], none, none⟩ :=
    parse_of_isEscaped ⟨by decide, by decide +kernel⟩ hrest (parseHierarchy_of_port (by decide)
      (by decide) (fun c hc => (hhosts c (htext c hc)).1) hsplit hread habsent hport)
  rw [parse_ofList hurl rfl]
  simp [ofUrl, ofTcp, Url.user, Url.password, Url.host, Url.port, haddress]

theorem parse_text_tcp (host : IpAddress) {port : Nat} (hport : port ≤ 65535) :
    parse (tcp host port).text = .ok (tcp host port) := by
  cases host with
  | v4 x =>
    have hplain : ∀ c ∈ Ipv4.alphabet, c ∈ '[' :: ']' :: Ipv6.alphabet ∧ c ≠ ':' ∧ c ≠ '[' :=
      forall_mem_of_all (by decide +kernel)
    have hx : ∀ c ∈ x.text, c ∈ '[' :: ']' :: Ipv6.alphabet ∧ c ≠ ':' ∧ c ≠ '[' := fun c hc =>
      hplain c (Ipv4.mem_alphabet_of_mem_text hc)
    have haddress : address? (.domain x.text) = some (.v4 x) := by
      show (Ipv4.parse x.text).map IpAddress.v4 = some (.v4 x)
      rw [Ipv4.parse_text, Option.map_some]
    have htext : "tcp://".toList ++ x.text ++ ':' :: decimal port =
        "tcp".toList ++ ':' :: '/' :: '/' :: (x.text ++ ':' :: decimal port) := by
      simp
    rw [text_v4, htext]
    have hsplit (rest : List Char) :
        splitHost false (x.text ++ ':' :: rest) = (x.text, ':' :: rest) :=
      splitHost_of_no_mark (fun c hc => (hx c hc).2) (':' :: rest) (by simp)
    exact parse_of_port (fun c hc => (hx c hc).1) hsplit (parsePlain_v4 x) haddress hport
  | v6 x =>
    have hbracket : ']' ∉ x.text := fun hc =>
      absurd (Ipv6.mem_alphabet_of_mem_text hc) (by decide)
    have hx : ∀ c ∈ '[' :: (x.text ++ [']']), c ∈ '[' :: ']' :: Ipv6.alphabet := by
      intro c hc
      simp only [List.mem_cons, List.mem_append, List.not_mem_nil, or_false] at hc ⊢
      rcases hc with hc | hc | hc
      · exact .inl hc
      · exact .inr (.inr (Ipv6.mem_alphabet_of_mem_text hc))
      · exact .inr (.inl hc)
    have hsplit (rest : List Char) : splitHost false ('[' :: (x.text ++ [']']) ++ ':' :: rest) =
        ('[' :: (x.text ++ [']']), ':' :: rest) := by
      simpa using splitHost_of_brackets hbracket rest
    have htext : "tcp://[".toList ++ x.text ++ ']' :: ':' :: decimal port = "tcp".toList ++
        ':' :: '/' :: '/' :: ('[' :: (x.text ++ [']']) ++ ':' :: decimal port) := by
      simp
    rw [text_v6, htext]
    exact parse_of_port hx hsplit (parsePlain_v6 x) rfl hport

/-- **An endpoint in normal form is read back from its text.** -/
theorem parse_text_of_isNormal {e : Endpoint} (h : e.IsNormal) : parse e.text = .ok e := by
  cases e with
  | unix path => exact parse_text_unix h.1 h.2
  | tcp host port => exact parse_text_tcp host h
  | namedPipe name => exact parse_text_namedPipe h.1 h.2

/-- **The text of an endpoint that was read is read as that endpoint.** -/
theorem parse_text_of_parse {s : String} {e : Endpoint} (h : parse s = .ok e) :
    parse e.text = .ok e := by
  have hnormal : e.IsNormal := isNormal_of_parse h
  exact parse_text_of_isNormal hnormal

/-- The version 6 address of `::ffff:1.2.3.4`. -/
def mappedAddress : Ipv6 := ⟨[0, 0, 0, 0, 0, 0xffff, 0x102, 0x304], rfl⟩

/-- A socket file with blanks around it, a scheme in upper case, dot segments in
two spellings and a blank in its name; an address in the short form with another
one at its end; a pipe with a control in its name. -/
theorem parse_text_of_parse_spellings :
    (parse " UNIX:/run/%2E%2e/./a gent\n" = .ok (unix "/a%20gent") ∧
      parse (unix "/a%20gent").text = .ok (unix "/a%20gent")) ∧
    (parse "tcp:[::FFFF:1.2.3.4]:0080/" = .ok (tcp (.v6 mappedAddress) 80) ∧
      parse (tcp (.v6 mappedAddress) 80).text = .ok (tcp (.v6 mappedAddress) 80)) ∧
    (parse "NPipe:a \x01b/../c\t" = .ok (namedPipe "a %01b/../c") ∧
      parse (namedPipe "a %01b/../c").text = .ok (namedPipe "a %01b/../c")) := by
  have hunix : parse " UNIX:/run/%2E%2e/./a gent\n" = .ok (unix "/a%20gent") := by decide +kernel
  have htcp : parse "tcp:[::FFFF:1.2.3.4]:0080/" = .ok (tcp (.v6 mappedAddress) 80) := by
    decide +kernel
  have hpipe : parse "NPipe:a \x01b/../c\t" = .ok (namedPipe "a %01b/../c") := by decide +kernel
  exact ⟨⟨hunix, parse_text_of_parse hunix⟩, ⟨htcp, parse_text_of_parse htcp⟩,
    ⟨hpipe, parse_text_of_parse hpipe⟩⟩

end Endpoint
end WorkloadIdentity
