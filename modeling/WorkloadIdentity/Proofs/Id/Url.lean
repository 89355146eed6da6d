/-
# Identities as URLs

An identity that comes as a URL is read from the URL in writing. That is the same as reading the
text that the URL was read from, if this text names an identity. The grammar of identities leaves a
URL nothing to do: the scheme is in lower case and plain, so the name is a host that is neither
looked up nor lowered, and no character of a name or a segment is escaped; and no segment spells a
dot or two, so nothing is resolved. Such a text is read as the URL of its parts (`Spelling.url`,
`Spelling.parse_text_url`), which is written as it was (`Spelling.text_url`).

A text that reads as a URL may be of another spelling than the URL in writing, and the identity is
that of the URL: an upper case scheme, dot segments and blanks around it are gone.

Key definitions: `Spelling.url`.
Key theorems: `isRooted_pathOf`, `Spelling.parse_text_url`, `SpiffeId.url_agrees_with_text`.
-/
import WorkloadIdentity.Proofs.Id.Reach
import WorkloadIdentity.Proofs.Url.Reading

namespace WorkloadIdentity

open Url Percent

/-! ### The URL of a spelling -/

/-- The name for a host, and the segments for a path. -/
def Spelling.url (x : Spelling) : Url :=
  ⟨"spiffe".toList, some ⟨[], none, .domain x.name, none⟩, pathOf x.segments, none, none⟩

@[simp] theorem Spelling.text_url (x : Spelling) : String.ofList x.url.text = x.text := by
  rw [← String.toList_inj, x.toList_text, String.toList_ofList]
  simp [Spelling.url, Url.text, Authority.text, Host.text, spiffePrefix]

theorem Spelling.ofUrl_url (x : Spelling) :
    SpiffeId.ofUrl x.url = .ok x.id ∧ TrustDomain.ofUrl x.url = .ok x.domain := by
  have hread : SpiffeId.ofUrl x.url = .ok x.id := by
    unfold SpiffeId.ofUrl
    rw [x.text_url, SpiffeId.parse_text]
  refine ⟨hread, ?_⟩
  unfold TrustDomain.ofUrl
  rw [hread]
  exact congrArg Except.ok x.trustDomain_id

/-! ### Nothing to normalize -/

/-- A segment of an identity is one that URLs leave as it is. -/
theorem IsSegment.isPathSegment {segment : List Char} (h : IsSegment segment) :
    IsPathSegment segment := by
  have hplain : ∀ c ∈ segmentAlphabet, (c.toNat < 0x80 ∧ pathSet c = false) ∧ c ≠ '%' :=
    forall_mem_of_all (by decide +kernel)
  have hescaped : IsEscaped pathSet segment := fun c hc => (hplain c (h.2.2.2 c hc)).1
  have hpercent : '%' ∉ segment := fun hc => (hplain '%' (h.2.2.2 '%' hc)).2 rfl
  have hsegment := isPathSegment_encode hpercent h.slash_not_mem h.2.1 h.2.2.1
  rwa [encode_of_isEscaped hescaped] at hsegment

theorem pathOf_cons_eq_intercalate (segment : List Char) : ∀ rest : List (List Char),
    pathOf (segment :: rest) = '/' :: ['/'].intercalate (segment :: rest)
  | [] => by simp
  | next :: rest => by
    rw [pathOf_cons, pathOf_cons_eq_intercalate next rest, List.intercalate_cons_cons]
    simp

theorem isRooted_pathOf {segments : List (List Char)}
    (h : ∀ segment ∈ segments, IsSegment segment) :
    pathOf segments = [] ∨ IsRooted (pathOf segments) := by
  cases segments with
  | nil => exact .inl rfl
  | cons segment rest =>
    refine .inr ⟨segment :: rest, List.cons_ne_nil segment rest, ?_,
      pathOf_cons_eq_intercalate segment rest⟩
    exact fun x hx => (h x hx).isPathSegment

/-- **A spelled identity is read as the URL of its parts.** -/
theorem Spelling.parse_text_url (x : Spelling) : Url.parse x.text = .ok x.url := by
  have hchars : ∀ c ∈ nameAlphabet, (c ≠ '/' ∧ c ≠ '@' ∧ c ≠ ':' ∧ c ≠ '[') ∧
      Host.isForbidden c = false ∧ controlSet c = false ∧ c.toNat < 0x80 ∧ pathSet c = false :=
    forall_mem_of_all (by decide +kernel)
  have hname : ∀ c ∈ x.name, _ := fun c hc => hchars c (x.isName.2 c hc)
  have hhost : Host.parsePlain x.name = .ok (.domain x.name) := by
    refine parsePlain_of_forall x.isName.1 fun c hc => ?_
    obtain ⟨hmarks, hforbidden, hcontrol, hascii, -⟩ := hname c hc
    exact ⟨hforbidden, hmarks.2.2.2, hascii, hcontrol⟩
  have hpath := isRooted_pathOf x.isSegment
  have hpathEscaped : IsEscaped pathSet (pathOf x.segments) := by
    rcases hpath with hnil | hrooted
    · rw [hnil]
      exact fun c hc => absurd hc List.not_mem_nil
    · exact hrooted.isEscaped
  have hescaped : IsEscaped pathSet ('/' :: '/' :: (x.name ++ pathOf x.segments)) := by
    refine isEscaped_slash_cons (isEscaped_slash_cons ?_)
    refine List.forall_mem_append.mpr ⟨?_, hpathEscaped⟩
    exact fun c hc => (hname c hc).2.2.2
  have htext : x.text =
      String.ofList ("spiffe".toList ++ ':' :: '/' :: '/' :: (x.name ++ pathOf x.segments)) := by
    rw [← String.toList_inj, x.toList_text, String.toList_ofList]
    rfl
  rw [htext]
  exact parse_of_isEscaped ⟨by decide, by decide +kernel⟩ hescaped
    (parseHierarchy_of_host (by decide) (fun c hc => (hname c hc).1) hhost hpath)

namespace SpiffeId

/-- **Reading through a URL agrees with reading the text.** A text that names an identity reads as a
URL, which is that text in writing, and so names the same identity and its trust domain. A URL that
any text reads as names an identity only if the URL in writing does: the identity has that text,
and reading the text, as an identity or as a URL, gives the identity again. -/
theorem url_agrees_with_text (s : String) :
    (∀ id, SpiffeId.parse s = .ok id → ∃ url, Url.parse s = .ok url ∧
      String.ofList url.text = s ∧ ofUrl url = .ok id ∧
      TrustDomain.ofUrl url = .ok id.trustDomain) ∧
    (∀ url id, Url.parse s = .ok url → ofUrl url = .ok id →
      id.text = String.ofList url.text ∧ SpiffeId.parse id.text = .ok id ∧
      ∃ url', Url.parse id.text = .ok url' ∧ ofUrl url' = .ok id) := by
  constructor
  · intro id h
    obtain ⟨x, rfl, rfl⟩ := (parse_eq_ok_iff s id).mp h
    obtain ⟨hid, hdomain⟩ := x.ofUrl_url
    rw [x.trustDomain_id]
    exact ⟨x.url, x.parse_text_url, x.text_url, hid, hdomain⟩
  · intro url id _ h
    obtain ⟨x, htext, rfl⟩ := (parse_eq_ok_iff _ id).mp h
    exact ⟨htext, parse_text x, x.url, x.parse_text_url, x.ofUrl_url.1⟩

/-- An identity that reads as the URL of its parts, and a text that is none but reads as a URL that
names it: an upper case scheme, a tab, a dot segment. -/
theorem url_agrees_with_text_spellings :
    SpiffeId.parse "spiffe://acme.io/web" = .ok ⟨"spiffe://acme.io/web", 16⟩ ∧
    (∃ url, Url.parse "spiffe://acme.io/web" = .ok url ∧
      String.ofList url.text = "spiffe://acme.io/web") ∧
    (∃ url, Url.parse " SPIFFE:\t//acme.io/ns/%2e./web\n" = .ok url ∧
      ofUrl url = .ok ⟨"spiffe://acme.io/web", 16⟩ ∧
      "spiffe://acme.io/web" = String.ofList url.text) := by
  have hread : SpiffeId.parse "spiffe://acme.io/web" = .ok ⟨"spiffe://acme.io/web", 16⟩ := by
    decide +kernel
  have hurl : Url.parse " SPIFFE:\t//acme.io/ns/%2e./web\n" = .ok ⟨"spiffe".toList,
      some ⟨[], none, .domain "acme.io".toList, none⟩, "/web".toList, none, none⟩ := by
    decide +kernel
  have hid : ofUrl ⟨"spiffe".toList, some ⟨[], none, .domain "acme.io".toList, none⟩,
      "/web".toList, none, none⟩ = .ok ⟨"spiffe://acme.io/web", 16⟩ := by decide +kernel
  obtain ⟨url, hplain, htext, -⟩ := (url_agrees_with_text "spiffe://acme.io/web").1 _ hread
  exact ⟨hread, ⟨url, hplain, htext⟩, _, hurl, hid,
    ((url_agrees_with_text " SPIFFE:\t//acme.io/ns/%2e./web\n").2 _ _ hurl hid).1⟩

end SpiffeId
end WorkloadIdentity
