/-
# Trust domains in writing

A trust domain is written by its bare name, or by an identity in it, and one reader takes both. A
colon with a slash right behind it tells them apart: the scheme of an identity ends in one, and no
name has a colon. So a text has at most one of the two readings, and a name is never handed to the
reader of identities (`TrustDomain.parse_of_isName`, `TrustDomain.parse_of_parse`).

Agents send the names of bundles in both writings. That they come under one key is the other half:
a trust domain reads back from its name, from its own identity, and from every identity that is a
member of it (`TrustDomain.IsReached.parse_name`, `TrustDomain.IsReached.parse_idText`,
`SpiffeId.Reach.parse_text_domain`).

Key theorems: `TrustDomain.parse_of_isName`, `TrustDomain.parse_of_parse`,
`TrustDomain.name_or_identity`.
-/
import WorkloadIdentity.Proofs.Id.Membership

namespace WorkloadIdentity

/-- The name of a spelling is a name of the grammar. -/
theorem Spelling.isName_domain (x : Spelling) : IsName x.domain.name.toList := by
  simpa [Spelling.domain] using x.isName

/-- The trust domain of a spelling in writing is the spelling without segments. -/
theorem Spelling.text_replace_nil (x : Spelling) :
    (x.replace [] (by simp)).text = x.domain.idText := by
  simp [Spelling.text, Spelling.replace, Spelling.domain, TrustDomain.idText, spiffePrefix]

namespace TrustDomain

/-! ### Two readings -/

/-- A name is read as it stands, without a look at what identities are. -/
theorem parse_of_isName {s : String} (h : IsName s.toList) :
    looksLikeId s.toList = false ∧ parse s = .ok ⟨s⟩ :=
  ⟨looksLikeId_of_isName h, parse_eq_ok_iff.mpr (.inl ⟨h, rfl⟩)⟩

/-- An identity is read as its trust domain, and is no name. -/
theorem parse_of_parse {s : String} {id : SpiffeId} (h : SpiffeId.parse s = .ok id) :
    looksLikeId s.toList = true ∧ parse s = .ok id.trustDomain ∧ ¬ IsName s.toList := by
  obtain ⟨x, rfl, rfl⟩ := (SpiffeId.parse_eq_ok_iff s id).mp h
  have hlooks : looksLikeId x.text.toList = true := x.looksLikeId_text
  refine ⟨hlooks, parse_eq_ok_iff.mpr (.inr ⟨x, rfl, x.trustDomain_id.symm⟩), fun hname => ?_⟩
  rw [looksLikeId_of_isName hname] at hlooks
  cases hlooks

/-! ### Reading back -/

theorem IsReached.parse_name {td : TrustDomain} (h : td.IsReached) : parse td.name = .ok td := by
  obtain ⟨x, rfl⟩ := h.spelled
  exact (parse_of_isName x.isName_domain).2

theorem IsReached.parse_idText {td : TrustDomain} (h : td.IsReached) :
    parse td.idText = .ok td := by
  obtain ⟨x, rfl⟩ := h.spelled
  exact parse_eq_ok_iff.mpr (.inr ⟨x.replace [] (by simp), x.text_replace_nil, rfl⟩)

end TrustDomain

/-- The text of an identity reads as the trust domain that it is a member of. -/
theorem SpiffeId.Reach.parse_text_domain {td td' : TrustDomain} {id : SpiffeId}
    (h : SpiffeId.Reach td' id) (hmember : id.isMemberOf td = true) :
    TrustDomain.parse id.text = .ok td := by
  obtain rfl : td = td' := (h.isMemberOf_iff_eq td).mp hmember
  obtain ⟨x, rfl, rfl⟩ := SpiffeId.reach_spelled h
  exact TrustDomain.parse_eq_ok_iff.mpr (.inr ⟨x, rfl, rfl⟩)

/-- **A trust domain is read from a name or from an identity, and no text is both.** What is read
is exactly the names of the grammar, each as itself, and the spelled identities, each as its trust
domain. A name never reaches the reader of identities, which would refuse it, and what that reader
takes is no name. Every trust domain that operations give reads back as itself from its name, from
its own identity in writing and from the text of every member, and its own identity is in it. -/
theorem TrustDomain.name_or_identity (s : String) (td : TrustDomain) :
    (TrustDomain.parse s = .ok td ↔
      (IsName s.toList ∧ td.name = s) ∨ ∃ x : Spelling, x.text = s ∧ x.domain = td) ∧
    (IsName s.toList →
      looksLikeId s.toList = false ∧ ∀ id, SpiffeId.parse s ≠ .ok id) ∧
    (∀ id, SpiffeId.parse s = .ok id →
      TrustDomain.parse s = .ok id.trustDomain ∧ ¬ IsName s.toList) ∧
    (td.IsReached →
      TrustDomain.parse td.name = .ok td ∧ TrustDomain.parse td.idText = .ok td ∧
      (∀ td' id, SpiffeId.Reach td' id → id.isMemberOf td = true →
        TrustDomain.parse id.text = .ok td) ∧
      td.id.trustDomain = td) := by
  refine ⟨parse_eq_ok_iff, fun hname => ?_, fun id hid => (parse_of_parse hid).2, fun htd => ?_⟩
  · exact ⟨looksLikeId_of_isName hname, fun id hid => (parse_of_parse hid).2.2 hname⟩
  · exact ⟨htd.parse_name, htd.parse_idText, fun td' id h hmember => h.parse_text_domain hmember,
      SpiffeId.trustDomain_join _ _⟩

/-- A name that begins as the scheme does is read as a name, and a trust domain that is taken out of
an identity reads back from all three writings. -/
theorem TrustDomain.name_or_identity_taken :
    (IsName "spiffe".toList ∧ looksLikeId "spiffe".toList = false) ∧
    SpiffeId.parse "spiffe://acme.io/ns" = .ok ⟨"spiffe://acme.io/ns", 16⟩ ∧
    TrustDomain.parse "spiffe://acme.io/ns" = .ok ⟨"acme.io"⟩ ∧
    TrustDomain.IsReached ⟨"acme.io"⟩ ∧ TrustDomain.parse "acme.io" = .ok ⟨"acme.io"⟩ ∧
    TrustDomain.parse "spiffe://acme.io" = .ok ⟨"acme.io"⟩ ∧
    SpiffeId.isMemberOf ⟨"spiffe://acme.io/ns", 16⟩ ⟨"acme.io"⟩ = true := by
  have hname : IsName "spiffe".toList := (checkName_eq_ok_iff _).mp (by decide +kernel)
  have hread : SpiffeId.parse "spiffe://acme.io/ns" = .ok ⟨"spiffe://acme.io/ns", 16⟩ := by
    decide +kernel
  have hdomain : (SpiffeId.mk "spiffe://acme.io/ns" 16).trustDomain = ⟨"acme.io"⟩ := by
    decide +kernel
  have hmember : SpiffeId.isMemberOf ⟨"spiffe://acme.io/ns", 16⟩ ⟨"acme.io"⟩ = true := by
    decide +kernel
  have htd : TrustDomain.IsReached ⟨"acme.io"⟩ := by
    rw [← hdomain]
    exact .taken SpiffeId.reach_ns
  obtain ⟨-, hnames, -, -⟩ := TrustDomain.name_or_identity "spiffe" ⟨"acme.io"⟩
  obtain ⟨-, -, -, hback⟩ := TrustDomain.name_or_identity "spiffe://acme.io/ns" ⟨"acme.io"⟩
  obtain ⟨hown, hid, hmembers, -⟩ := hback htd
  have hidText : TrustDomain.idText ⟨"acme.io"⟩ = "spiffe://acme.io" := by decide +kernel
  rw [hidText] at hid
  exact ⟨⟨hname, (hnames hname).1⟩, hread, hmembers _ _ SpiffeId.reach_ns hmember, htd, hown, hid,
    hmember⟩

end WorkloadIdentity
