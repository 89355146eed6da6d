/-
# Identities by operations

An identity may be read, made below a trust domain, or made from another one
by moving below its path or replacing it. Only what is read or added is
checked; the result as a whole is not read again, and the offset of its path is
carried along. `Reach` are the identities that come about so, each with the
trust domain that its sequence of operations started in.

What every operation keeps is that the identity is the one of a spelling
(`Spelling.id`), its offset included, with the name of that trust domain
(`reach_spelled`). So it reads back as itself, and equality and order of such
identities are those of their texts (`reach_faithful`).

Key definitions: `TrustDomain.IsRead`, `SpiffeId.Reach`, `Spelling.append`,
`Spelling.replace`.
Key theorems: `TrustDomain.parse_eq_ok_iff`, `SpiffeId.reach_spelled`,
`SpiffeId.reach_faithful`.
-/
import WorkloadIdentity.Id.Url
import WorkloadIdentity.Proofs.Id.Grammar
import WorkloadIdentity.Proofs.Text.Utf8

namespace WorkloadIdentity

/-- The trust domain is read from a text or taken from a URL. -/
def TrustDomain.IsRead (td : TrustDomain) : Prop :=
  (∃ s, TrustDomain.parse s = .ok td) ∨ ∃ url, TrustDomain.ofUrl url = .ok td

namespace SpiffeId

/-- The identities that operations make, with the trust domain that the
operations started in. -/
inductive Reach : TrustDomain → SpiffeId → Prop where
  | parse {s : String} {id : SpiffeId} : SpiffeId.parse s = .ok id → Reach id.trustDomain id
  | ofUrl {url : Url} {id : SpiffeId} : SpiffeId.ofUrl url = .ok id → Reach id.trustDomain id
  | ofPath {td : TrustDomain} {path : String} {id : SpiffeId} :
      td.IsRead → SpiffeId.ofPath td path = .ok id → Reach td id
  | ofSegments {td : TrustDomain} {segments : List String} {id : SpiffeId} :
      td.IsRead → SpiffeId.ofSegments td segments = .ok id → Reach td id
  | ofDomain {td : TrustDomain} : td.IsRead → Reach td td.id
  | appendPath {td : TrustDomain} {id id' : SpiffeId} {path : String} :
      Reach td id → id.appendPath path = .ok id' → Reach td id'
  | appendSegments {td : TrustDomain} {id id' : SpiffeId} {segments : List String} :
      Reach td id → id.appendSegments segments = .ok id' → Reach td id'
  | replacePath {td : TrustDomain} {id id' : SpiffeId} {path : String} :
      Reach td id → id.replacePath path = .ok id' → Reach td id'
  | replaceSegments {td : TrustDomain} {id id' : SpiffeId} {segments : List String} :
      Reach td id → id.replaceSegments segments = .ok id' → Reach td id'
  /-- The trust domain is taken out, and a path made below it. -/
  | belowPath {td : TrustDomain} {id id' : SpiffeId} {path : String} :
      Reach td id → SpiffeId.ofPath id.trustDomain path = .ok id' → Reach td id'
  | belowSegments {td : TrustDomain} {id id' : SpiffeId} {segments : List String} :
      Reach td id → SpiffeId.ofSegments id.trustDomain segments = .ok id' → Reach td id'
  /-- The trust domain is taken out, and its own identity made. -/
  | domainId {td : TrustDomain} {id : SpiffeId} : Reach td id → Reach td id.trustDomain.id

end SpiffeId

/-! ### What an operation does to a spelling -/

namespace Spelling

/-- The trust domain of the name that is spelled. -/
def domain (x : Spelling) : TrustDomain := ⟨String.ofList x.name⟩

/-- The spelling with more segments. -/
def append (x : Spelling) (more : List (List Char)) (h : ∀ segment ∈ more, IsSegment segment) :
    Spelling :=
  ⟨x.name, x.segments ++ more, x.isName, by
    intro segment hs
    rcases List.mem_append.mp hs with hs | hs
    · exact x.isSegment segment hs
    · exact h segment hs⟩

/-- The spelling with other segments. -/
def replace (x : Spelling) (segments : List (List Char))
    (h : ∀ segment ∈ segments, IsSegment segment) : Spelling :=
  ⟨x.name, segments, x.isName, h⟩

@[simp] theorem trustDomain_id (x : Spelling) : x.id.trustDomain = x.domain := by
  simp [Spelling.id, domain]

/-- A path below the trust domain of a spelling is spelled by its segments. -/
theorem join_domain (x : Spelling) {segments : List (List Char)}
    (h : ∀ segment ∈ segments, IsSegment segment) :
    SpiffeId.join x.domain.name (String.ofList (pathOf segments)) = (x.replace segments h).id := rfl

/-- More path after a spelled identity is spelled by more segments. -/
theorem extend_id (x : Spelling) {more : List (List Char)}
    (h : ∀ segment ∈ more, IsSegment segment) :
    x.id.extend (String.ofList (pathOf more)) = (x.append more h).id := by
  unfold Spelling.id
  rw [SpiffeId.extend_join]
  simp [append, pathOf_append]

end Spelling

/-! ### Trust domains in writing -/

theorem looksLikeId_of_isName {name : List Char} (h : IsName name) :
    TrustDomain.looksLikeId name = false := by
  have hcolon : ∀ s : List Char, (∀ c ∈ s, c ∈ nameAlphabet) →
      TrustDomain.looksLikeId s = false := by
    intro s hs
    induction s with
    | nil => rfl
    | cons c s ih =>
      rw [List.forall_mem_cons] at hs
      have hc : c ≠ ':' := by
        rintro rfl
        exact absurd hs.1 (by decide +kernel)
      simp [TrustDomain.looksLikeId, hc, ih hs.2]
  exact hcolon name h.2

theorem Spelling.looksLikeId_text (x : Spelling) :
    TrustDomain.looksLikeId x.text.toList = true := by
  rw [x.toList_text]
  simp [spiffePrefix, TrustDomain.looksLikeId]

/-- A trust domain is written as its bare name or as an identity in it. -/
theorem TrustDomain.parse_eq_ok_iff {s : String} {td : TrustDomain} :
    TrustDomain.parse s = .ok td ↔
      (IsName s.toList ∧ td.name = s) ∨ ∃ x : Spelling, x.text = s ∧ x.domain = td := by
  unfold TrustDomain.parse
  constructor
  · intro h
    split at h
    · cases hid : SpiffeId.parse s with
      | error e => rw [hid] at h; cases h
      | ok id =>
        obtain ⟨x, rfl, rfl⟩ := (SpiffeId.parse_eq_ok_iff s id).mp hid
        rw [hid] at h
        exact .inr ⟨x, rfl, x.trustDomain_id.symm.trans (Except.ok.inj h)⟩
    · obtain ⟨hname, h⟩ := ok_of_check.mp h
      obtain rfl := ok_of_pure.mp h
      exact .inl ⟨(checkName_eq_ok_iff _).mp hname, rfl⟩
  · rintro (⟨hname, rfl⟩ | ⟨x, rfl, rfl⟩)
    · rw [looksLikeId_of_isName hname, (checkName_eq_ok_iff _).mpr hname]
      rfl
    · rw [x.looksLikeId_text, SpiffeId.parse_text]
      exact congrArg Except.ok x.trustDomain_id

/-- A trust domain that is read is the one of a spelling. -/
theorem TrustDomain.IsRead.spelled {td : TrustDomain} (h : td.IsRead) :
    ∃ x : Spelling, x.domain = td := by
  rcases h with ⟨s, hs⟩ | ⟨url, hu⟩
  · rcases TrustDomain.parse_eq_ok_iff.mp hs with ⟨hname, rfl⟩ | ⟨x, -, hx⟩
    · exact ⟨⟨td.name.toList, [], hname, by simp⟩, by simp [Spelling.domain]⟩
    · exact ⟨x, hx⟩
  · unfold TrustDomain.ofUrl at hu
    cases hid : SpiffeId.ofUrl url with
    | error e => rw [hid] at hu; cases hu
    | ok id =>
      obtain ⟨x, -, rfl⟩ := (SpiffeId.parse_eq_ok_iff _ id).mp hid
      rw [hid] at hu
      exact ⟨x, x.trustDomain_id.symm.trans (Except.ok.inj hu)⟩

namespace SpiffeId

/-! ### What an operation does to an identity

A path is checked before it is joined to a name or put after another path, so
the result is spelled by the segments of the path. -/

theorem ofPath_spelled {x : Spelling} {path : String} {id : SpiffeId}
    (h : ofPath x.domain path = .ok id) : ∃ y : Spelling, y.id = id ∧ y.domain = x.domain := by
  obtain ⟨hpath, hid⟩ := ok_of_check.mp h
  obtain rfl := ok_of_pure.mp hid
  obtain ⟨segments, hs, hp⟩ := (checkPath_eq_ok_iff _).mp hpath
  refine ⟨x.replace segments hs, ?_, rfl⟩
  rw [← x.join_domain, hp, String.ofList_toList]

theorem ofSegments_spelled {x : Spelling} {segments : List String} {id : SpiffeId}
    (h : ofSegments x.domain segments = .ok id) :
    ∃ y : Spelling, y.id = id ∧ y.domain = x.domain := by
  obtain ⟨path, hjoin, hid⟩ := ok_of_steps.mp h
  obtain rfl := ok_of_pure.mp hid
  obtain ⟨hs, rfl⟩ := (joinSegments_eq_ok_iff _ _).mp hjoin
  exact ⟨x.replace _ hs, rfl, rfl⟩

theorem appendPath_spelled {x : Spelling} {path : String} {id : SpiffeId}
    (h : x.id.appendPath path = .ok id) : ∃ y : Spelling, y.id = id ∧ y.domain = x.domain := by
  obtain ⟨hpath, hid⟩ := ok_of_check.mp h
  obtain rfl := ok_of_pure.mp hid
  obtain ⟨more, hs, hp⟩ := (checkPath_eq_ok_iff _).mp hpath
  refine ⟨x.append more hs, ?_, rfl⟩
  rw [← x.extend_id, hp, String.ofList_toList]

theorem appendSegments_spelled {x : Spelling} {segments : List String} {id : SpiffeId}
    (h : x.id.appendSegments segments = .ok id) :
    ∃ y : Spelling, y.id = id ∧ y.domain = x.domain := by
  obtain ⟨path, hjoin, hid⟩ := ok_of_steps.mp h
  obtain rfl := ok_of_pure.mp hid
  obtain ⟨hs, rfl⟩ := (joinSegments_eq_ok_iff _ _).mp hjoin
  exact ⟨x.append _ hs, (x.extend_id hs).symm, rfl⟩

/-- Taking out the trust domain and making its own identity takes the path
away. -/
theorem domainId_spelled (x : Spelling) :
    ∃ y : Spelling, y.id = x.domain.id ∧ y.domain = x.domain :=
  ⟨x.replace [] (by simp), rfl, rfl⟩

/-! ### Sequences of operations -/

/-- The identity that a sequence of operations makes is spelled, with the name
it started from. -/
theorem reach_spelled {td : TrustDomain} {id : SpiffeId} (h : Reach td id) :
    ∃ x : Spelling, x.id = id ∧ x.domain = td := by
  induction h with
  | parse h =>
    obtain ⟨x, -, rfl⟩ := (parse_eq_ok_iff _ _).mp h
    exact ⟨x, rfl, x.trustDomain_id.symm⟩
  | ofUrl h =>
    obtain ⟨x, -, rfl⟩ := (parse_eq_ok_iff _ _).mp h
    exact ⟨x, rfl, x.trustDomain_id.symm⟩
  | ofPath htd h =>
    obtain ⟨x, rfl⟩ := htd.spelled
    exact ofPath_spelled h
  | ofSegments htd h =>
    obtain ⟨x, rfl⟩ := htd.spelled
    exact ofSegments_spelled h
  | ofDomain htd =>
    obtain ⟨x, rfl⟩ := htd.spelled
    exact domainId_spelled x
  | appendPath _ h ih =>
    obtain ⟨x, rfl, rfl⟩ := ih
    exact appendPath_spelled h
  | appendSegments _ h ih =>
    obtain ⟨x, rfl, rfl⟩ := ih
    exact appendSegments_spelled h
  | replacePath _ h ih =>
    obtain ⟨x, rfl, rfl⟩ := ih
    rw [SpiffeId.replacePath, x.trustDomain_id] at h
    exact ofPath_spelled h
  | replaceSegments _ h ih =>
    obtain ⟨x, rfl, rfl⟩ := ih
    rw [SpiffeId.replaceSegments, x.trustDomain_id] at h
    exact ofSegments_spelled h
  | belowPath _ h ih =>
    obtain ⟨x, rfl, rfl⟩ := ih
    rw [x.trustDomain_id] at h
    exact ofPath_spelled h
  | belowSegments _ h ih =>
    obtain ⟨x, rfl, rfl⟩ := ih
    rw [x.trustDomain_id] at h
    exact ofSegments_spelled h
  | domainId _ ih =>
    obtain ⟨x, rfl, rfl⟩ := ih
    rw [x.trustDomain_id]
    exact domainId_spelled x

theorem trustDomain_of_reach {td : TrustDomain} {id : SpiffeId} (h : Reach td id) :
    id.trustDomain = td := by
  obtain ⟨x, rfl, rfl⟩ := reach_spelled h
  exact x.trustDomain_id

/-- Of two spellings with one text, the identities do not differ in the offset
either. -/
theorem id_eq_iff_text_eq (x y : Spelling) : x.id = y.id ↔ x.id.text = y.id.text := by
  constructor
  · intro h
    rw [h]
  · intro h
    rw [Spelling.text_injective h]

theorem id_lt_iff_text_lt (x y : Spelling) : x.id < y.id ↔ x.id.text < y.id.text := by
  constructor
  · rintro (h | ⟨h, hlt⟩)
    · exact h
    · rw [(id_eq_iff_text_eq x y).mpr h] at hlt
      exact absurd hlt (Nat.lt_irrefl _)
  · intro h
    exact .inl h

/-- **What operations make is what its text says.** An identity that a sequence
of operations makes reads back from its text as itself, offset included, and
belongs to the trust domain that the sequence started in. Two of them are equal
if their texts are, and are ordered as the octets of their texts are. -/
theorem reach_faithful {td : TrustDomain} {id : SpiffeId} (h : Reach td id) :
    SpiffeId.parse id.text = .ok id ∧ id.trustDomain = td ∧
    ∀ (td' : TrustDomain) (id' : SpiffeId), Reach td' id' →
      (id = id' ↔ id.text = id'.text) ∧
      (id < id' ↔ Utf8.encode id.text < Utf8.encode id'.text) := by
  obtain ⟨x, rfl, rfl⟩ := reach_spelled h
  refine ⟨parse_text x, x.trustDomain_id, ?_⟩
  intro td' id' h'
  obtain ⟨y, rfl, rfl⟩ := reach_spelled h'
  refine ⟨id_eq_iff_text_eq x y, ?_⟩
  rw [Utf8.encode_lt_encode_iff]
  exact id_lt_iff_text_lt x y

/-- An identity that is read, moved below its path, and reduced to its trust
domain comes before the one it was moved to. -/
theorem reach_faithful_moved :
    Reach ⟨"acme.io"⟩ ⟨"spiffe://acme.io/ns/web", 16⟩ ∧ Reach ⟨"acme.io"⟩ ⟨"spiffe://acme.io", 16⟩ ∧
    SpiffeId.parse "spiffe://acme.io/ns/web" = .ok ⟨"spiffe://acme.io/ns/web", 16⟩ ∧
    (SpiffeId.mk "spiffe://acme.io" 16 < ⟨"spiffe://acme.io/ns/web", 16⟩ ↔
      Utf8.encode "spiffe://acme.io" < Utf8.encode "spiffe://acme.io/ns/web") := by
  have hread : SpiffeId.parse "spiffe://acme.io/ns" = .ok ⟨"spiffe://acme.io/ns", 16⟩ := by
    decide +kernel
  have hmove : SpiffeId.appendPath ⟨"spiffe://acme.io/ns", 16⟩ "/web" =
      .ok ⟨"spiffe://acme.io/ns/web", 16⟩ := by decide +kernel
  have hdomain : (SpiffeId.mk "spiffe://acme.io/ns" 16).trustDomain = ⟨"acme.io"⟩ := by
    decide +kernel
  have hmoved : Reach ⟨"acme.io"⟩ ⟨"spiffe://acme.io/ns/web", 16⟩ := by
    rw [← hdomain]
    exact .appendPath (.parse hread) hmove
  have hown : (SpiffeId.mk "spiffe://acme.io/ns/web" 16).trustDomain.id =
      ⟨"spiffe://acme.io", 16⟩ := by decide +kernel
  have hdomainId : Reach ⟨"acme.io"⟩ ⟨"spiffe://acme.io", 16⟩ := by
    rw [← hown]
    exact .domainId hmoved
  exact ⟨hmoved, hdomainId, (reach_faithful hmoved).1,
    ((reach_faithful hdomainId).2.2 _ _ hmoved).2⟩

end SpiffeId

end WorkloadIdentity
