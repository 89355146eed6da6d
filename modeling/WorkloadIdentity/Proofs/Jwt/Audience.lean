/-
# An audience is a set

What counts of an audience, expected or claimed, is which texts are in it. Expected audiences
of the same texts give the same answer; so do claims that name the same audiences in another
way, as a text or as an array of it, in another order, or more than once
(`JwtSvid.Rephrases`), as far as an array may be long. A token is refused for its audience if
and only if the two sets differ, and the refusal names both of them in order.

Key definitions: `JwtSvid.SameAudience`, `JwtSvid.Rephrases`, `JwtSvid.Lists`.
Key theorems: `JwtSvid.audience?_of_rephrases`, `JwtSvid.validate_invalidAudience_iff`,
`JwtSvid.audience_set_equality`.
-/
import WorkloadIdentity.Proofs.Jwt.Encoding

namespace WorkloadIdentity
namespace JwtSvid

/-! ### Claims that name the same audiences -/

/-- The values name the same audiences: one text and the array of it, or two arrays of the same
items, neither of them too long. -/
inductive SameAudience : Json → Json → Prop where
  | wrapped (text : String) : SameAudience (.string text) (.array [.string text])
  | items {items items' : List Json} : (∀ item, item ∈ items ↔ item ∈ items') →
      items.length ≤ maxAudienceCount → items'.length ≤ maxAudienceCount →
      SameAudience (.array items) (.array items')

/-- The claims are others only in how they name the audience. -/
structure Rephrases (claims claims' : Keyed Json) : Prop where
  audience : ∃ aud aud', Keyed.find? "aud" claims = some aud ∧
    Keyed.find? "aud" claims' = some aud' ∧ SameAudience aud aud'
  others : ∀ name, name ≠ "aud" → Keyed.find? name claims' = Keyed.find? name claims

theorem audience?_array {claims : Keyed Json} {items : List Json}
    (haud : Keyed.find? "aud" claims = some (.array items))
    (hcount : items.length ≤ maxAudienceCount) :
    audience? claims =
      (items.mapM Json.string?).elim (.error .invalidAudienceClaim) (.ok ∘ distinct) := by
  unfold audience?
  rw [haud]
  simp only [if_neg (Nat.not_lt.mpr hcount)]
  cases items.mapM Json.string? <;> rfl

/-- If some items are all texts, so are items that are among them. -/
theorem exists_texts {items items' : List Json} {texts : List String}
    (h : ∀ item ∈ items', item ∈ items) (htexts : items.mapM Json.string? = some texts) :
    ∃ texts', items'.mapM Json.string? = some texts' ∧ ∀ text ∈ texts', text ∈ texts := by
  obtain rfl := (mapM_string?_eq_some_iff _ _).mp htexts
  have heach : ∀ item ∈ items', ∃ text, item.string? = some text := by
    intro item hitem
    obtain ⟨text, -, rfl⟩ := List.mem_map.mp (h item hitem)
    exact ⟨text, rfl⟩
  obtain ⟨texts', htexts'⟩ := exists_some_of_each.mpr heach
  refine ⟨texts', htexts', fun text htext => ?_⟩
  obtain rfl := (mapM_string?_eq_some_iff _ _).mp htexts'
  obtain ⟨text', htext', hsame⟩ := List.mem_map.mp (h _ (List.mem_map_of_mem htext))
  rwa [← Json.string.inj hsame]

/-- **The audience is the same in other words.** -/
theorem audience?_of_rephrases {claims claims' : Keyed Json} (h : Rephrases claims claims') :
    audience? claims' = audience? claims := by
  obtain ⟨aud, aud', haud, haud', hsame⟩ := h.audience
  cases hsame with
  | wrapped text =>
    unfold audience?
    rw [haud, haud']
    rfl
  | @items items items' hmem hcount hcount' =>
    rw [audience?_array haud hcount, audience?_array haud' hcount']
    cases htexts : items.mapM Json.string? with
    | some texts =>
      obtain ⟨texts', htexts', hsub⟩ := exists_texts (fun item => (hmem item).mpr) htexts
      obtain ⟨again, hagain, hsup⟩ := exists_texts (fun item => (hmem item).mp) htexts'
      obtain rfl := Option.some.inj (htexts.symm.trans hagain)
      rw [htexts']
      exact congrArg Except.ok (distinct_eq_distinct_iff.mpr fun text => ⟨hsub text, hsup text⟩)
    | none =>
      cases htexts' : items'.mapM Json.string? with
      | some texts' =>
        obtain ⟨texts, hsome, -⟩ := exists_texts (fun item => (hmem item).mp) htexts'
        rw [htexts] at hsome
        cases hsome
      | none => rfl

/-! ### The rest of the token -/

theorem date?_congr {claims claims' : Keyed Json} {claim : DateClaim}
    (h : Keyed.find? claim.name claims' = Keyed.find? claim.name claims) :
    date? claims' claim = date? claims claim := by
  unfold date?
  rw [h]

theorem Rephrases.date? {claims claims' : Keyed Json} (h : Rephrases claims claims')
    (claim : DateClaim) : JwtSvid.date? claims' claim = JwtSvid.date? claims claim :=
  date?_congr (h.others _ (by cases claim <;> decide))

/-- The token with other claims in another text. -/
def reworded (token : String) (claims : Keyed Json) (svid : JwtSvid) : JwtSvid :=
  { svid with claims := claims, token := token }

theorem ofParts_of_rephrases {claims claims' : Keyed Json} (h : Rephrases claims claims')
    (token token' : String) (header : JwtHeader) :
    ofParts token' header claims' =
      (ofParts token header claims).map (reworded token' claims') := by
  have hsubject : readSubject claims' = readSubject claims := by
    unfold readSubject
    rw [h.others _ (by decide)]
  have hexpiry : readExpiry claims' = readExpiry claims := by
    unfold readExpiry
    rw [h.date?]
  unfold ofParts
  rw [hsubject, hexpiry, audience?_of_rephrases h]
  cases checkType header.type with
  | error e => rfl
  | ok =>
    cases readAlgorithm header.algorithm with
    | error e => rfl
    | ok algorithm =>
      cases readSubject claims with
      | error e => rfl
      | ok id =>
        cases readExpiry claims with
        | error e => rfl
        | ok expiry =>
          cases audience? claims with
          | error e => rfl
          | ok audience => rfl

theorem validate_reworded (svid : JwtSvid) {claims' : Keyed Json}
    (h : Rephrases svid.claims claims') (token' : String) (expected : List String) (now : Int) :
    (svid.reworded token' claims').validate expected now = svid.validate expected now := by
  unfold validate reworded checkBegun
  simp only [h.date?]

/-- **Another wording of the audience changes nothing else.** -/
theorem parseInsecure_of_rephrases {token token' : String} {header : JwtHeader}
    {claims claims' : Keyed Json} (hread : ReadsAs token header claims)
    (hread' : ReadsAs token' header claims') (h : Rephrases claims claims') (expected : List String)
    (now : Int) : parseInsecure token' expected now =
      (parseInsecure token expected now).map (reworded token' claims') := by
  unfold parseInsecure
  rw [hread.decode, hread'.decode, ofParts_of_rephrases h token]
  cases hparts : ofParts token header claims with
  | error e => rfl
  | ok svid =>
    have hclaims : svid.claims = claims :=
      ((ofParts_eq_ok_iff _ _ _ _).mp hparts).2.2.2.2.2.1
    have hvalidate := validate_reworded svid (by rwa [hclaims]) token' expected now
    have hmap : (Except.ok svid : Except JwtError JwtSvid).map (reworded token' claims') =
        .ok (svid.reworded token' claims') := rfl
    rw [hmap]
    simp only [bind, Except.bind, hvalidate]
    cases svid.validate expected now with
    | error e => rfl
    | ok => rfl

/-! ### Refusals -/

theorem error_of_date? {claims : Keyed Json} {claim : DateClaim} {e : JwtError}
    (h : date? claims claim = .error e) : e = .invalidTimestamp claim := by
  unfold date? at h
  split at h
  · cases h
  · cases h
  · cases h
  · cases h
  · exact (Except.error.inj h).symm

theorem error_of_checkBegun {claims : Keyed Json} {claim : DateClaim} {now : Int}
    {refusal e : JwtError} (h : checkBegun claims claim now refusal = .error e) :
    e = .invalidTimestamp claim ∨ e = refusal := by
  unfold checkBegun at h
  rcases error_of_steps.mp h with h | ⟨time, -, h⟩
  · exact .inl (error_of_date? h)
  · cases time with
    | none => cases h
    | some time =>
      simp only at h
      split at h
      · cases h
      · exact .inr (Except.error.inj h).symm

/-- **A token is refused for its audience if that is another set**, and then the refusal names
both. -/
theorem validate_invalidAudience_iff (svid : JwtSvid) (expected : List String) (now : Int)
    (actual wanted : List String) :
    svid.validate expected now = .error (.invalidAudience actual wanted) ↔
      svid.audience ≠ distinct expected ∧ actual = svid.audience ∧ wanted = distinct expected := by
  unfold validate
  by_cases hsame : svid.audience = distinct expected
  · have hchecked : checkAudience svid.audience (distinct expected) = .ok () := if_pos hsame
    -- no later check refuses an audience
    refine ⟨fun h => ?_, fun h => absurd hsame h.1⟩
    rcases error_of_steps.mp h with h | ⟨-, -, h⟩
    · rw [hchecked] at h
      cases h
    rcases error_of_steps.mp h with h | ⟨-, -, h⟩
    · rcases error_of_checkBegun h with h | h <;> cases h
    rcases error_of_steps.mp h with h | ⟨-, -, h⟩
    · unfold checkUnexpired at h
      split at h <;> cases h
    · rcases error_of_checkBegun h with h | h <;> cases h
  · have hrefused : checkAudience svid.audience (distinct expected) =
        .error (.invalidAudience svid.audience (distinct expected)) := if_neg hsame
    rw [hrefused]
    constructor
    · intro h
      obtain ⟨rfl, rfl⟩ := JwtError.invalidAudience.inj (Except.error.inj h)
      exact ⟨hsame, rfl, rfl⟩
    · rintro ⟨-, rfl, rfl⟩
      rfl

theorem parseInsecure_invalidAudience_iff {token : String} {svid : JwtSvid}
    (hdecode : decode token = .ok svid) (expected : List String) (now : Int)
    (actual wanted : List String) :
    parseInsecure token expected now = .error (.invalidAudience actual wanted) ↔
      svid.audience ≠ distinct expected ∧ actual = svid.audience ∧ wanted = distinct expected := by
  rw [← validate_invalidAudience_iff svid expected now]
  unfold parseInsecure
  rw [hdecode]
  constructor
  · intro h
    rcases error_of_steps.mp h with h | ⟨read, hread, h⟩
    · cases h
    obtain rfl := Except.ok.inj hread
    rcases error_of_steps.mp h with h | ⟨-, -, h⟩
    · exact h
    · cases h
  · exact fun h => error_of_steps.mpr (.inr ⟨svid, rfl, error_of_steps.mpr (.inl h)⟩)

/-- An array of too many entries is refused, whatever they are. -/
theorem audience?_of_tooMany {claims : Keyed Json} {items : List Json}
    (haud : Keyed.find? "aud" claims = some (.array items))
    (hcount : maxAudienceCount < items.length) :
    audience? claims = .error .invalidAudienceClaim := by
  unfold audience?
  rw [haud]
  exact if_pos hcount

/-- A token that has nothing wrong but that is refused for it. -/
theorem ofParts_of_tooMany {token : String} {header : JwtHeader} {claims : Keyed Json}
    {items : List Json} {svid : JwtSvid} (haud : Keyed.find? "aud" claims = some (.array items))
    (hcount : maxAudienceCount < items.length)
    (hrest : ofParts token header (Keyed.insert "aud" .null claims) = .ok svid) :
    ofParts token header claims = .error .invalidAudienceClaim := by
  obtain ⟨htype, halgorithm, hsubject, hexpiry, -⟩ := (ofParts_eq_ok_iff _ _ _ _).mp hrest
  have hother (name : String) (hname : "aud" ≠ name) :
      Keyed.find? name (Keyed.insert "aud" .null claims) = Keyed.find? name claims := by
    rw [Keyed.find?_insert, if_neg hname]
  have hsubject' : readSubject claims = .ok svid.spiffeId := by
    unfold readSubject at hsubject ⊢
    rwa [hother "sub" (by decide)] at hsubject
  have hexpiry' : readExpiry claims = .ok svid.expiry := by
    unfold readExpiry at hexpiry ⊢
    rwa [date?_congr (hother DateClaim.expiry.name (by decide))] at hexpiry
  unfold ofParts
  rw [htype, halgorithm, hsubject', hexpiry', audience?_of_tooMany haud hcount]
  rfl

/-- The list holds these texts, in order and each of them once. -/
def Lists (list texts : List String) : Prop :=
  list.Pairwise (· < ·) ∧ ∀ text, text ∈ list ↔ text ∈ texts

theorem lists_distinct (texts : List String) : Lists (distinct texts) texts :=
  ⟨sorted_distinct texts, fun _ => mem_distinct⟩

theorem audience_eq_distinct {token : String} {svid : JwtSvid} {texts : List String}
    (h : decode token = .ok svid) (htexts : NamesAudience svid.claims texts) :
    svid.audience = distinct texts := by
  obtain ⟨header, claims, signature, read, hsplit, hcarries⟩ := (decode_eq_ok_iff _ _).mp h
  obtain ⟨texts', htexts', hdistinct⟩ := hcarries.audience
  rw [htexts.unique htexts', hdistinct]

/-- **Audiences match if they are the same set.** Expected audiences of the same texts give the
same result. Claims that name their audience in other words give the same result, too, a refusal
included. A token that decodes is refused for its audience if and only if that is another set than
the expected one, and the refusal lists both. One that has an array of too many entries, and
would decode without it, is refused for the claim. -/
theorem audience_set_equality :
    (∀ token expected expected' now, (∀ text, text ∈ expected ↔ text ∈ expected') →
      parseInsecure token expected now = parseInsecure token expected' now) ∧
    (∀ token token' header claims claims', ReadsAs token header claims →
      ReadsAs token' header claims' → Rephrases claims claims' → ∀ expected now,
        parseInsecure token' expected now =
          (parseInsecure token expected now).map (reworded token' claims')) ∧
    (∀ token svid, decode token = .ok svid → ∃ texts, NamesAudience svid.claims texts ∧
      ∀ expected now,
        ((∃ actual wanted, parseInsecure token expected now =
            .error (.invalidAudience actual wanted)) ↔ ¬ ∀ text, text ∈ texts ↔ text ∈ expected) ∧
        ∀ actual wanted,
          parseInsecure token expected now = .error (.invalidAudience actual wanted) →
            Lists actual texts ∧ Lists wanted expected) ∧
    ∀ token header claims items svid, ReadsAs token header claims →
      Keyed.find? "aud" claims = some (.array items) → maxAudienceCount < items.length →
        ofParts token header (Keyed.insert "aud" .null claims) = .ok svid →
          decode token = .error .invalidAudienceClaim ∧
            ∀ expected now, parseInsecure token expected now = .error .invalidAudienceClaim := by
  refine ⟨?_, ?_, ?_, ?_⟩
  · intro token expected expected' now hsame
    unfold parseInsecure validate
    rw [distinct_eq_distinct_iff.mpr hsame]
  · intro token token' header claims claims' hread hread' h expected now
    exact parseInsecure_of_rephrases hread hread' h expected now
  · intro token svid hdecode
    obtain ⟨header, claims, signature, read, hsplit, hcarries⟩ := (decode_eq_ok_iff _ _).mp hdecode
    obtain ⟨texts, htexts, -⟩ := hcarries.audience
    have haudience := audience_eq_distinct hdecode htexts
    have hrefused := parseInsecure_invalidAudience_iff hdecode
    refine ⟨texts, htexts, fun expected now => ⟨?_, ?_⟩⟩
    · simp only [hrefused, haudience, ← distinct_eq_distinct_iff]
      constructor
      · rintro ⟨-, -, hne, -⟩
        exact hne
      · exact fun hne => ⟨_, _, hne, rfl, rfl⟩
    · intro actual wanted h
      obtain ⟨-, rfl, rfl⟩ := (hrefused expected now actual wanted).mp h
      exact ⟨haudience ▸ lists_distinct texts, lists_distinct expected⟩
  · intro token header claims items svid hread haud hcount hrest
    have hdecode : decode token = .error .invalidAudienceClaim := by
      rw [hread.decode]
      exact ofParts_of_tooMany haud hcount hrest
    refine ⟨hdecode, fun expected now => ?_⟩
    unfold parseInsecure
    rw [hdecode]
    rfl

/-- Two wordings of one audience, and one that names it too often. -/
theorem audience_set_equality_nestedClaims :
    let token audience := compact nestedHeader (nestedClaims audience) []
    let text : Json := .string "web"
    let array : Json := .array [text]
    let long : Json := .array (List.replicate 33 text)
    parseInsecure (token text) ["web", "web"] 0 = parseInsecure (token text) ["web"] 0 ∧
      parseInsecure (token array) ["web"] 0 =
        (parseInsecure (token text) ["web"] 0).map (reworded (token array) (nestedClaims array)) ∧
      (∃ actual wanted, parseInsecure (token text) ["web", "db"] 0 =
        .error (.invalidAudience actual wanted)) ∧
      parseInsecure (token long) ["web"] 0 = .error .invalidAudienceClaim := by
  intro token text array long
  obtain ⟨hexpected, hreworded, hrefused, hlong⟩ := audience_set_equality
  obtain ⟨type, htype, hheader⟩ := isHeader_nestedHeader.readHeader
  have hreads {audience : Json} (hvalue : Json.WellFormed 126 audience)
      (hnumbers : audience.numbers = [])
      (hsize : (Json.object (nestedClaims audience)).bytes.length ≤ maxSegmentSize + 2) :
      ReadsAs (token audience) _ (nestedClaims audience) :=
    readsAs_compact hheader (readClaims_encode (wellFormed_nestedClaims hvalue)
      (fun _ hn => isInteger_nestedClaims hnumbers hn) hsize) (List.not_mem_nil)
  have htext : ReadsAs (token text) _ _ := hreads (.string _) (by decide) (by decide +kernel)
  have harray : ReadsAs (token array) _ _ :=
    hreads (wellFormed_texts ["web"]) (by decide) (by decide +kernel)
  have hmany : ReadsAs (token long) _ _ :=
    hreads (wellFormed_texts (List.replicate 33 "web")) (by decide) (by decide +kernel)
  refine ⟨hexpected _ _ _ _ (by simp), ?_, ?_, ?_⟩
  · refine hreworded _ _ _ _ _ htext harray ⟨⟨text, array, rfl, rfl, .wrapped _⟩, ?_⟩ _ _
    intro name hname
    simp [nestedClaims, Keyed.find?, Ne.symm hname]
  · have hclaims : IsClaims (nestedClaims text) _ _ ["web"] :=
      isClaims_nestedClaims (.string _) (by decide) (.single rfl) (by decide +kernel)
    have hdecode := htext.decode.trans (hclaims.ofParts htype _ _ .es256)
    obtain ⟨texts, htexts, hrefused⟩ := hrefused _ _ hdecode
    obtain rfl := htexts.unique (.single rfl)
    exact (hrefused ["web", "db"] 0).1.mpr fun hsame => by
      simpa using (hsame "db").mpr (by simp)
  · have hclaims : IsClaims (nestedClaims .null) _ _ [] :=
      isClaims_nestedClaims .null (by decide) (.null rfl) (by decide +kernel)
    have hrest := hclaims.ofParts htype (token long) (some "key \"1\"") .es256
    exact (hlong _ _ _ _ _ hmany rfl (by decide) hrest).2 _ _

end JwtSvid
end WorkloadIdentity
