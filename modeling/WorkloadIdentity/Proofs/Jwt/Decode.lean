/-
# What a token says

A token is three texts without dots, with dots between them (`Splits`).
Decoding one succeeds if and only if the first two are read as a header and
claims that say what a token has to say (`Carries`), and gives just that
(`decode_eq_ok_iff`). Each reader has a lemma of its own that says what it
accepts, without the order of its tests.

Key definitions: `JwtSvid.Splits`, `JwtSvid.NamesAudience`, `JwtSvid.ReadsAs`, `JwtSvid.Carries`.
Key theorems: `JwtSvid.splitOn_eq_iff`, `JwtSvid.ofParts_eq_ok_iff`,
`JwtSvid.decode_eq_ok_iff`.
-/
import WorkloadIdentity.Jwt.Svid
import WorkloadIdentity.Proofs.Keyed
import WorkloadIdentity.Proofs.Outcome
import WorkloadIdentity.Proofs.Text.Characters

namespace WorkloadIdentity

/-! ### Algorithms -/

theorem JwtAlgorithm.ofName?_name (algorithm : JwtAlgorithm) :
    ofName? algorithm.name = some algorithm := by
  cases algorithm <;> decide

theorem JwtAlgorithm.ofName?_eq_some_iff (s : String) (algorithm : JwtAlgorithm) :
    ofName? s = some algorithm ↔ algorithm.name = s := by
  constructor
  · intro h
    simpa using List.find?_some h
  · rintro rfl
    exact ofName?_name algorithm

namespace JwtSvid

/-! ### The parts of a token -/

/-- The token is these three texts, which hold no dot, with dots between
them. -/
structure Splits (token : String) (header claims signature : List Char) : Prop where
  text : token.toList = header ++ '.' :: claims ++ '.' :: signature
  header : '.' ∉ header
  claims : '.' ∉ claims
  signature : '.' ∉ signature

theorem splitOn_eq_iff (token : String) (header claims signature : List Char) :
    token.toList.splitOn '.' = [header, claims, signature] ↔
      Splits token header claims signature := by
  have hjoin : ['.'].intercalate [header, claims, signature] =
      header ++ '.' :: claims ++ '.' :: signature := by
    simp [List.intercalate]
  constructor
  · intro h
    have hdot := not_mem_of_mem_splitOn '.' token.toList
    rw [h] at hdot
    refine ⟨?_, hdot _ (by simp), hdot _ (by simp), hdot _ (by simp)⟩
    rw [← hjoin, ← h, List.intercalate_splitOn]
  · rintro ⟨htext, hh, hc, hs⟩
    rw [htext, ← hjoin]
    refine List.splitOn_intercalate '.' ?_ (by simp)
    simp [hh, hc, hs]

/-! ### Readers -/

theorem readHeader_eq_ok_iff (s : List Char) (header : JwtHeader) :
    readHeader s = .ok header ↔
      ∃ octets, decodeSegment s = .ok octets ∧ JwtHeader.read octets = some header := by
  unfold readHeader
  rw [ok_of_steps]
  refine exists_congr fun octets => and_congr_right fun _ => ?_
  cases JwtHeader.read octets with
  | none => simp [throw, throwThe, MonadExceptOf.throw]
  | some read => simp [ok_of_pure]

theorem readClaims_eq_ok_iff (s : List Char) (claims : Keyed Json) :
    readClaims s = .ok claims ↔
      ∃ octets, decodeSegment s = .ok octets ∧ Json.parse octets = some (.object claims) := by
  unfold readClaims
  rw [ok_of_steps]
  refine exists_congr fun octets => and_congr_right fun _ => ?_
  split
  · rename_i read h
    simp [ok_of_pure, h]
  · rename_i h
    simp only [throw, throwThe, MonadExceptOf.throw, reduceCtorEq, false_iff]
    exact h claims

theorem checkType_eq_ok_iff (type : Option String) :
    checkType type = .ok () ↔ type = none ∨ type = some "JWT" ∨ type = some "JOSE" := by
  cases type with
  | none => simp [checkType]
  | some type =>
    rw [checkType, ok_of_test]
    simp

theorem readAlgorithm_eq_ok_iff (name : String) (algorithm : JwtAlgorithm) :
    readAlgorithm name = .ok algorithm ↔ algorithm.name = name := by
  rw [← JwtAlgorithm.ofName?_eq_some_iff]
  unfold readAlgorithm
  split <;> simp_all

theorem readSubject_eq_ok_iff (claims : Keyed Json) (id : SpiffeId) :
    readSubject claims = .ok id ↔
      ∃ subject, Keyed.find? "sub" claims = some (.string subject) ∧
        SpiffeId.parse subject = .ok id := by
  unfold readSubject
  split
  · rename_i subject hsub
    rw [hsub]
    by_cases hempty : subject.isEmpty = true
    · -- the empty text is no identity either
      have hparse : SpiffeId.parse subject = .error .empty := by
        unfold SpiffeId.parse
        rw [if_pos hempty]
      simp [hempty, hparse]
    · cases hparse : SpiffeId.parse subject <;> simp [hempty, hparse]
  · rename_i hsub
    simp only [reduceCtorEq, false_iff]
    rintro ⟨subject, h, -⟩
    exact hsub subject h

theorem readExpiry_eq_ok_iff (claims : Keyed Json) (t : Int) :
    readExpiry claims = .ok t ↔
      date? claims .expiry = .ok (some t) ∧ expiryRange.1 ≤ t ∧ t ≤ expiryRange.2 := by
  unfold readExpiry
  rw [ok_of_steps]
  constructor
  · rintro ⟨time, hdate, h⟩
    cases time with
    | none => exact absurd h (by simp [throw, throwThe, MonadExceptOf.throw])
    | some time =>
      obtain ⟨hrange, htime⟩ := ok_of_test.mp h
      obtain rfl := ok_of_pure.mp htime
      exact ⟨hdate, hrange⟩
  · rintro ⟨hdate, hrange⟩
    exact ⟨some t, hdate, ok_of_test.mpr ⟨hrange, rfl⟩⟩

/-- The audiences that claims name: none, one as a text, or those of an array
of not too many texts. -/
inductive NamesAudience (claims : Keyed Json) : List String → Prop where
  | missing : Keyed.find? "aud" claims = none → NamesAudience claims []
  | null : Keyed.find? "aud" claims = some .null → NamesAudience claims []
  | single {text : String} :
      Keyed.find? "aud" claims = some (.string text) → NamesAudience claims [text]
  | array {texts : List String} : texts.length ≤ maxAudienceCount →
      Keyed.find? "aud" claims = some (.array (texts.map .string)) → NamesAudience claims texts

/-- The claim is one of these, so it names the audiences of one list only. -/
theorem NamesAudience.unique {claims : Keyed Json} {xs ys : List String}
    (hx : NamesAudience claims xs) (hy : NamesAudience claims ys) : xs = ys := by
  have hinj : Function.Injective Json.string := fun _ _ h => Json.string.inj h
  cases hx <;> cases hy <;> simp_all [hinj.list_map.eq_iff]

/-- The items of an array that are all texts. -/
theorem mapM_string?_eq_some_iff : ∀ (items : List Json) (texts : List String),
    items.mapM Json.string? = some texts ↔ items = texts.map .string
  | [], texts => by cases texts <;> simp
  | item :: items, texts => by
    have ih := mapM_string?_eq_some_iff items
    rw [List.mapM_cons]
    cases texts with
    | nil => cases item <;> cases items.mapM Json.string? <;> simp [Json.string?]
    | cons text texts =>
      rw [List.map_cons, List.cons.injEq, ← ih texts]
      cases item <;> cases items.mapM Json.string? <;> simp [Json.string?]

theorem audience?_eq_ok_iff (claims : Keyed Json) (audience : List String) :
    audience? claims = .ok audience ↔
      ∃ texts, NamesAudience claims texts ∧ distinct texts = audience := by
  constructor
  · intro h
    unfold audience? at h
    split at h
    · rename_i haud
      exact ⟨[], .missing haud, Except.ok.inj h⟩
    · rename_i haud
      exact ⟨[], .null haud, Except.ok.inj h⟩
    · rename_i text haud
      exact ⟨[text], .single haud, Except.ok.inj h⟩
    · rename_i items haud
      split at h
      · cases h
      rename_i hcount
      split at h
      · rename_i texts htexts
        obtain rfl := (mapM_string?_eq_some_iff _ _).mp htexts
        exact ⟨texts, .array (by simpa using hcount) haud, Except.ok.inj h⟩
      · cases h
    · cases h
  · rintro ⟨texts, htexts, rfl⟩
    unfold audience?
    cases htexts with
    | missing haud => rw [haud]; rfl
    | null haud => rw [haud]; rfl
    | single haud => rw [haud]; rfl
    | array hcount haud =>
      rw [haud]
      simp [(mapM_string?_eq_some_iff _ texts).mpr rfl, Nat.not_lt.mpr hcount]

/-! ### Decoding -/

/-- The texts of header and claims say what the token that is read carries. -/
structure Carries (token : String) (header claims : List Char) (read : JwtHeader) (svid : JwtSvid) :
    Prop where
  header : ∃ octets, decodeSegment header = .ok octets ∧ JwtHeader.read octets = some read
  claims : ∃ octets, decodeSegment claims = .ok octets ∧
    Json.parse octets = some (.object svid.claims)
  type : read.type = none ∨ read.type = some "JWT" ∨ read.type = some "JOSE"
  keyId : svid.keyId = read.keyId
  algorithm : svid.algorithm.name = read.algorithm
  subject : ∃ subject, Keyed.find? "sub" svid.claims = some (.string subject) ∧
    SpiffeId.parse subject = .ok svid.spiffeId
  expiry : date? svid.claims .expiry = .ok (some svid.expiry) ∧
    expiryRange.1 ≤ svid.expiry ∧ svid.expiry ≤ expiryRange.2
  audience : ∃ texts, NamesAudience svid.claims texts ∧ distinct texts = svid.audience
  token : svid.token = token
  hint : svid.hint = none

theorem ofParts_eq_ok_iff (token : String) (header : JwtHeader) (claims : Keyed Json)
    (svid : JwtSvid) :
    ofParts token header claims = .ok svid ↔
      checkType header.type = .ok () ∧ readAlgorithm header.algorithm = .ok svid.algorithm ∧
      readSubject claims = .ok svid.spiffeId ∧ readExpiry claims = .ok svid.expiry ∧
      audience? claims = .ok svid.audience ∧ svid.claims = claims ∧
      svid.keyId = header.keyId ∧ svid.token = token ∧ svid.hint = none := by
  unfold ofParts
  rw [ok_of_check]
  simp only [ok_of_steps, ok_of_pure]
  constructor
  · rintro ⟨htype, algorithm, halg, id, hid, expiry, hexp, audience, haud, rfl⟩
    exact ⟨htype, halg, hid, hexp, haud, rfl, rfl, rfl, rfl⟩
  · rintro ⟨htype, halg, hid, hexp, haud, rfl, hkey, rfl, hhint⟩
    refine ⟨htype, _, halg, _, hid, _, hexp, _, haud, ?_⟩
    rw [← hkey, ← hhint]

/-- A token whose header and claims are read says what they say. -/
theorem decode_of_splits {token : String} {header claims signature : List Char} {read : JwtHeader}
    {members : Keyed Json} (hsplit : Splits token header claims signature)
    (hheader : readHeader header = .ok read) (hclaims : readClaims claims = .ok members) :
    decode token = ofParts token read members := by
  unfold decode
  rw [(splitOn_eq_iff _ _ _ _).mpr hsplit]
  simp only [hheader, hclaims, bind, Except.bind]

/-- The token is read as this header and these claims. -/
def ReadsAs (token : String) (header : JwtHeader) (claims : Keyed Json) : Prop :=
  ∃ first second third, Splits token first second third ∧ readHeader first = .ok header ∧
    readClaims second = .ok claims

theorem ReadsAs.decode {token : String} {header : JwtHeader} {claims : Keyed Json}
    (h : ReadsAs token header claims) : JwtSvid.decode token = ofParts token header claims := by
  obtain ⟨first, second, third, hsplit, hheader, hclaims⟩ := h
  exact decode_of_splits hsplit hheader hclaims

/-- **What decoding accepts.** -/
theorem decode_eq_ok_iff (token : String) (svid : JwtSvid) :
    decode token = .ok svid ↔
      ∃ header claims signature read, Splits token header claims signature ∧
        Carries token header claims read svid := by
  constructor
  · intro h
    unfold decode at h
    split at h
    · rename_i header claims signature hsplit
      simp only [ok_of_steps] at h
      obtain ⟨read, hheader, members, hclaims, hparts⟩ := h
      obtain ⟨htype, halg, hid, hexp, haud, rfl, hkey, htoken, hhint⟩ :=
        (ofParts_eq_ok_iff _ _ _ _).mp hparts
      refine ⟨header, claims, signature, read, (splitOn_eq_iff _ _ _ _).mp hsplit, ?_⟩
      exact ⟨(readHeader_eq_ok_iff _ _).mp hheader, (readClaims_eq_ok_iff _ _).mp hclaims,
        (checkType_eq_ok_iff _).mp htype, hkey, (readAlgorithm_eq_ok_iff _ _).mp halg,
        (readSubject_eq_ok_iff _ _).mp hid, (readExpiry_eq_ok_iff _ _).mp hexp,
        (audience?_eq_ok_iff _ _).mp haud, htoken, hhint⟩
    · cases h
  · rintro ⟨header, claims, signature, read, hsplit, h⟩
    unfold decode
    rw [(splitOn_eq_iff _ _ _ _).mpr hsplit]
    simp only [ok_of_steps]
    refine ⟨read, (readHeader_eq_ok_iff _ _).mpr h.header, svid.claims,
      (readClaims_eq_ok_iff _ _).mpr h.claims, (ofParts_eq_ok_iff _ _ _ _).mpr ?_⟩
    exact ⟨(checkType_eq_ok_iff _).mpr h.type, (readAlgorithm_eq_ok_iff _ _).mpr h.algorithm,
      (readSubject_eq_ok_iff _ _).mpr h.subject, (readExpiry_eq_ok_iff _ _).mpr h.expiry,
      (audience?_eq_ok_iff _ _).mpr h.audience, rfl, h.keyId, h.token, h.hint⟩

end JwtSvid
end WorkloadIdentity
