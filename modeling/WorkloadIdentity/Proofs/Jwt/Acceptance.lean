/-
# Which tokens are accepted

A token is accepted only after every check, each made on what the others were
made on: the header that names the key and the algorithm is the one that is
signed, the trust domain whose bundle is asked for is the subject's, and the
claims that are checked are the ones that are given out. `Accepted` has a field
for each of them, and says nothing of their order.

What a signature primitive does with octets is in `Signature`; `Signs` says
which one is asked, for which key, about which octets.

Key definitions: `JwtSvid.Signs`, `JwtSvid.Begun`, `JwtSvid.Accepted`.
Key theorems: `JwtSvid.verifySignature_eq_ok_iff`,
`JwtSvid.validate_eq_ok_iff`, `JwtSvid.parseAndValidate_eq_ok_iff`.
-/
import WorkloadIdentity.Jwt.Signature
import WorkloadIdentity.Proofs.Jwt.Decode

namespace WorkloadIdentity
namespace JwtSvid

/-! ### The key -/

theorem findAuthority_eq_ok_iff (source : BundleSource JwtBundle) (td : TrustDomain)
    (keyId : Option String) (authority : JwtAuthority) :
    findAuthority source td keyId = .ok authority ↔
      ∃ bundle key, source td = .ok (some bundle) ∧ keyId = some key ∧
        bundle.find? key = some authority := by
  constructor
  · intro h
    unfold findAuthority at h
    split at h
    · cases h
    · cases h
    rename_i bundle hsource
    split at h
    · cases h
    rename_i key
    split at h
    · rename_i found hfind
      exact ⟨bundle, key, hsource, rfl, hfind.trans (congrArg some (Except.ok.inj h))⟩
    · cases h
  · rintro ⟨bundle, key, hsource, rfl, hfind⟩
    unfold findAuthority
    rw [hsource]
    simp only [hfind]

/-! ### The signature -/

/-- Under a stored key, the primitive of an algorithm finds that the signature
signs the text of header and claims. -/
inductive Signs (jwk : Bytes) (header claims signature : List Char) : JwtAlgorithm → Prop where
  | p521 {value : Json} {key : EcKey} {octets : Bytes} :
      Json.parse jwk = some value → p521Key? value = some key →
      decodeSegment signature = .ok octets →
      key.verifyFixed .sha512 (signedText header claims) octets = true →
      Signs jwk header claims signature .es512
  | registered {algorithm : JwtAlgorithm} {value : Json} {key : JwtKey} {octets : Bytes} :
      algorithm ≠ .es512 → Json.parse jwk = some value → JwtKey.ofJson? value = some key →
      Base64Url.decode signature = some octets → isRegular header claims = true →
      key.verifies algorithm.scheme (signedText header claims) octets = true →
      Signs jwk header claims signature algorithm

theorem verifyP521_eq_ok_iff (jwk : Bytes) (header claims signature : List Char) :
    verifyP521 jwk header claims signature = .ok () ↔
      ∃ value key octets, Json.parse jwk = some value ∧ p521Key? value = some key ∧
        decodeSegment signature = .ok octets ∧
        key.verifyFixed .sha512 (signedText header claims) octets = true := by
  unfold verifyP521
  cases hjwk : Json.parse jwk with
  | none => simp
  | some value =>
    simp only [Option.some.injEq]
    cases hkey : p521Key? value with
    | none => simp [hkey]
    | some key =>
      simp only [ok_of_steps]
      constructor
      · rintro ⟨octets, hoctets, h⟩
        exact ⟨value, key, octets, rfl, hkey, hoctets, (ok_of_test.mp h).1⟩
      · rintro ⟨_, key', octets, rfl, hkey', hoctets, h⟩
        obtain rfl := Option.some.inj (hkey.symm.trans hkey')
        exact ⟨octets, hoctets, ok_of_test.mpr ⟨h, rfl⟩⟩

theorem verifyRegistered_eq_ok_iff (algorithm : JwtAlgorithm) (jwk : Bytes)
    (header claims signature : List Char) :
    verifyRegistered algorithm jwk header claims signature = .ok () ↔
      ∃ value key octets, Json.parse jwk = some value ∧ JwtKey.ofJson? value = some key ∧
        Base64Url.decode signature = some octets ∧ isRegular header claims = true ∧
        key.verifies algorithm.scheme (signedText header claims) octets = true := by
  unfold verifyRegistered
  constructor
  · intro h
    split at h
    · cases h
    rename_i key hkey
    obtain ⟨value, hjwk, hkey⟩ := Option.bind_eq_some_iff.mp hkey
    split at h
    · rename_i octets hoctets
      obtain ⟨hboth, -⟩ := ok_of_test.mp h
      rw [Bool.and_eq_true] at hboth
      exact ⟨value, key, octets, hjwk, hkey, hoctets, hboth⟩
    · cases h
  · rintro ⟨value, key, octets, hjwk, hkey, hoctets, hregular, hverifies⟩
    simp [hjwk, hkey, hoctets, hregular, hverifies]

theorem verifySignature_eq_ok_iff {token : String} {header claims signature : List Char}
    (hsplit : Splits token header claims signature) (algorithm : JwtAlgorithm)
    (authority : JwtAuthority) :
    verifySignature token algorithm authority = .ok () ↔
      Signs (Utf8.encode authority.jwk) header claims signature algorithm := by
  unfold verifySignature
  rw [(splitOn_eq_iff _ _ _ _).mpr hsplit]
  by_cases halg : algorithm = .es512
  · subst halg
    simp only [if_true]
    rw [verifyP521_eq_ok_iff]
    constructor
    · rintro ⟨value, key, octets, hjwk, hkey, hoctets, h⟩
      exact .p521 hjwk hkey hoctets h
    · intro h
      cases h with
      | p521 hjwk hkey hoctets h => exact ⟨_, _, _, hjwk, hkey, hoctets, h⟩
      | registered hne => exact absurd rfl hne
  · simp only [halg, if_false]
    rw [verifyRegistered_eq_ok_iff]
    constructor
    · rintro ⟨value, key, octets, hjwk, hkey, hoctets, hregular, h⟩
      exact .registered halg hjwk hkey hoctets hregular h
    · intro h
      cases h with
      | p521 => exact absurd rfl halg
      | registered _ hjwk hkey hoctets hregular h =>
        exact ⟨_, _, _, hjwk, hkey, hoctets, hregular, h⟩

/-! ### The claims -/

/-- The claim holds no time, or one that has come, give or take the leeway. -/
def Begun (claims : Keyed Json) (claim : DateClaim) (now : Int) : Prop :=
  ∃ time, date? claims claim = .ok time ∧ ∀ t ∈ time, t ≤ clampTime (now + leeway)

theorem checkBegun_eq_ok_iff (claims : Keyed Json) (claim : DateClaim) (now : Int)
    (refusal : JwtError) :
    checkBegun claims claim now refusal = .ok () ↔ Begun claims claim now := by
  unfold checkBegun Begun
  rw [ok_of_steps]
  refine exists_congr fun time => and_congr_right fun _ => ?_
  cases time with
  | none => simp [ok_of_pure]
  | some t =>
    constructor
    · intro h s hs
      obtain rfl := Option.some.inj hs
      exact (ok_of_test.mp h).1
    · intro h
      exact ok_of_test.mpr ⟨h t rfl, rfl⟩

/-- The claims of a token hold for an expected audience at a time. -/
structure Holds (svid : JwtSvid) (expected : List String) (now : Int) : Prop where
  audience : svid.audience = distinct expected
  notBefore : Begun svid.claims .notBefore now
  unexpired : clampTime (now - leeway) ≤ svid.expiry
  issuedAt : Begun svid.claims .issuedAt now

theorem validate_eq_ok_iff (svid : JwtSvid) (expected : List String) (now : Int) :
    svid.validate expected now = .ok () ↔ svid.Holds expected now := by
  unfold validate
  rw [ok_of_check, ok_of_check, ok_of_check, checkBegun_eq_ok_iff, checkBegun_eq_ok_iff,
    checkAudience, ok_of_test, checkUnexpired, ok_of_test]
  constructor
  · rintro ⟨⟨haud, -⟩, hnbf, ⟨hexp, -⟩, hiat⟩
    exact ⟨haud, hnbf, hexp, hiat⟩
  · rintro ⟨haud, hnbf, hexp, hiat⟩
    exact ⟨⟨haud, rfl⟩, hnbf, ⟨hexp, rfl⟩, hiat⟩

/-! ### Acceptance -/

/-- All that a token has passed that is accepted as `svid` at `now`: its three
texts, the header that was read, the bundle that the source gave, and the
authority that the bundle has under the header's key ID. -/
structure Accepted (token : String) (source : BundleSource JwtBundle) (expected : List String)
    (now : Int) (svid : JwtSvid) (header claims signature : List Char) (read : JwtHeader)
    (bundle : JwtBundle) (keyId : String) (authority : JwtAuthority) : Prop where
  splits : Splits token header claims signature
  carries : Carries token header claims read svid
  given : source svid.spiffeId.trustDomain = .ok (some bundle)
  named : read.keyId = some keyId
  stored : bundle.find? keyId = some authority
  signed : Signs (Utf8.encode authority.jwk) header claims signature svid.algorithm
  audience : ∃ texts, NamesAudience svid.claims texts ∧ ∀ text, text ∈ texts ↔ text ∈ expected
  notBefore : Begun svid.claims .notBefore now
  unexpired : clampTime (now - leeway) ≤ svid.expiry
  issuedAt : Begun svid.claims .issuedAt now

/-- A token that is accepted has passed every check. -/
theorem exists_accepted {token : String} {source : BundleSource JwtBundle} {expected : List String}
    {now : Int} {svid : JwtSvid} (h : parseAndValidate token source expected now = .ok svid) :
    ∃ header claims signature read bundle keyId authority,
      Accepted token source expected now svid header claims signature read bundle keyId
        authority := by
  unfold parseAndValidate at h
  simp only [ok_of_steps, ok_of_pure] at h
  obtain ⟨_, hdecode, authority, hfind, ⟨⟩, hverify, ⟨⟩, hvalidate, rfl⟩ := h
  obtain ⟨header, claims, signature, read, hsplit, hcarries⟩ := (decode_eq_ok_iff _ _).mp hdecode
  obtain ⟨bundle, keyId, hgiven, hnamed, hstored⟩ := (findAuthority_eq_ok_iff _ _ _ _).mp hfind
  obtain ⟨haud, hnbf, hexp, hiat⟩ := (validate_eq_ok_iff _ _ _).mp hvalidate
  obtain ⟨texts, htexts, hdistinct⟩ := hcarries.audience
  refine ⟨header, claims, signature, read, bundle, keyId, authority, ?_⟩
  exact ⟨hsplit, hcarries, hgiven, hcarries.keyId.symm.trans hnamed, hstored,
    (verifySignature_eq_ok_iff hsplit _ _).mp hverify,
    ⟨texts, htexts, distinct_eq_distinct_iff.mp (hdistinct.trans haud)⟩, hnbf, hexp, hiat⟩

/-- **Acceptance is sound, and misses nothing.** A token is accepted if and only
if it has passed every check. -/
theorem parseAndValidate_eq_ok_iff (token : String) (source : BundleSource JwtBundle)
    (expected : List String) (now : Int) (svid : JwtSvid) :
    parseAndValidate token source expected now = .ok svid ↔
      ∃ header claims signature read bundle keyId authority,
        Accepted token source expected now svid header claims signature read bundle keyId
          authority := by
  refine ⟨exists_accepted, ?_⟩
  rintro ⟨header, claims, signature, read, bundle, keyId, authority, h⟩
  obtain ⟨texts, htexts, hsame⟩ := h.audience
  obtain ⟨texts', htexts', hdistinct⟩ := h.carries.audience
  obtain rfl := htexts.unique htexts'
  have hdecode : decode token = .ok svid :=
    (decode_eq_ok_iff _ _).mpr ⟨_, _, _, _, h.splits, h.carries⟩
  have hfind : findAuthority source svid.spiffeId.trustDomain svid.keyId = .ok authority :=
    (findAuthority_eq_ok_iff _ _ _ _).mpr
      ⟨bundle, keyId, h.given, h.carries.keyId.trans h.named, h.stored⟩
  have hverify : verifySignature token svid.algorithm authority = .ok () :=
    (verifySignature_eq_ok_iff h.splits _ _).mpr h.signed
  have hvalidate : svid.validate expected now = .ok () := by
    have haud := hdistinct.symm.trans (distinct_eq_distinct_iff.mpr hsame)
    exact (validate_eq_ok_iff _ _ _).mpr ⟨haud, h.notBefore, h.unexpired, h.issuedAt⟩
  unfold parseAndValidate
  simp only [ok_of_steps, ok_of_pure]
  exact ⟨svid, hdecode, authority, hfind, (), hverify, (), hvalidate, rfl⟩

/-- A token signed on P-256. -/
def serviceToken : String :=
  "eyJhbGciOiJFUzI1NiIsInR5cCI6IkpXVCIsImtpZCI6ImtleS0xIn0." ++
    "eyJzdWIiOiJzcGlmZmU6Ly9leGFtcGxlLm9yZy9zZXJ2aWNlIiwiYXVkIjpbImF1ZGllbmNlIl0sImV4cCI6MTcwMD" ++
    "AwMDMwMCwiaWF0IjoxNzAwMDAwMDAwfQ." ++
    "hbpeEzF4EXuEPiRIutYq_uQUsF0xLeZtW_1Wur1941ONqNNgQNBfYjvwLyYXX46B_lFo2Ci-2waYZfruXRg_cw"

/-- The bundle with the key that it is signed with. -/
def serviceBundle : JwtBundle :=
  (JwtBundle.empty ⟨"example.org"⟩).insert ⟨"key-1", "\x7b\"crv\":\"P-256\",\"kty\":\"EC\"," ++
    "\"x\":\"6HxHcUjM06bhtSBnFz9FSSHT3HJHyL31Qy4bVWMtHdo\"," ++
    "\"y\":\"63fjix3lvc--1vdYQ0PMipV8BGfUUBWo41RtV59wUQc\"\x7d"⟩

theorem serviceToken_identity :
    (parseAndValidate serviceToken (fun _ => .ok (some serviceBundle)) ["audience"]
      1700000000).toOption.map (·.spiffeId) = some ⟨"spiffe://example.org/service", 20⟩ := by
  decide +kernel

/-- A token with everything is accepted, and so has passed every check. -/
theorem accepted_serviceToken :
    ∃ svid header claims signature read bundle keyId authority,
      svid.spiffeId = ⟨"spiffe://example.org/service", 20⟩ ∧
        Accepted serviceToken (fun _ => .ok (some serviceBundle)) ["audience"] 1700000000 svid
          header claims signature read bundle keyId authority := by
  obtain ⟨svid, haccepted, hid⟩ := Option.map_eq_some_iff.mp serviceToken_identity
  obtain ⟨header, claims, signature, read, bundle, keyId, authority, h⟩ :=
    (parseAndValidate_eq_ok_iff _ _ _ _ _).mp (ok_of_result.mp haccepted)
  exact ⟨svid, header, claims, signature, read, bundle, keyId, authority, hid, h⟩

end JwtSvid
end WorkloadIdentity
