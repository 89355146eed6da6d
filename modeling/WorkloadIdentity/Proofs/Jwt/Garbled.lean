/-
# Refusals of a garbled segment

A token is refused as garbled if one of its three texts is no base64url, or too
long, at the place where it is read as a segment (`JwtSvid.IsGarbled`). Header
and claims are always read so. Of the signature that holds for ES512 only, whose
reader takes it for a segment like the others. The readers of the other eight
algorithms have no such refusal: to them a signature that cannot be read is a
wrong one (`JwtSvid.RefusesSignature`). No other check of a token refuses it as
garbled, so there are just three ways to come to that refusal (`JwtSvid.Garbles`).

Key definitions: `JwtSvid.IsGarbled`, `JwtSvid.IsUsable`, `JwtSvid.Garbles`,
`JwtSvid.NeverGarbled`, `JwtSvid.RefusesSignature`.
Key theorems: `JwtSvid.verifySignature_refuses`, `JwtSvid.parseAndValidate_garbled_iff`,
`JwtSvid.signature_refusals`.
-/
import WorkloadIdentity.Proofs.Jwt.Segment
import WorkloadIdentity.Proofs.Jwt.Vouched

namespace WorkloadIdentity
namespace JwtSvid

/-- The text is no segment: no base64url, or too long. -/
def IsGarbled (s : List Char) : Prop := decodeSegment s = .error .invalidBase64

instance (s : List Char) : Decidable (IsGarbled s) := inferInstanceAs (Decidable (_ = _))

/-- Segments are refused for no other cause. -/
theorem isGarbled_or_ok (s : List Char) : IsGarbled s ∨ ∃ octets, decodeSegment s = .ok octets := by
  cases h : decodeSegment s with
  | error cause => exact .inl (h.trans (congrArg _ (error_of_decodeSegment h)))
  | ok octets => exact .inr ⟨octets, rfl⟩

/-! ### Checks that garble nothing -/

/-- The check refuses nothing as garbled. -/
def NeverGarbled {α : Type} (check : Except JwtError α) : Prop := check ≠ .error .invalidBase64

theorem NeverGarbled.ok {α : Type} (a : α) : NeverGarbled (.ok a) := fun h => by cases h

theorem NeverGarbled.error {α : Type} {e : JwtError} (h : e ≠ .invalidBase64) :
    NeverGarbled (.error e : Except JwtError α) := fun h' => h (Except.error.inj h')

theorem NeverGarbled.ite {α : Type} {p : Prop} [Decidable p] {x y : Except JwtError α}
    (hx : NeverGarbled x) (hy : NeverGarbled y) : NeverGarbled (if p then x else y) := by
  split
  · exact hx
  · exact hy

theorem NeverGarbled.steps {α β : Type} {first : Except JwtError α} {next : α → Except JwtError β}
    (hfirst : NeverGarbled first) (hnext : ∀ a, NeverGarbled (next a)) :
    NeverGarbled (first >>= next) := by
  intro h
  rcases error_of_steps.mp h with h | ⟨a, -, h⟩
  · exact hfirst h
  · exact hnext a h

theorem neverGarbled_checkType (type : Option String) : NeverGarbled (checkType type) := by
  cases type with
  | none => exact .ok ()
  | some type => exact .ite (.ok ()) (.error (by decide))

theorem neverGarbled_readAlgorithm (name : String) : NeverGarbled (readAlgorithm name) := by
  unfold readAlgorithm
  split
  · exact .ok _
  · exact .error (by simp)

theorem neverGarbled_readSubject (claims : Keyed Json) : NeverGarbled (readSubject claims) := by
  unfold readSubject
  split
  · refine .ite (.error (by decide)) ?_
    split
    · exact .ok _
    · exact .error (by simp)
  · exact .error (by decide)

theorem neverGarbled_date? (claims : Keyed Json) (claim : DateClaim) :
    NeverGarbled (date? claims claim) := by
  unfold date?
  split
  · exact .ok _
  · exact .ok _
  · exact .ok _
  · exact .ok _
  · exact .error (by simp)

theorem neverGarbled_readExpiry (claims : Keyed Json) : NeverGarbled (readExpiry claims) := by
  unfold readExpiry
  refine .steps (neverGarbled_date? claims .expiry) fun time => ?_
  cases time with
  | none => exact .error (by decide)
  | some t => exact .ite (.ok t) (.error (by decide))

theorem neverGarbled_audience? (claims : Keyed Json) : NeverGarbled (audience? claims) := by
  unfold audience?
  split
  · exact .ok _
  · exact .ok _
  · exact .ok _
  · refine .ite (.error (by decide)) ?_
    split
    · exact .ok _
    · exact .error (by decide)
  · exact .error (by decide)

theorem neverGarbled_ofParts (token : String) (header : JwtHeader) (claims : Keyed Json) :
    NeverGarbled (ofParts token header claims) := by
  unfold ofParts
  refine .steps (neverGarbled_checkType _) fun _ => ?_
  refine .steps (neverGarbled_readAlgorithm _) fun _ => ?_
  refine .steps (neverGarbled_readSubject _) fun _ => ?_
  refine .steps (neverGarbled_readExpiry _) fun _ => ?_
  exact .steps (neverGarbled_audience? _) fun _ => .ok _

theorem neverGarbled_findAuthority (source : BundleSource JwtBundle) (td : TrustDomain)
    (keyId : Option String) : NeverGarbled (findAuthority source td keyId) := by
  unfold findAuthority
  split
  · exact .error (by simp)
  · exact .error (by simp)
  · split
    · exact .error (by decide)
    · split
      · exact .ok _
      · exact .error (by simp)

theorem neverGarbled_checkBegun (claims : Keyed Json) (claim : DateClaim) (now : Int)
    {refusal : JwtError} (h : refusal ≠ .invalidBase64) :
    NeverGarbled (checkBegun claims claim now refusal) := by
  unfold checkBegun
  refine .steps (neverGarbled_date? claims claim) fun time => ?_
  cases time with
  | none => exact .ok ()
  | some t => exact .ite (.ok ()) (.error h)

theorem neverGarbled_validate (svid : JwtSvid) (expected : List String) (now : Int) :
    NeverGarbled (svid.validate expected now) := by
  unfold validate
  refine .steps (.ite (.ok ()) (.error (by simp))) fun _ => ?_
  refine .steps (neverGarbled_checkBegun _ _ _ (by decide)) fun _ => ?_
  refine .steps (.ite (.ok ()) (.error (by decide))) fun _ => ?_
  exact neverGarbled_checkBegun _ _ _ (by decide)

/-! ### Header and claims -/

theorem readHeader_garbled_iff (s : List Char) :
    readHeader s = .error .invalidBase64 ↔ IsGarbled s := by
  unfold readHeader
  rw [error_of_steps]
  constructor
  · rintro (h | ⟨octets, -, h⟩)
    · exact h
    · -- octets that are no header are refused for another cause
      split at h <;> cases h
  · exact .inl

theorem readClaims_garbled_iff (s : List Char) :
    readClaims s = .error .invalidBase64 ↔ IsGarbled s := by
  unfold readClaims
  rw [error_of_steps]
  constructor
  · rintro (h | ⟨octets, -, h⟩)
    · exact h
    · split at h <;> cases h
  · exact .inl

theorem decode_garbled_iff (token : String) :
    decode token = .error .invalidBase64 ↔
      ∃ header claims signature, Splits token header claims signature ∧
        (IsGarbled header ∨ ∃ read, readHeader header = .ok read ∧ IsGarbled claims) := by
  constructor
  · intro h
    unfold decode at h
    split at h
    · rename_i header claims signature hsplit
      refine ⟨header, claims, signature, (splitOn_eq_iff _ _ _ _).mp hsplit, ?_⟩
      rcases error_of_steps.mp h with h | ⟨read, hread, h⟩
      · exact .inl ((readHeader_garbled_iff header).mp h)
      rcases error_of_steps.mp h with h | ⟨members, -, h⟩
      · exact .inr ⟨read, hread, (readClaims_garbled_iff claims).mp h⟩
      · exact absurd h (neverGarbled_ofParts token read members)
    · cases h
  · rintro ⟨header, claims, signature, hsplit, h⟩
    unfold decode
    rw [(splitOn_eq_iff _ _ _ _).mpr hsplit]
    rcases h with h | ⟨read, hread, h⟩
    · exact error_of_steps.mpr (.inl ((readHeader_garbled_iff header).mpr h))
    · refine error_of_steps.mpr (.inr ⟨read, hread, ?_⟩)
      exact error_of_steps.mpr (.inl ((readClaims_garbled_iff claims).mpr h))

/-! ### The signature -/

/-- The reader of keys that goes with an algorithm makes a key of a stored one. -/
inductive IsUsable (jwk : Bytes) : JwtAlgorithm → Prop where
  | p521 {value : Json} {key : EcKey} :
      Json.parse jwk = some value → p521Key? value = some key → IsUsable jwk .es512
  | registered {algorithm : JwtAlgorithm} {value : Json} {key : JwtKey} : algorithm ≠ .es512 →
      Json.parse jwk = some value → JwtKey.ofJson? value = some key → IsUsable jwk algorithm

theorem neverGarbled_verifyRegistered (algorithm : JwtAlgorithm) (jwk : Bytes)
    (header claims signature : List Char) :
    NeverGarbled (verifyRegistered algorithm jwk header claims signature) := by
  unfold verifyRegistered
  split
  · exact .error (by decide)
  · split
    · exact .ite (.ok ()) (.error (by decide))
    · exact .error (by decide)

theorem verifyP521_garbled_iff (jwk : Bytes) (header claims signature : List Char) :
    verifyP521 jwk header claims signature = .error .invalidBase64 ↔
      IsUsable jwk .es512 ∧ IsGarbled signature := by
  unfold verifyP521
  constructor
  · intro h
    split at h
    · cases h
    rename_i value hjwk
    split at h
    · cases h
    rename_i key hkey
    rcases error_of_steps.mp h with h | ⟨octets, -, h⟩
    · exact ⟨.p521 hjwk hkey, h⟩
    · exact absurd h (NeverGarbled.ite (.ok ()) (.error (by decide)))
  · rintro ⟨husable, hgarbled⟩
    cases husable with
    | p521 hjwk hkey =>
      simp only [hjwk, hkey]
      exact error_of_steps.mpr (.inl hgarbled)
    | registered hne => exact absurd rfl hne

theorem verifySignature_garbled_iff {token : String} {header claims signature : List Char}
    (hsplit : Splits token header claims signature) (algorithm : JwtAlgorithm)
    (authority : JwtAuthority) :
    verifySignature token algorithm authority = .error .invalidBase64 ↔
      algorithm = .es512 ∧ IsUsable (Utf8.encode authority.jwk) .es512 ∧ IsGarbled signature := by
  unfold verifySignature
  rw [(splitOn_eq_iff _ _ _ _).mpr hsplit]
  by_cases halg : algorithm = .es512
  · simp only [halg, if_true, true_and]
    exact verifyP521_garbled_iff _ _ _ _
  · simp only [halg, if_false, false_and, iff_false]
    exact neverGarbled_verifyRegistered _ _ _ _ _

/-- What the check of a signature comes to under a key that can be used. -/
structure RefusesSignature (signature : List Char) (algorithm : JwtAlgorithm)
    (check : Except JwtError Unit) : Prop where
  /-- A signature that is not accepted is wrong. -/
  wrong : algorithm ≠ .es512 ∨ ¬ IsGarbled signature →
    check = .ok () ∨ check = .error .invalidSignature
  /-- For ES512 it has to be a segment as well. -/
  garbled : algorithm = .es512 → IsGarbled signature → check = .error .invalidBase64

theorem verifySignature_refuses {token : String} {header claims signature : List Char}
    (hsplit : Splits token header claims signature) {algorithm : JwtAlgorithm}
    {authority : JwtAuthority} (husable : IsUsable (Utf8.encode authority.jwk) algorithm) :
    RefusesSignature signature algorithm (verifySignature token algorithm authority) := by
  refine ⟨fun h => ?_, fun halg hgarbled => ?_⟩
  · unfold verifySignature
    rw [(splitOn_eq_iff _ _ _ _).mpr hsplit]
    cases husable with
    | p521 hjwk hkey =>
      obtain ⟨octets, hoctets⟩ := (isGarbled_or_ok signature).resolve_left
        (h.resolve_left (fun hne => hne rfl))
      simp only [if_true, verifyP521, hjwk, hkey, hoctets, bind, Except.bind]
      split
      · exact .inl rfl
      · exact .inr rfl
    | registered hne hjwk hkey =>
      simp only [hne, if_false, verifyRegistered, hjwk, Option.bind_some, hkey]
      split
      · split
        · exact .inl rfl
        · exact .inr rfl
      · exact .inr rfl
  · subst halg
    exact (verifySignature_garbled_iff hsplit _ _).mpr ⟨rfl, husable, hgarbled⟩

/-! ### All ways to be garbled -/

/-- A text of the token that is read as a segment is none: the header, the claims of a
token whose header is read, or the signature of one that is decoded, names ES512 and has a
key that can be used. -/
inductive Garbles (token : String) (source : BundleSource JwtBundle) : Prop where
  | header {header claims signature : List Char} : Splits token header claims signature →
      IsGarbled header → Garbles token source
  | claims {header claims signature : List Char} {read : JwtHeader} :
      Splits token header claims signature → readHeader header = .ok read → IsGarbled claims →
      Garbles token source
  | signature {header claims signature : List Char} {svid : JwtSvid} {authority : JwtAuthority} :
      Splits token header claims signature → decode token = .ok svid →
      IsKeyOf source svid authority → svid.algorithm = .es512 →
      IsUsable (Utf8.encode authority.jwk) .es512 → IsGarbled signature → Garbles token source

theorem parseAndValidate_garbled_iff (token : String) (source : BundleSource JwtBundle)
    (expected : List String) (now : Int) :
    parseAndValidate token source expected now = .error .invalidBase64 ↔ Garbles token source := by
  unfold parseAndValidate
  constructor
  · intro h
    rcases error_of_steps.mp h with h | ⟨svid, hdecode, h⟩
    · obtain ⟨header, claims, signature, hsplit, h⟩ := (decode_garbled_iff token).mp h
      rcases h with h | ⟨read, hread, h⟩
      · exact .header hsplit h
      · exact .claims hsplit hread h
    rcases error_of_steps.mp h with h | ⟨authority, hfind, h⟩
    · exact absurd h (neverGarbled_findAuthority _ _ _)
    rcases error_of_steps.mp h with h | ⟨-, -, h⟩
    · obtain ⟨header, claims, signature, -, hsplit, -⟩ := (decode_eq_ok_iff _ _).mp hdecode
      obtain ⟨halg, husable, hgarbled⟩ := (verifySignature_garbled_iff hsplit _ _).mp h
      exact .signature hsplit hdecode ((findAuthority_eq_ok_iff _ _ _ _).mp hfind) halg husable
        hgarbled
    · exact absurd h (NeverGarbled.steps (neverGarbled_validate _ _ _) fun _ => .ok _)
  · intro h
    cases h with
    | header hsplit h =>
      exact error_of_steps.mpr (.inl ((decode_garbled_iff token).mpr ⟨_, _, _, hsplit, .inl h⟩))
    | claims hsplit hread h =>
      exact error_of_steps.mpr
        (.inl ((decode_garbled_iff token).mpr ⟨_, _, _, hsplit, .inr ⟨_, hread, h⟩⟩))
    | signature hsplit hdecode hkey halg husable hgarbled =>
      have hverify := (verifySignature_garbled_iff hsplit _ _).mpr ⟨halg, husable, hgarbled⟩
      refine error_of_steps.mpr (.inr ⟨_, hdecode, ?_⟩)
      refine error_of_steps.mpr (.inr ⟨_, (findAuthority_eq_ok_iff _ _ _ _).mpr hkey, ?_⟩)
      exact error_of_steps.mpr (.inl hverify)

/-- **A signature that is not accepted is wrong, but for ES512.** Under a key that can be
used for its algorithm, a token's signature passes or is refused as wrong, whatever text it
is, if the algorithm is another than ES512. If it is ES512, that holds of the texts that are
segments, and any other is refused as garbled. Apart from that a token is refused as garbled
for its header or its claims only. -/
theorem signature_refusals (token : String) (source : BundleSource JwtBundle) :
    (∀ header claims signature algorithm authority, Splits token header claims signature →
      IsUsable (Utf8.encode authority.jwk) algorithm →
      RefusesSignature signature algorithm (verifySignature token algorithm authority)) ∧
    ∀ expected now, parseAndValidate token source expected now = .error .invalidBase64 ↔
      Garbles token source :=
  ⟨fun _ _ _ _ _ hsplit husable => verifySignature_refuses hsplit husable,
    parseAndValidate_garbled_iff token source⟩

/-- Header and claims of a token under ES512. -/
def longHeader : String := "eyJhbGciOiJFUzUxMiIsInR5cCI6IkpXVCIsImtpZCI6ImtleS0xIn0"

def longClaims : String :=
  "eyJzdWIiOiJzcGlmZmU6Ly9leGFtcGxlLm9yZy9zZXJ2aWNlIiwiYXVkIjpbImF1ZGllbmNlIl0sImV4cCI6MTcw" ++
    "MDAwMDMwMCwiaWF0IjoxNzAwMDAwMDAwfQ"

/-- The token with a text as its signature. -/
def longToken (signature : String) : String := longHeader ++ "." ++ longClaims ++ "." ++ signature

/-- A key on P-521. -/
def longKey : JwtAuthority :=
  ⟨"key-1", "\x7b\"crv\":\"P-521\",\"kid\":\"key-1\",\"kty\":\"EC\"," ++
    "\"x\":\"AE4E9XlSot9TWreFcfTfRZCOD9uA3J_aeW0YMiSLNr-q75i7Jkw_lL6avQ-F6b-yAxIdFBlU5L2nUGQu9pm_EI_k\"," ++
    "\"y\":\"AB_ymwbaeApsQc4o7jD7J2YaoJsxqUWnkypAEBjZB-FJug5jLmHkGc8rCPrd37IM6o4V0pkdoqniohBl3Ntua4rK\"\x7d"⟩

/-- A bundle that holds the key. -/
def longBundle : JwtBundle := (JwtBundle.empty ⟨"example.org"⟩).insert longKey

theorem longToken_splits (signature : String) (h : '.' ∉ signature.toList) :
    Splits (longToken signature) longHeader.toList longClaims.toList signature.toList where
  text := by simp [longToken]
  header := by decide +kernel
  claims := by decide +kernel
  signature := h

theorem longKey_isUsable : IsUsable (Utf8.encode longKey.jwk) .es512 := by
  have hread : ((Json.parse (Utf8.encode longKey.jwk)).bind p521Key?).isSome = true := by
    decide +kernel
  obtain ⟨key, hkey⟩ := Option.isSome_iff_exists.mp hread
  obtain ⟨value, hjwk, hkey⟩ := Option.bind_eq_some_iff.mp hkey
  exact .p521 hjwk hkey

/-- One octet is a wrong signature under ES512. -/
theorem signature_refusals_short :
    let check := verifySignature (longToken "AA") .es512 longKey
    check = .ok () ∨ check = .error .invalidSignature := by
  have hsplit := longToken_splits "AA" (by decide)
  have hsegment : ¬ IsGarbled "AA".toList := by decide +kernel
  exact ((signature_refusals _ fun _ => .ok none).1 _ _ _ _ _ hsplit longKey_isUsable).wrong
    (.inr hsegment)

/-- A text that is no segment is not refused as a wrong signature under ES512: the token
is refused as if its header or its claims were garbled, which are not. -/
theorem signature_refusals_garbled :
    ∃ svid, decode (longToken "!") = .ok svid ∧ svid.algorithm = .es512 ∧
      IsKeyOf (fun _ => .ok (some longBundle)) svid longKey ∧
      IsUsable (Utf8.encode longKey.jwk) .es512 ∧
      verifySignature (longToken "!") .es512 longKey = .error .invalidBase64 ∧
      parseAndValidate (longToken "!") (fun _ => .ok (some longBundle)) ["audience"] 1700000000 =
        .error .invalidBase64 := by
  have hsplit := longToken_splits "!" (by decide)
  have hheader : readHeader longHeader.toList = .ok ⟨some "key-1", some "JWT", "ES512"⟩ :=
    ok_of_result.mp (by decide +kernel)
  have hread : (readClaims longClaims.toList).toOption.bind (fun members =>
      (ofParts (longToken "!") ⟨some "key-1", some "JWT", "ES512"⟩ members).toOption.map
        fun svid => (svid.keyId, svid.algorithm)) = some (some "key-1", .es512) := by
    decide +kernel
  obtain ⟨members, hclaims, hread⟩ := Option.bind_eq_some_iff.mp hread
  obtain ⟨svid, hparts, hfields⟩ := Option.map_eq_some_iff.mp hread
  obtain ⟨hkeyId, halg⟩ := Prod.mk.inj hfields
  have hdecode : decode (longToken "!") = .ok svid := by
    rw [decode_of_splits hsplit hheader (ok_of_result.mp hclaims)]
    exact ok_of_result.mp hparts
  have hkey : IsKeyOf (fun _ => .ok (some longBundle)) svid longKey :=
    ⟨longBundle, "key-1", rfl, hkeyId, by decide +kernel⟩
  have hgarbled : IsGarbled "!".toList := by decide +kernel
  exact ⟨svid, hdecode, halg, hkey, longKey_isUsable,
    (verifySignature_garbled_iff hsplit _ _).mpr ⟨rfl, longKey_isUsable, hgarbled⟩,
    (parseAndValidate_garbled_iff _ _ _ _).mpr
      (.signature hsplit hdecode hkey halg longKey_isUsable hgarbled)⟩

end JwtSvid
end WorkloadIdentity
