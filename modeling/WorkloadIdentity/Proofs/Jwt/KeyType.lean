/-
# Algorithms and the types of keys

A token's header picks the algorithm, and whoever sends the token writes the
header. What the sender cannot pick is the type of the key that the signature is
verified with: a stored key says its own type (`JwtKey.HasType`), and each
algorithm takes keys of one type only (`JwtAlgorithm.keyType`). ES512 goes by a
reader of its own, which asks for the curve as well, and wants both written as
plain texts. So no key of an accepted token is of another type than its
algorithm's (`JwtSvid.Fits`), and secrets and octet pairs, which are of no
algorithm's type, verify nothing.

Key definitions: `JwtKey.HasType`, `JwtAlgorithm.keyType`, `JwtSvid.Fits`.
Key theorems: `JwtKey.hasType_of_ofJson?`, `JwtSvid.Signs.fits`,
`JwtSvid.no_algorithm_confusion`.
-/
import WorkloadIdentity.Proofs.Jwt.Vouched

namespace WorkloadIdentity

/-! ### Types of keys -/

/-- The key says the type, as a text or as an object with one member of that
name, which is null. -/
def JwtKey.HasType (key : Json) (type : String) : Prop :=
  key.member? "kty" = some (.string type) ∨ key.member? "kty" = some (.object [(type, .null)])

/-- The type of a key of each family. -/
def JwtKey.type : JwtKey → String
  | ec _ _ => "EC"
  | rsa _ _ => "RSA"
  | secret _ => "oct"
  | octetPair _ => "OKP"

/-- The type of the keys that an algorithm takes. -/
def JwtAlgorithm.keyType : JwtAlgorithm → String
  | rs256 | rs384 | rs512 | ps256 | ps384 | ps512 => "RSA"
  | es256 | es384 | es512 => "EC"

theorem JwtAlgorithm.keyType_eq (algorithm : JwtAlgorithm) :
    algorithm.keyType = "RSA" ∨ algorithm.keyType = "EC" := by
  cases algorithm <;> decide

theorem JwtAlgorithm.name_mem (algorithm : JwtAlgorithm) :
    algorithm.name ∈ ["RS256", "RS384", "RS512", "ES256", "ES384", "ES512", "PS256", "PS384",
      "PS512"] := by
  cases algorithm <;> decide

namespace JwtKey

/-- A key says one type only. -/
theorem HasType.unique {value : Json} {type type' : String} (h : HasType value type)
    (h' : HasType value type') : type = type' := by
  unfold HasType at h'
  rcases h with h | h <;> simpa [h] using h'

theorem hasType_of_names {value : Json} {type : String} (h : names value "kty" [type] = true) :
    HasType value type := by
  unfold names at h
  unfold HasType
  cases hmember : value.member? "kty" with
  | none =>
    rw [hmember] at h
    cases h
  | some member =>
    rw [hmember, Option.any_some] at h
    unfold isOneOf at h
    split at h <;> simp_all

theorem hasType_of_family? {value : Json} {key : JwtKey} (h : family? value = some key) :
    HasType value key.type := by
  unfold family? at h
  split at h
  · rename_i hec _ _
    obtain rfl := Option.some.inj h
    exact hasType_of_names (Bool.and_eq_true_iff.mp hec).1
  split at h
  · rename_i hrsa _ _
    obtain rfl := Option.some.inj h
    exact hasType_of_names hrsa
  split at h
  · rename_i hoct _
    obtain rfl := Option.some.inj h
    exact hasType_of_names hoct
  split at h
  · rename_i hokp _
    obtain rfl := Option.some.inj h
    exact hasType_of_names (Bool.and_eq_true_iff.mp hokp).1
  · cases h

/-- A key that is read is of the type that it says. -/
theorem hasType_of_ofJson? {value : Json} {key : JwtKey} (h : ofJson? value = some key) :
    HasType value key.type := by
  unfold ofJson? at h
  split at h
  · split at h
    · exact hasType_of_family? h
    · cases h
  · cases h

/-- A key verifies nothing under an algorithm that takes keys of another
type. -/
theorem type_of_verifies {key : JwtKey} {algorithm : JwtAlgorithm} {message signature : Bytes}
    (h : key.verifies algorithm.scheme message signature = true) :
    key.type = algorithm.keyType := by
  cases algorithm <;> cases key <;> first | rfl | cases h

end JwtKey

namespace JwtSvid

/-- The key's type, and for ES512 its curve, is the one that goes with an
algorithm's name. -/
inductive Fits (key : Json) : String → Prop where
  | rsa {name : String} : name ∈ ["RS256", "RS384", "RS512", "PS256", "PS384", "PS512"] →
      JwtKey.HasType key "RSA" → Fits key name
  | ec {name : String} : name ∈ ["ES256", "ES384"] → JwtKey.HasType key "EC" → Fits key name
  | p521 : key.member? "kty" = some (.string "EC") → key.member? "crv" = some (.string "P-521") →
      Fits key "ES512"

theorem member?_of_memberString? {value : Json} {name text : String}
    (h : value.memberString? name = some text) : value.member? name = some (.string text) := by
  obtain ⟨member, hmember, htext⟩ := Option.bind_eq_some_iff.mp h
  rw [hmember]
  cases member <;> simp_all [Json.string?]

/-- A key on P-521 says its type and its curve as texts. -/
theorem members_of_p521Key? {value : Json} {key : EcKey} (h : p521Key? value = some key) :
    value.member? "kty" = some (.string "EC") ∧ value.member? "crv" = some (.string "P-521") := by
  obtain ⟨coordinates, hcoordinates, -⟩ := Option.bind_eq_some_iff.mp h
  unfold p521Coordinates? at hcoordinates
  split at hcoordinates
  · rename_i hboth
    exact ⟨member?_of_memberString? hboth.1, member?_of_memberString? hboth.2⟩
  · cases hcoordinates

/-- What signs under an algorithm is a key that fits it. -/
theorem Signs.fits {jwk : Bytes} {header claims signature : List Char} {algorithm : JwtAlgorithm}
    (h : Signs jwk header claims signature algorithm) :
    ∃ value, Json.parse jwk = some value ∧ Fits value algorithm.name ∧
      JwtKey.HasType value algorithm.keyType := by
  cases h with
  | p521 hjwk hkey =>
    obtain ⟨htype, hcurve⟩ := members_of_p521Key? hkey
    exact ⟨_, hjwk, .p521 htype hcurve, .inl htype⟩
  | registered hne hjwk hkey _ _ hverifies =>
    have htype := JwtKey.hasType_of_ofJson? hkey
    rw [JwtKey.type_of_verifies hverifies] at htype
    refine ⟨_, hjwk, ?_, htype⟩
    cases algorithm with
    | rs256 | rs384 | rs512 | ps256 | ps384 | ps512 =>
      exact .rsa (by simp [JwtAlgorithm.name]) htype
    | es256 | es384 => exact .ec (by simp [JwtAlgorithm.name]) htype
    | es512 => exact absurd rfl hne

/-! ### Headers and stored keys -/

/-- A source has one key for a token. -/
theorem IsKeyOf.unique {source : BundleSource JwtBundle} {svid : JwtSvid}
    {authority authority' : JwtAuthority} (h : IsKeyOf source svid authority)
    (h' : IsKeyOf source svid authority') : authority = authority' := by
  have hfind := (findAuthority_eq_ok_iff _ _ _ _).mpr h
  exact Except.ok.inj (hfind.symm.trans ((findAuthority_eq_ok_iff _ _ _ _).mpr h'))

/-- A token has one header. -/
theorem header_unique {token : String} {header claims signature header' claims' signature' :
    List Char} {octets octets' : Bytes} {read read' : JwtHeader}
    (hsplit : Splits token header claims signature) (hoctets : decodeSegment header = .ok octets)
    (hread : JwtHeader.read octets = some read)
    (hsplit' : Splits token header' claims' signature')
    (hoctets' : decodeSegment header' = .ok octets')
    (hread' : JwtHeader.read octets' = some read') : read = read' := by
  have hparts := (splitOn_eq_iff _ _ _ _).mpr hsplit
  rw [(splitOn_eq_iff _ _ _ _).mpr hsplit'] at hparts
  obtain ⟨rfl, -⟩ := List.cons.inj hparts
  obtain rfl := Except.ok.inj (hoctets.symm.trans hoctets')
  exact Option.some.inj (hread.symm.trans hread')

/-- **No algorithm is verified with another one's key.** If a token is accepted,
the key that was stored for it is of the type that goes with the algorithm its
header names. A token whose stored key is a secret or an octet pair is refused,
for every audience and at every time, whatever else the key says and whatever
the header names. And a token whose header names none of the nine algorithms is
refused alike by every source, whatever keys it has. -/
theorem no_algorithm_confusion :
    (∀ token source expected now svid, parseAndValidate token source expected now = .ok svid →
      ∃ header claims signature read bundle keyId authority key,
        Accepted token source expected now svid header claims signature read bundle keyId
          authority ∧
        Json.parse (Utf8.encode authority.jwk) = some key ∧ Fits key read.algorithm) ∧
    (∀ token source svid authority key, decode token = .ok svid →
      IsKeyOf source svid authority → Json.parse (Utf8.encode authority.jwk) = some key →
      JwtKey.HasType key "oct" ∨ JwtKey.HasType key "OKP" →
      ∃ e, ∀ expected now, parseAndValidate token source expected now = .error e) ∧
    (∀ token header claims signature octets read, Splits token header claims signature →
      decodeSegment header = .ok octets → JwtHeader.read octets = some read →
      read.algorithm ∉ ["RS256", "RS384", "RS512", "ES256", "ES384", "ES512", "PS256", "PS384",
        "PS512"] →
      ∃ e, ∀ source expected now, parseAndValidate token source expected now = .error e) := by
  refine ⟨?_, ?_, ?_⟩
  · intro token source expected now svid h
    obtain ⟨header, claims, signature, read, bundle, keyId, authority, haccepted⟩ :=
      exists_accepted h
    obtain ⟨key, hkey, hfits, -⟩ := haccepted.signed.fits
    rw [haccepted.carries.algorithm] at hfits
    exact ⟨header, claims, signature, read, bundle, keyId, authority, key, haccepted, hkey, hfits⟩
  · intro token source svid authority key hdecode hstored hkey htype
    refine exists_refusal_of_not_vouched hdecode ?_
    rintro ⟨authority', header, claims, signature, hstored', -, hsigns⟩
    obtain rfl := hstored.unique hstored'
    obtain ⟨key', hkey', -, htype'⟩ := hsigns.fits
    obtain rfl := Option.some.inj (hkey.symm.trans hkey')
    -- the type that every algorithm takes is one of two others
    rcases svid.algorithm.keyType_eq with htakes | htakes <;> rw [htakes] at htype' <;>
      rcases htype with htype | htype <;> exact absurd (htype.unique htype') (by decide)
  · intro token header claims signature octets read hsplit hoctets hread hname
    cases hdecode : decode token with
    | error e => exact ⟨e, fun source expected now =>
        (readings_of_undecoded hdecode source expected now).2⟩
    | ok svid =>
      obtain ⟨header', claims', signature', read', hsplit', hcarries⟩ :=
        (decode_eq_ok_iff _ _).mp hdecode
      obtain ⟨octets', hoctets', hread'⟩ := hcarries.header
      obtain rfl := header_unique hsplit hoctets hread hsplit' hoctets' hread'
      rw [← hcarries.algorithm] at hname
      exact absurd (JwtAlgorithm.name_mem _) hname

/-- A secret under the key ID of the token. -/
def secretKey : JwtAuthority := ⟨"key-1", "\x7b\"k\":\"c2VjcmV0\",\"kty\":\"oct\"\x7d"⟩

/-- A bundle that holds the secret. -/
def secretBundle : JwtBundle := (JwtBundle.empty ⟨"example.org"⟩).insert secretKey

/-- A token whose header says that it is not signed. -/
def unsignedToken : String := "eyJhbGciOiJub25lIn0.e30."

/-- A token on P-256 is accepted by a key of its type and refused by a secret,
and one that names no algorithm is refused by every source. -/
theorem no_algorithm_confusion_serviceToken :
    (∃ svid key, Fits key svid.algorithm.name ∧
      parseAndValidate serviceToken (fun _ => .ok (some serviceBundle)) ["audience"] 1700000000 =
        .ok svid) ∧
    (∃ e, ∀ expected now,
      parseAndValidate serviceToken (fun _ => .ok (some secretBundle)) expected now = .error e) ∧
    ∃ e, ∀ source expected now,
      parseAndValidate unsignedToken source expected now = .error e := by
  obtain ⟨hfits, hsecret, hunsigned⟩ := no_algorithm_confusion
  obtain ⟨svid, haccepted, -⟩ := Option.map_eq_some_iff.mp serviceToken_identity
  obtain ⟨_, _, _, read, bundle, keyId, _, key, h, -, hkey⟩ :=
    hfits _ _ _ _ _ (ok_of_result.mp haccepted)
  refine ⟨⟨svid, key, h.carries.algorithm ▸ hkey, ok_of_result.mp haccepted⟩, ?_, ?_⟩
  · have hdecode : decode serviceToken = .ok svid :=
      (decode_eq_ok_iff _ _).mpr ⟨_, _, _, _, h.splits, h.carries⟩
    -- the accepting bundle holds one key, so its ID is the token's
    have hkeyId : "key-1" = keyId := by
      by_contra hne
      obtain rfl : serviceBundle = bundle := Option.some.inj (Except.ok.inj h.given)
      have hstored := h.stored
      unfold serviceBundle JwtBundle.insert JwtBundle.find? at hstored
      rw [Keyed.find?_insert, if_neg hne] at hstored
      cases hstored
    have hstored : IsKeyOf (fun _ => .ok (some secretBundle)) svid secretKey :=
      ⟨secretBundle, "key-1", rfl, hkeyId ▸ h.carries.keyId.trans h.named, by decide⟩
    have hkey : (Json.parse (Utf8.encode secretKey.jwk)).bind (·.memberString? "kty") =
        some "oct" := by
      decide +kernel
    obtain ⟨key, hkey, htype⟩ := Option.bind_eq_some_iff.mp hkey
    exact hsecret _ _ svid _ key hdecode hstored hkey
      (.inl (.inl (member?_of_memberString? htype)))
  · have hsplit : Splits unsignedToken "eyJhbGciOiJub25lIn0".toList "e30".toList [] :=
      (splitOn_eq_iff _ _ _ _).mp (by decide +kernel)
    exact hunsigned _ _ _ _ (Utf8.encode "\x7b\"alg\":\"none\"\x7d") ⟨none, none, "none"⟩ hsplit
      (ok_of_result.mp (by decide +kernel)) (by decide +kernel) (by decide)

end JwtSvid
end WorkloadIdentity
