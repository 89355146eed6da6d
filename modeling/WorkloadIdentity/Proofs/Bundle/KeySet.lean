/-
# A set of keys is its keys one after the other

Octets are a set of keys if and only if they are an object whose member "keys" is an array of
objects that each name a key ID (`JwtBundle.parse_folds`). The set is then made of the keys'
own texts, each read as a single key and added in order to no key, so that under a key ID
there is the last key that names it, and no key comes to be stored under another name.

Key definitions: `JwtBundle.NamesKey`, `JwtBundle.HasKeys`, `JwtBundle.lastKey`,
`JwtBundle.keyTexts?`, `JwtBundle.Filed`.
Key theorems: `JwtBundle.find?_insertAll`, `JwtBundle.exists_keyTexts`,
`JwtBundle.parse_folds`.
-/
import WorkloadIdentity.Bundle.Jwt
import WorkloadIdentity.Jwt.Header
import WorkloadIdentity.Proofs.Json.Scanned
import WorkloadIdentity.Proofs.Keyed
import WorkloadIdentity.Proofs.Outcome

namespace WorkloadIdentity

/-! ### Keys -/

theorem Json.string?_eq_some_iff {value : Json} {s : String} :
    value.string? = some s ↔ value = .string s := by
  cases value <;> simp [string?]

namespace JwtAuthority

theorem ofJson_eq_ok_iff {key : Json} {a : JwtAuthority} :
    ofJson key = .ok a ↔ key.memberString? "kid" = some a.keyId ∧ key.text = a.jwk := by
  obtain ⟨keyId, jwk⟩ := a
  unfold ofJson
  cases key.memberString? "kid" with
  | none => simp
  | some keyId' => simp

theorem parse_eq_ok_iff {octets : Bytes} {a : JwtAuthority} :
    parse octets = .ok a ↔ ∃ key, Json.parse octets = some key ∧ ofJson key = .ok a := by
  unfold parse
  cases Json.parse octets with
  | none => simp
  | some key => simp

end JwtAuthority

namespace JwtBundle

/-- The value is an object that names the key ID. -/
def NamesKey (key : Json) (keyId : String) : Prop :=
  ∃ members, key = .object members ∧ Keyed.find? "kid" members = some (.string keyId)

theorem namesKey_iff {key : Json} {keyId : String} :
    NamesKey key keyId ↔ key.memberString? "kid" = some keyId := by
  constructor
  · rintro ⟨members, rfl, hkid⟩
    exact Option.bind_eq_some_iff.mpr ⟨_, hkid, rfl⟩
  · intro h
    obtain ⟨member, hmember, htext⟩ := Option.bind_eq_some_iff.mp h
    rw [Json.string?_eq_some_iff.mp htext] at hmember
    cases key with
    | object members => exact ⟨members, rfl, hmember⟩
    | _ => cases hmember

/-- The last key of an array with a key ID. -/
def lastKey (keyId : String) (keys : List Json) : Option Json :=
  (keys.filter fun key => key.memberString? "kid" = some keyId).getLast?

/-- The texts of the keys of a set, each as it stands there. -/
def keyTexts? (octets : Bytes) : Option (List Bytes) := do
  let members ← Json.splitMembers octets
  let (_, keys) ← (members.filter fun member => JwtHeader.readText member.1 = some "keys").getLast?
  Json.splitItems keys

/-! ### One after the other -/

theorem find?_insert (bundle : JwtBundle) (a : JwtAuthority) (keyId : String) :
    (bundle.insert a).find? keyId = if a.keyId = keyId then some a else bundle.find? keyId :=
  Keyed.find?_insert _ _ _ _

/-- Adding the keys of an array is adding what each of them is. -/
theorem insertAll_eq_ok_iff : ∀ {keys : List Json} {bundle result : JwtBundle},
    insertAll bundle keys = .ok result ↔
      ∃ authorities, List.Forall₂ (fun key a => JwtAuthority.ofJson key = .ok a) keys authorities ∧
        result = authorities.foldl insert bundle
  | [], bundle, result => by
    constructor
    · intro h
      exact ⟨[], .nil, (Except.ok.inj h).symm⟩
    · rintro ⟨authorities, hnone, rfl⟩
      cases hnone
      rfl
  | key :: keys, bundle, result => by
    rw [insertAll, ok_of_steps]
    constructor
    · rintro ⟨a, ha, h⟩
      obtain ⟨authorities, hall, rfl⟩ := insertAll_eq_ok_iff.mp h
      exact ⟨a :: authorities, .cons ha hall, rfl⟩
    · rintro ⟨authorities, hall, rfl⟩
      cases hall with
      | cons ha hall => exact ⟨_, ha, insertAll_eq_ok_iff.mpr ⟨_, hall, rfl⟩⟩

/-- **The last key with a key ID is found.** -/
theorem find?_insertAll (keyId : String) : ∀ {keys : List Json} {bundle result : JwtBundle},
    insertAll bundle keys = .ok result → result.find? keyId =
      ((lastKey keyId keys).bind fun key => (JwtAuthority.ofJson key).toOption).or
        (bundle.find? keyId)
  | [], bundle, result, h => by
    obtain rfl := Except.ok.inj h
    rfl
  | key :: keys, bundle, result, h => by
    rw [insertAll, ok_of_steps] at h
    obtain ⟨a, ha, h⟩ := h
    have hkeyId := (JwtAuthority.ofJson_eq_ok_iff.mp ha).1
    rw [find?_insertAll keyId h, find?_insert]
    unfold lastKey
    rw [List.filter_cons, hkeyId]
    by_cases hk : a.keyId = keyId
    · simp only [hk, decide_true, if_true, getLast?_cons_eq_or]
      cases hlast : (keys.filter fun key => key.memberString? "kid" = some keyId).getLast? with
      | none => simp [ok_of_result.mpr ha]
      | some later =>
        have hlater := List.mem_filter.mp (List.mem_of_getLast? hlast)
        have hok : JwtAuthority.ofJson later = .ok ⟨keyId, later.text⟩ :=
          JwtAuthority.ofJson_eq_ok_iff.mpr ⟨of_decide_eq_true hlater.2, rfl⟩
        simp [ok_of_result.mpr hok]
    · have hno : ¬ some a.keyId = some keyId := fun h => hk (Option.some.inj h)
      simp only [hk, hno, decide_false, Bool.false_eq_true, if_false]

theorem exists_insertAll {keys : List Json} {bundle : JwtBundle} :
    (∃ result, insertAll bundle keys = .ok result) ↔
      ∀ key ∈ keys, ∃ keyId, NamesKey key keyId := by
  constructor
  · rintro ⟨result, h⟩ key hkey
    obtain ⟨authorities, hall, -⟩ := insertAll_eq_ok_iff.mp h
    obtain ⟨a, ha⟩ := exists_ok_of_each.mp ⟨authorities, ok_of_each.mpr hall⟩ key hkey
    exact ⟨a.keyId, namesKey_iff.mpr (JwtAuthority.ofJson_eq_ok_iff.mp ha).1⟩
  · intro h
    have heach : ∀ key ∈ keys, ∃ a, JwtAuthority.ofJson key = .ok a := by
      intro key hkey
      obtain ⟨keyId, hnames⟩ := h key hkey
      exact ⟨⟨keyId, key.text⟩, JwtAuthority.ofJson_eq_ok_iff.mpr ⟨namesKey_iff.mp hnames, rfl⟩⟩
    obtain ⟨authorities, hall⟩ := exists_ok_of_each.mpr heach
    exact ⟨_, insertAll_eq_ok_iff.mpr ⟨authorities, ok_of_each.mp hall, rfl⟩⟩

/-! ### The texts of keys -/

/-- The octets are an object with these keys. -/
def HasKeys (octets : Bytes) (keys : List Json) : Prop :=
  ∃ members, Json.parse octets = some (.object members) ∧
    Keyed.find? "keys" members = some (.array keys)

theorem parse_eq_ok_iff {trustDomain : TrustDomain} {octets : Bytes} {bundle : JwtBundle} :
    parse trustDomain octets = .ok bundle ↔
      ∃ keys, HasKeys octets keys ∧ insertAll (empty trustDomain) keys = .ok bundle := by
  unfold parse HasKeys
  constructor
  · intro h
    split at h
    · cases h
    · rename_i document hread
      split at h
      · rename_i keys hkeys
        cases document with
        | object members => exact ⟨keys, ⟨members, hread, hkeys⟩, h⟩
        | _ => cases hkeys
      · cases h
  · rintro ⟨keys, ⟨members, hread, hkeys⟩, h⟩
    have hmember : (Json.object members).member? "keys" = some (.array keys) := hkeys
    simp only [hread, hmember, h]

theorem readText_name {means : Json.Numeral → Json.Number → Prop} {d : Nat} {piece : Bytes × Bytes}
    {entry : String × Json} (h : Json.IsEntry means d piece entry) :
    JwtHeader.readText piece.1 = some entry.1 := by
  unfold JwtHeader.readText
  rw [h.parse_name]
  rfl

/-- **The keys of a set have texts of their own**, which are read as the keys. -/
theorem exists_keyTexts {octets : Bytes} {keys : List Json} (h : HasKeys octets keys) :
    ∃ texts, keyTexts? octets = some texts ∧
      List.Forall₂ (fun text key => Json.parse text = some key) texts keys := by
  obtain ⟨members, hread, hkeys⟩ := h
  obtain ⟨text, rfl, core, hpad, hspells⟩ := Json.parse_eq_some_iff.mp hread
  obtain ⟨pieces, entries, hsplit, hpieces, rfl⟩ := Json.splitMembers_octetsOf hpad hspells
  rw [Json.octetsOf_toList] at hsplit
  -- the last member of that name, and its text
  rw [Keyed.find?_ofList] at hkeys
  obtain ⟨⟨name, member⟩, hlast, hmember⟩ := Option.map_eq_some_iff.mp hkeys
  obtain rfl : member = .array keys := hmember
  have hnamed : List.Forall₂ (Json.IsEntry Json.Numeral.Denotes 126)
      (pieces.filter fun piece => JwtHeader.readText piece.1 = some "keys")
      (entries.filter fun entry => entry.1 = "keys") := by
    refine List.rel_filter ?_ hpieces
    intro piece entry hentry
    simp [readText_name hentry]
  obtain ⟨⟨quoted, piece⟩, hpiece, -, core', rfl, harray⟩ := exists_getLast?_of_forall₂ hnamed hlast
  obtain ⟨texts, hitems, htexts⟩ := Json.splitItems_octetsOf (Json.padded_self core') harray
  refine ⟨texts, ?_, htexts.imp fun _ _ h => h.parse_eq (by decide)⟩
  unfold keyTexts?
  rw [hsplit]
  simp only [Option.bind_eq_bind, Option.bind_some, hpiece]
  exact hitems

/-! ### The set and its keys -/

/-- Every key of the set is found under its own key ID. -/
def Filed (bundle : JwtBundle) : Prop := ∀ keyId a, bundle.find? keyId = some a → a.keyId = keyId

theorem filed_empty (trustDomain : TrustDomain) : (empty trustDomain).Filed := by
  intro keyId a ha
  cases ha

theorem Filed.insert {bundle : JwtBundle} (h : bundle.Filed) (a : JwtAuthority) :
    (bundle.insert a).Filed := by
  intro keyId b hb
  rw [find?_insert] at hb
  split at hb
  · obtain rfl := Option.some.inj hb
    assumption
  · exact h keyId b hb

theorem Filed.foldl_insert {bundle : JwtBundle} (h : bundle.Filed) :
    ∀ authorities : List JwtAuthority, (authorities.foldl JwtBundle.insert bundle).Filed
  | [] => h
  | a :: authorities => (h.insert a).foldl_insert authorities

/-- **A set of keys is the fold of its keys.** It is read if and only if the octets are an object
with an array of keys that each name a key ID. Then it is made of the keys' own texts, each read
as a key and added in order; under a key ID there is the last key that names it; and every key is
found under its own key ID, whatever is added afterwards. -/
theorem parse_folds (trustDomain : TrustDomain) (octets : Bytes) :
    ((∃ bundle, parse trustDomain octets = .ok bundle) ↔
      ∃ keys, HasKeys octets keys ∧ ∀ key ∈ keys, ∃ keyId, NamesKey key keyId) ∧
    ∀ bundle, parse trustDomain octets = .ok bundle →
      ∃ keys texts authorities, HasKeys octets keys ∧ keyTexts? octets = some texts ∧
        texts.mapM Json.parse = some keys ∧ texts.mapM JwtAuthority.parse = .ok authorities ∧
        bundle = authorities.foldl insert (empty trustDomain) ∧
        (∀ keyId, bundle.find? keyId =
          (lastKey keyId keys).bind fun key => (JwtAuthority.ofJson key).toOption) ∧
        ∀ (more : List JwtAuthority) (keyId : String) (a : JwtAuthority),
          (more.foldl insert bundle).find? keyId = some a → a.keyId = keyId := by
  constructor
  · simp only [parse_eq_ok_iff]
    constructor
    · rintro ⟨bundle, keys, hkeys, h⟩
      exact ⟨keys, hkeys, exists_insertAll.mp ⟨bundle, h⟩⟩
    · rintro ⟨keys, hkeys, hnames⟩
      obtain ⟨bundle, h⟩ : ∃ bundle, insertAll (empty trustDomain) keys = .ok bundle :=
        exists_insertAll.mpr hnames
      exact ⟨bundle, keys, hkeys, h⟩
  · intro bundle h
    obtain ⟨keys, hkeys, hinsert⟩ := parse_eq_ok_iff.mp h
    obtain ⟨authorities, hall, rfl⟩ := insertAll_eq_ok_iff.mp hinsert
    obtain ⟨texts, htexts, hread⟩ := exists_keyTexts hkeys
    have hparsed : List.Forall₂ (fun text a => JwtAuthority.parse text = .ok a) texts
        authorities := by
      refine (forall₂_trans hread hall).imp fun text a h => ?_
      exact JwtAuthority.parse_eq_ok_iff.mpr h
    refine ⟨keys, texts, authorities, hkeys, htexts, some_of_each.mpr hread,
      ok_of_each.mpr hparsed, rfl, ?_, ?_⟩
    · intro keyId
      rw [find?_insertAll keyId hinsert]
      exact Option.or_none
    · intro more keyId a
      exact ((filed_empty trustDomain).foldl_insert authorities).foldl_insert more keyId a

/-- A set in which a key has taken the place of another one. -/
def rotatedKeys : Bytes := Utf8.encode (
  "\x7b\"keys\": [\x7b\"kid\": \"key-1\", \"kty\": \"oct\", \"k\": \"b2xk\"\x7d, " ++
  "\x7b\"kty\": \"oct\", \"kid\": \"key-\\u0031\", \"k\": 1, \"k\": \"bmV3\", \"n\": [-0, 7]\x7d]\x7d")

/-- The later key is found, as it is read from its own text. -/
theorem parse_folds_rotatedKeys : ∃ bundle texts authorities,
    parse ⟨"example.org"⟩ rotatedKeys = .ok bundle ∧ keyTexts? rotatedKeys = some texts ∧
      texts.mapM JwtAuthority.parse = .ok authorities ∧
      authorities.map (·.keyId) = ["key-1", "key-1"] ∧
      bundle = authorities.foldl insert (empty ⟨"example.org"⟩) ∧ bundle.find? "key-1" =
        some ⟨"key-1", "\x7b\"k\":\"bmV3\",\"kid\":\"key-1\",\"kty\":\"oct\",\"n\":[-0.0,7]\x7d"⟩ := by
  have hread : ((parse ⟨"example.org"⟩ rotatedKeys).toOption.map (·.find? "key-1")) = some (some
      ⟨"key-1", "\x7b\"k\":\"bmV3\",\"kid\":\"key-1\",\"kty\":\"oct\",\"n\":[-0.0,7]\x7d"⟩) := by
    decide +kernel
  have htexts : (keyTexts? rotatedKeys).bind (fun texts =>
      (texts.mapM JwtAuthority.parse).toOption.map (·.map (·.keyId))) =
        some ["key-1", "key-1"] := by
    decide +kernel
  obtain ⟨bundle, hbundle, hfind⟩ := Option.map_eq_some_iff.mp hread
  have hbundle := ok_of_result.mp hbundle
  obtain ⟨keys, texts, authorities, -, hsplit, -, hparsed, hfold, -⟩ :=
    (parse_folds ⟨"example.org"⟩ rotatedKeys).2 bundle hbundle
  rw [hsplit, Option.bind_some, hparsed] at htexts
  exact ⟨bundle, texts, authorities, hbundle, hsplit, hparsed, Option.some.inj htexts, hfold, hfind⟩

end JwtBundle
end WorkloadIdentity
