/-
# A stored key is read again

What is stored of a key is the writing of its value. If the numbers of the octets that it was
read from are whole, it is read again as the same key and as the same value
(`JwtAuthority.isReread_of_parse`), alone or as one of a set (`JwtBundle.stored_rereads`). A
signature is then verified by the value that the agent sent, and refused for the stored key
only if that value describes none.

Key definitions: `JwtAuthority.IsReread`.
Key theorems: `JwtSvid.verifySignature_unreadable_iff`, `JwtBundle.stored_rereads`.
-/
import WorkloadIdentity.Jwt.Signature
import WorkloadIdentity.Proofs.Bundle.KeySet
import WorkloadIdentity.Proofs.Json.Printed
import WorkloadIdentity.Proofs.Jwt.Decode
import WorkloadIdentity.Proofs.Jwt.Segment

namespace WorkloadIdentity

/-! ### Verifying by a stored key -/

namespace JwtSvid

theorem verifyRegistered_unreadable_iff (algorithm : JwtAlgorithm) {jwk : Bytes} {value : Json}
    (hread : Json.parse jwk = some value) (header claims signature : List Char) :
    verifyRegistered algorithm jwk header claims signature = .error .invalidAuthorityJwk ↔
      JwtKey.ofJson? value = none := by
  unfold verifyRegistered
  rw [hread, Option.bind_some]
  cases JwtKey.ofJson? value with
  | none => simp
  | some key =>
    refine ⟨fun h => ?_, fun h => by cases h⟩
    simp only at h
    split at h
    · split at h <;> cases h
    · cases h

theorem verifyP521_readable {jwk : Bytes} {value : Json} (hread : Json.parse jwk = some value)
    (header claims signature : List Char) :
    verifyP521 jwk header claims signature ≠ .error .invalidAuthorityJwk := by
  intro h
  unfold verifyP521 at h
  rw [hread] at h
  simp only at h
  split at h
  · cases h
  · rcases error_of_steps.mp h with h | ⟨octets, -, h⟩
    · cases error_of_decodeSegment h
    · split at h <;> cases h

/-- A stored key that is JSON is unreadable if it describes no key; on P-521 it is not asked
to. -/
theorem verifySignature_unreadable_iff {token : String} {header claims signature : List Char}
    (hsplit : Splits token header claims signature) (algorithm : JwtAlgorithm) {a : JwtAuthority}
    {value : Json} (hread : Json.parse (Utf8.encode a.jwk) = some value) :
    verifySignature token algorithm a = .error .invalidAuthorityJwk ↔
      algorithm ≠ .es512 ∧ JwtKey.ofJson? value = none := by
  unfold verifySignature
  rw [(splitOn_eq_iff _ _ _ _).mpr hsplit]
  by_cases halg : algorithm = .es512
  · simp [halg, verifyP521_readable hread]
  · simp [halg, verifyRegistered_unreadable_iff algorithm hread]

end JwtSvid

/-! ### Reading again -/

/-- What is stored of the key is read again as the same key, it stands for the value, and a
signature is refused for the stored key only if the value describes none. -/
structure JwtAuthority.IsReread (a : JwtAuthority) (value : Json) : Prop where
  authority : JwtAuthority.parse (Utf8.encode a.jwk) = .ok a
  text : Json.parse (Utf8.encode a.jwk) = some value
  verified : ∀ {token : String} {header claims signature : List Char} (algorithm : JwtAlgorithm),
    JwtSvid.Splits token header claims signature →
      (JwtSvid.verifySignature token algorithm a = .error .invalidAuthorityJwk ↔
        algorithm ≠ .es512 ∧ JwtKey.ofJson? value = none)

theorem JwtAuthority.isReread_of_parse {octets : Bytes} {value : Json}
    (hread : Json.parse octets = some value) (hwhole : ∀ n, Json.Holds value n → n.IsWhole)
    {a : JwtAuthority} (h : ofJson value = .ok a) : a.IsReread value := by
  have hstored : Json.parse (Utf8.encode a.jwk) = some value := by
    rw [← (ofJson_eq_ok_iff.mp h).2]
    exact Json.parse_bytes_of_parse hread hwhole
  exact ⟨parse_eq_ok_iff.mpr ⟨value, hstored, h⟩, hstored,
    fun algorithm hsplit => JwtSvid.verifySignature_unreadable_iff hsplit algorithm hstored⟩

namespace JwtBundle

/-- The keys of a set are values that are read from texts, with no other numbers than the set. -/
theorem read_of_mem_keys {octets : Bytes} {value : Json} {keys : List Json}
    (hread : Json.parse octets = some value) (hkeys : HasKeys octets keys) {key : Json}
    (hkey : key ∈ keys) : (∃ text, Json.parse text = some key) ∧
      ∀ n, Json.Holds key n → Json.Holds value n := by
  obtain ⟨texts, -, htexts⟩ := exists_keyTexts hkeys
  obtain ⟨members, hobject, harray⟩ := hkeys
  obtain rfl := Option.some.inj (hread.symm.trans hobject)
  refine ⟨?_, fun n hn => .member harray (.item hkey hn)⟩
  clear harray
  induction htexts with
  | nil => cases hkey
  | cons htext _ ih =>
    rcases List.mem_cons.mp hkey with rfl | hkey
    · exact ⟨_, htext⟩
    · exact ih hkey

/-- **A stored key is read again as what it was read from**, if the numbers that it was read from
are whole: a key read alone as the value of its octets, and the key under a key ID in a set of keys
as the last value there that names it. -/
theorem stored_rereads {octets : Bytes} {value : Json} (hread : Json.parse octets = some value)
    (hwhole : ∀ n, Json.Holds value n → n.IsWhole) :
    (∀ a, JwtAuthority.parse octets = .ok a → a.IsReread value) ∧
    ∀ trustDomain bundle, parse trustDomain octets = .ok bundle →
      ∀ keyId a, bundle.find? keyId = some a →
        ∃ keys key, HasKeys octets keys ∧ lastKey keyId keys = some key ∧ a.IsReread key := by
  constructor
  · intro a ha
    obtain ⟨key, hkey, hok⟩ := JwtAuthority.parse_eq_ok_iff.mp ha
    obtain rfl := Option.some.inj (hread.symm.trans hkey)
    exact JwtAuthority.isReread_of_parse hread hwhole hok
  · intro trustDomain bundle hbundle keyId a ha
    obtain ⟨keys, hkeys, hinsert⟩ := parse_eq_ok_iff.mp hbundle
    rw [find?_insertAll keyId hinsert, empty, find?, Keyed.find?, Option.or_none] at ha
    obtain ⟨key, hlast, hkey⟩ := Option.bind_eq_some_iff.mp ha
    have hmem : key ∈ keys := (List.mem_filter.mp (List.mem_of_getLast? hlast)).1
    obtain ⟨⟨text, htext⟩, hnumbers⟩ := read_of_mem_keys hread hkeys hmem
    exact ⟨keys, key, hkeys, hlast, JwtAuthority.isReread_of_parse htext
      (fun n hn => hwhole n (hnumbers n hn)) (ok_of_result.mp hkey)⟩

/-- The key that has taken the place of another one is read again. -/
theorem stored_rereads_rotatedKeys : ∃ value bundle a keys key,
    Json.parse rotatedKeys = some value ∧ (∀ n, Json.Holds value n → n.IsWhole) ∧
      parse ⟨"example.org"⟩ rotatedKeys = .ok bundle ∧ bundle.find? "key-1" = some a ∧
      HasKeys rotatedKeys keys ∧ lastKey "key-1" keys = some key ∧ a.IsReread key := by
  have hvalue : (Json.parse rotatedKeys).map (·.numbers.all fun n => decide n.IsWhole) =
      some true := by
    decide +kernel
  have hfound : ((parse ⟨"example.org"⟩ rotatedKeys).toOption.bind (·.find? "key-1")).isSome =
      true := by
    decide +kernel
  obtain ⟨value, hread, hnumbers⟩ := Option.map_eq_some_iff.mp hvalue
  have hwhole : ∀ n, Json.Holds value n → n.IsWhole := fun n hn =>
    of_decide_eq_true (List.all_eq_true.mp hnumbers n hn.mem_numbers)
  obtain ⟨a, ha⟩ := Option.isSome_iff_exists.mp hfound
  obtain ⟨bundle, hbundle, hfind⟩ := Option.bind_eq_some_iff.mp ha
  have hbundle := ok_of_result.mp hbundle
  obtain ⟨keys, key, hkeys, hlast, hreread⟩ :=
    (stored_rereads hread hwhole).2 ⟨"example.org"⟩ bundle hbundle "key-1" a hfind
  exact ⟨value, bundle, a, keys, key, hread, hwhole, hbundle, hfind, hkeys, hlast, hreread⟩

end JwtBundle
end WorkloadIdentity
