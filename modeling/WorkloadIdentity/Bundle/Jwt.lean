/-
# Bundles of token keys

The keys that a trust domain signs tokens with, each under its key ID. A key is
kept as the compact text of its JSON object; what it says is read when a
signature is verified.

Key definitions: `JwtAuthority`, `JwtBundle`, `JwtAuthority.parse`,
`JwtBundle.parse`, `JwtBundleSet`.
-/
import WorkloadIdentity.Bundle.Set
import WorkloadIdentity.Json.Parser
import WorkloadIdentity.Json.Printer

namespace WorkloadIdentity

/-- Why octets are no key or no set of keys. -/
inductive JwtBundleError where
  /-- A key has no key ID. -/
  | missingKeyId
  /-- There is no array of keys. -/
  | missingKeys
  /-- It is no JSON. -/
  | malformed
  deriving DecidableEq, Repr

/-- The wording of each cause. -/
def JwtBundleError.message : JwtBundleError → String
  | missingKeyId => "missing key ID"
  | missingKeys => "JWKS document must contain a 'keys' array"
  | malformed => "cannot deserialize json jwk set"

/-- A key and its key ID. -/
structure JwtAuthority where
  keyId : String
  /-- The key's JSON object, in compact writing. -/
  jwk : String
  deriving DecidableEq, Repr

namespace JwtAuthority

/-- The authority of a key that says its key ID. -/
def ofJson (value : Json) : Except JwtBundleError JwtAuthority :=
  match value.memberString? "kid" with
  | some keyId => .ok ⟨keyId, value.text⟩
  | none => .error .missingKeyId

/-- Reads a key. -/
def parse (octets : Bytes) : Except JwtBundleError JwtAuthority :=
  match Json.parse octets with
  | some value => ofJson value
  | none => .error .malformed

end JwtAuthority

/-- The keys of one trust domain. -/
structure JwtBundle where
  trustDomain : TrustDomain
  authorities : Keyed JwtAuthority
  deriving DecidableEq, Repr

instance : HasTrustDomain JwtBundle := ⟨JwtBundle.trustDomain⟩

/-- The token keys of several trust domains. -/
abbrev JwtBundleSet := BundleSet JwtBundle

namespace JwtBundle

/-- No key. -/
def empty (trustDomain : TrustDomain) : JwtBundle := ⟨trustDomain, []⟩

/-- Adds a key, in place of the one with its key ID. -/
def insert (bundle : JwtBundle) (authority : JwtAuthority) : JwtBundle :=
  { bundle with authorities := Keyed.insert authority.keyId authority bundle.authorities }

/-- The key with a key ID. -/
def find? (bundle : JwtBundle) (keyId : String) : Option JwtAuthority :=
  Keyed.find? keyId bundle.authorities

/-- The keys in order of their key IDs. -/
def toList (bundle : JwtBundle) : List JwtAuthority := bundle.authorities.map (·.2)

/-- Adds the keys of an array, all or none. -/
def insertAll (bundle : JwtBundle) : List Json → Except JwtBundleError JwtBundle
  | [] => .ok bundle
  | key :: rest => do
    let authority ← JwtAuthority.ofJson key
    insertAll (bundle.insert authority) rest

/-- Reads a set of keys. -/
def parse (trustDomain : TrustDomain) (octets : Bytes) : Except JwtBundleError JwtBundle :=
  match Json.parse octets with
  | none => .error .malformed
  | some document =>
    match document.member? "keys" with
    | some (.array keys) => insertAll (empty trustDomain) keys
    | _ => .error .missingKeys

end JwtBundle
end WorkloadIdentity
