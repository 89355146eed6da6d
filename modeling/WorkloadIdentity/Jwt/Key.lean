/-
# Keys in JSON

What a key's JSON object says: its family and the texts of its numbers. The
members that keys have in common may be missing or null and otherwise have to
be of their types, with one of the registered names as the algorithm; a key
that no family's members describe cannot be read.

Key definitions: `JwtKey`, `JwtKey.ofJson?`, `JwtKey.ecPoint?`.
-/
import WorkloadIdentity.Json.Basic
import WorkloadIdentity.Text.Base64Url

namespace WorkloadIdentity

/-- A key by its family. -/
inductive JwtKey where
  /-- A point on a curve, by its coordinates. -/
  | ec (x y : String)
  /-- A modulus and an exponent. -/
  | rsa (n e : String)
  /-- A shared secret. -/
  | secret (k : String)
  /-- A point on an Edwards or Montgomery curve. -/
  | octetPair (x : String)
  deriving DecidableEq, Repr

namespace JwtKey

/-- The algorithms that a key may be meant for. -/
def algorithmNames : List String :=
  ["HS256", "HS384", "HS512", "ES256", "ES384", "RS256", "RS384", "RS512", "PS256", "PS384",
    "PS512", "EdDSA", "RSA1_5", "RSA-OAEP", "RSA-OAEP-256"]

/-- The curves that a key may name. -/
def curveNames : List String := ["P-256", "P-384", "P-521", "Ed25519"]

/-- Is the value one of the names, as a text or as an object whose only member
has that name and is null? -/
def isOneOf (names : List String) : Json → Bool
  | .string s => names.contains s
  | .object [(s, .null)] => names.contains s
  | _ => false

/-- Is the value a text? -/
def isText (value : Json) : Bool := value.string?.isSome

/-- Is the value an array of texts? -/
def isTexts : Json → Bool
  | .array items => items.all isText
  | _ => false

/-- Is the member missing or null, or does it pass the test? -/
def optional (value : Json) (name : String) (test : Json → Bool) : Bool :=
  match value.member? name with
  | none => true
  | some .null => true
  | some member => test member

/-- Are the members that keys have in common of their types? -/
def hasCommonMembers (value : Json) : Bool :=
  optional value "use" isText && optional value "key_ops" isTexts &&
    optional value "alg" (isOneOf algorithmNames) && optional value "kid" isText &&
    optional value "x5u" isText && optional value "x5c" isTexts &&
    optional value "x5t" isText && optional value "x5t#S256" isText

/-- Is the member one of the names? -/
def names (value : Json) (member : String) (allowed : List String) : Bool :=
  (value.member? member).any (isOneOf allowed)

/-- The key of the first family whose members the object has. -/
def family? (value : Json) : Option JwtKey :=
  match names value "kty" ["EC"] && names value "crv" curveNames,
    value.memberString? "x", value.memberString? "y" with
  | true, some x, some y => some (.ec x y)
  | _, _, _ =>
  match names value "kty" ["RSA"], value.memberString? "n", value.memberString? "e" with
  | true, some n, some e => some (.rsa n e)
  | _, _, _ =>
  match names value "kty" ["oct"], value.memberString? "k" with
  | true, some k => some (.secret k)
  | _, _ =>
  match names value "kty" ["OKP"] && names value "crv" curveNames, value.memberString? "x" with
  | true, some x => some (.octetPair x)
  | _, _ => none

/-- The key that a value says. -/
def ofJson? (value : Json) : Option JwtKey :=
  match value with
  | .object _ => if hasCommonMembers value then family? value else none
  | _ => none

/-- The uncompressed form of the point with these coordinates. -/
def ecPoint? (x y : String) : Option Bytes := do
  let x ← Base64Url.decode x.toList
  let y ← Base64Url.decode y.toList
  pure (4 :: x ++ y)

end JwtKey
end WorkloadIdentity
