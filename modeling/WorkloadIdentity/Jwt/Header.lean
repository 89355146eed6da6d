/-
# Token headers

The header of a token names its algorithm and may name its key and its type.
It is an object, whose other members are passed over unread, or an array of
key ID, type and algorithm. Key ID and type may be null; none of the three may
be given twice.

Key definitions: `JwtHeader`, `JwtHeader.read`.
-/
import WorkloadIdentity.Json.Parser
import WorkloadIdentity.Json.Scan

namespace WorkloadIdentity

/-- The header of a token. -/
structure JwtHeader where
  keyId : Option String
  type : Option String
  algorithm : String
  deriving DecidableEq, Repr

namespace JwtHeader

/-- A text. -/
def readText (value : Bytes) : Option String := (Json.parse value).bind Json.string?

/-- A text or null. -/
def readOptional (value : Bytes) : Option (Option String) :=
  match Json.parse value with
  | some .null => some none
  | some (.string s) => some (some s)
  | _ => none

/-- The values of the members with a name, in order. -/
def valuesOf (name : String) (members : List (String × Bytes)) : List Bytes :=
  (members.filter (·.1 == name)).map (·.2)

/-- The header that the members of an object give. -/
def ofMembers (members : List (String × Bytes)) : Option JwtHeader := do
  let keyId ← match valuesOf "kid" members with
    | [] => some none
    | [value] => readOptional value
    | _ => none
  let type ← match valuesOf "typ" members with
    | [] => some none
    | [value] => readOptional value
    | _ => none
  match valuesOf "alg" members with
  | [value] => pure ⟨keyId, type, ← readText value⟩
  | _ => none

/-- Reads a header. -/
def read (s : Bytes) : Option JwtHeader :=
  match Json.splitMembers s with
  | some members => do
    ofMembers (← members.mapM fun (name, value) => do pure (← readText name, value))
  | none =>
    match Json.splitItems s with
    | some [keyId, type, algorithm] => do
      pure ⟨← readOptional keyId, ← readOptional type, ← readText algorithm⟩
    | _ => none

end JwtHeader
end WorkloadIdentity
