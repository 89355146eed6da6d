/-
# JSON values

Values as JSON texts denote them. An integer that a signed or unsigned word of
64 bits can hold stays one; every other number is of double precision. The
members of an object are in order of their names, each name once.

Key definitions: `Json`, `Json.Number`, `Json.member?`.
-/
import WorkloadIdentity.Keyed
import WorkloadIdentity.Number.Shortest

namespace WorkloadIdentity

/-- A number of a JSON text. -/
inductive Json.Number where
  | integer (n : Int)
  | real (x : Binary64)
  deriving DecidableEq, Repr

/-- A JSON value. -/
inductive Json where
  | null
  | bool (b : Bool)
  | number (n : Json.Number)
  | string (s : String)
  | array (items : List Json)
  | object (members : List (String × Json))
  deriving Repr

namespace Json

/-- The member of an object by its name. -/
def member? (name : String) : Json → Option Json
  | object members => Keyed.find? name members
  | _ => none

/-- The text of a string. -/
def string? : Json → Option String
  | string s => some s
  | _ => none

/-- The text of the member by its name, if that is a string. -/
def memberString? (name : String) (value : Json) : Option String :=
  (value.member? name).bind string?

/-- A natural as a value. -/
def ofNat (n : Nat) : Json := number (.integer n)

/-- An object of members in any order. -/
def ofMembers (members : List (String × Json)) : Json := object (Keyed.ofList members)

end Json
end WorkloadIdentity
