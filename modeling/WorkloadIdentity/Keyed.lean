/-
# Entries in order of their keys

A `Keyed` list holds entries in strictly increasing order of their keys, which
are compared character by character. Inserting replaces the entry of the same
key, so that two lists with the same entries are equal, however they came
about.

Key definitions: `Keyed`, `Keyed.insert`, `Keyed.find?`, `Keyed.ofList`,
`distinct`.
-/

namespace WorkloadIdentity

/-- Entries in order of their keys. -/
abbrev Keyed (α : Type) := List (String × α)

namespace Keyed

variable {α : Type}

/-- Puts an entry in its place, or in place of the one with its key. -/
def insert (key : String) (value : α) : Keyed α → Keyed α
  | [] => [(key, value)]
  | (k, v) :: rest =>
    if key < k then (key, value) :: (k, v) :: rest
    else if key = k then (key, value) :: rest
    else (k, v) :: insert key value rest

/-- The value under a key. -/
def find? (key : String) : Keyed α → Option α
  | [] => none
  | (k, v) :: rest => if k = key then some v else find? key rest

/-- Inserts entries one after the other, so that the last one of a key stays. -/
def insertAll (entries : Keyed α) (more : List (String × α)) : Keyed α :=
  more.foldl (fun entries entry => insert entry.1 entry.2 entries) entries

/-- The entries of a list, the last one of each key. -/
def ofList (entries : List (String × α)) : Keyed α := insertAll [] entries

end Keyed

/-- The different texts of a list, in order. -/
def distinct (texts : List String) : List String :=
  (Keyed.ofList (texts.map fun s => (s, ()))).map (·.1)

end WorkloadIdentity
