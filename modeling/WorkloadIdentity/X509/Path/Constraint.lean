/-
# Constraints on names

An issuer may say below which names its certificates' names have to be, and
below which they must not be. Names of hosts and addresses are compared; names
of directories, URIs and other kinds are refused as soon as a constraint is of
their kind. A name whose kind no constraint has is free.

The comparisons of a search are limited in number, so a check may also end
because there were too many.

Key definitions: `Path.Budget`, `Path.Outcome`, `Path.Name`,
`Path.checkNames`.
-/
import WorkloadIdentity.X509.Path.Certificate

namespace WorkloadIdentity
namespace Path

open Der (Reader Tag)

/-! ### Limited search -/

/-- What a search may still do. -/
structure Budget where
  signatures : Nat
  steps : Nat
  comparisons : Nat
  deriving DecidableEq, Repr

/-- What a search may do at all. -/
def Budget.full : Budget := ⟨100, 200000, 250000⟩

/-- How a part of a search ends. -/
inductive Outcome where
  | accepted
  | refused
  /-- There was too much to do. -/
  | exhausted
  deriving DecidableEq, Repr

/-- A search within a budget. -/
abbrev Search := StateM Budget

/-- The second check is made if the first one accepts. -/
def Search.andThen (first second : Search Outcome) : Search Outcome := do
  match ← first with
  | .accepted => second
  | other => pure other

/-- Does a check accept all items? -/
def Search.all {α : Type} (check : α → Search Outcome) : List α → Search Outcome
  | [] => pure .accepted
  | a :: rest => Search.andThen (check a) (Search.all check rest)

/-- Does a check accept one of the items? -/
def Search.any {α : Type} (check : α → Search Outcome) : List α → Search Outcome
  | [] => pure .refused
  | a :: rest => do
    match ← check a with
    | .refused => Search.any check rest
    | other => pure other

/-- Accepts at once or refuses at once. -/
def Search.ofBool (holds : Bool) : Search Outcome := pure (if holds then .accepted else .refused)

/-- Takes one comparison off the budget, if there is one. -/
def spendComparison : Search Outcome := do
  let budget ← get
  if budget.comparisons = 0 then pure .exhausted
  else
    set { budget with comparisons := budget.comparisons - 1 }
    pure .accepted

/-! ### Names -/

/-- A name by its kind. -/
inductive Name where
  | host (text : Bytes)
  | directory
  | uri
  | address (octets : Bytes)
  /-- A name of a kind that is known by its number only. -/
  | numbered (number : Nat)
  deriving DecidableEq, Repr

/-- The name in an element. -/
def Name.ofElement? (e : Der.Element) : Option Name :=
  if e.tag = .part 2 then some (.host e.content)
  else if e.tag = .wrapped 4 then some .directory
  else if e.tag = .part 6 then some .uri
  else if e.tag = .part 7 then some (.address e.content)
  else if [Tag.wrapped 0, .part 1, .wrapped 3, .wrapped 5, .part 8].contains e.tag then
    some (.numbered e.tag.number)
  else none

/-- A name. -/
def readName : Reader Name := do
  let e ← element
  match Name.ofElement? e with
  | some name => pure name
  | none => failure

/-! ### Names of hosts -/

/-- Is this the character of a label, a hyphen apart? -/
def isLabelOctet (b : UInt8) : Bool :=
  (48 ≤ b && b ≤ 57) || (65 ≤ b && b ≤ 90) || (97 ≤ b && b ≤ 122) || b == 95

/-- A label of 1 to 63 characters with hyphens only inside. -/
def isLabel (label : Bytes) : Bool :=
  1 ≤ label.length && label.length ≤ 63 && label.all (fun b => isLabelOctet b || b == 45) &&
    label.head? != some 45 && label.getLast? != some 45

/-- The labels between dots. -/
def labels : Bytes → List Bytes
  | [] => [[]]
  | b :: rest =>
    if b = 46 then [] :: labels rest
    else match labels rest with
      | label :: others => (b :: label) :: others
      | [] => [[b]]

/-- Labels of which the last is not a number. -/
def isLabelList (list : List Bytes) : Bool :=
  list.all isLabel && !((list.getLastD []).all fun b => 48 ≤ b && b ≤ 57)

/-- The name of a host that a certificate shows; its first label may be a
star if at least two more follow. -/
def isShownHost (host : Bytes) : Bool :=
  host.length ≤ 253 &&
    match labels host with
    | [42] :: rest => 2 ≤ rest.length && isLabelList rest
    | list => isLabelList list

/-- A host in a constraint: none at all, or a host's name that may start with a
dot. -/
def isHostConstraint (host : Bytes) : Bool :=
  host.length ≤ 253 && (host.isEmpty ||
    match labels host with
    | [] :: first :: rest => isLabelList (first :: rest)
    | list => isLabelList list)

/-- A letter in lower case. -/
def lower (b : UInt8) : UInt8 := if 65 ≤ b ∧ b ≤ 90 then b + 32 else b

/-- Are the two equal but for case? -/
def sameHost (a b : Bytes) : Bool := a.map lower == b.map lower

/-- Is a shown host below the host of a constraint? A star stands for the
first label of a longer constraint where that is allowed. -/
def isBelowHost (starMatches : Bool) (shown host : Bytes) : Bool :=
  if host.length < shown.length then
    host.isEmpty ||
      (let extra := shown.length - host.length
      let tail := shown.drop extra
      sameHost tail host && (host.head? == some 46 || shown.getD (extra - 1) 0 == 46))
  else if shown.head? == some 42 then
    starMatches && sameHost (shown.drop 1) ((host.drop 1).dropWhile (· != 46))
  else sameHost shown host

/-! ### Addresses -/

/-- Are the ones of a mask all in front? -/
def isMask : Bytes → Bool
  | [] => true
  | b :: rest =>
    if b = 255 then isMask rest
    else [0, 128, 192, 224, 240, 248, 252, 254].contains b && rest.all (· == 0)

/-- Is an address below an address and a mask? There is no answer for what is
neither, and addresses of another length are not below. -/
def isBelowAddress (shown constraint : Bytes) : Option Bool :=
  let size := shown.length
  if size = 4 ∨ size = 16 then
    if constraint.length = 2 * size then
      let mask := constraint.drop size
      if isMask mask then
        some (List.zipWith (· &&& ·) shown mask ==
          List.zipWith (· &&& ·) (constraint.take size) mask)
      else none
    else if constraint.length = 8 ∨ constraint.length = 32 then some false
    else none
  else none

/-! ### Constraints -/

/-- How a name stands to a constraint. -/
inductive Relation where
  /-- The constraint is of another kind. -/
  | unrelated
  | below
  | apart
  /-- The two cannot be compared. -/
  | unknown
  deriving DecidableEq, Repr

/-- The relation that an answer means. -/
def Relation.ofBool (isBelow : Bool) : Relation := if isBelow then .below else .apart

/-- How a name stands to the name of a constraint. -/
def relation (permitted : Bool) (name constraint : Name) : Relation :=
  match name, constraint with
  | .host shown, .host host =>
    if isShownHost shown && isHostConstraint host then .ofBool (isBelowHost (!permitted) shown host)
    else .unknown
  | .address shown, .address octets =>
    match isBelowAddress shown octets with
    | some isBelow => .ofBool isBelow
    | none => .unknown
  | .directory, .directory => .unknown
  | .uri, .uri => .unknown
  | .numbered a, .numbered b => if a = b then .unknown else .unrelated
  | _, _ => .unrelated

/-- Goes through the constraints of one kind, at most `count`: a name has to be
below one of those permitted, if any is of its kind, and below none of those
excluded. -/
def checkSubtrees (permitted : Bool) (name : Name) (below apart : Bool) :
    Nat → Bytes → Search Outcome
  | _, [] => Search.ofBool (below || !apart)
  | 0, _ => pure .refused
  | count + 1, octets => Search.andThen spendComparison <|
    match inside .sequence readName octets with
    | none => pure .refused
    | some (constraint, rest) =>
      match relation permitted name constraint with
      | .unrelated => checkSubtrees permitted name below apart count rest
      | .unknown => pure .refused
      | .below =>
        if permitted then checkSubtrees permitted name true apart count rest else pure .refused
      | .apart => checkSubtrees permitted name below (apart || permitted) count rest

/-- The constraints of a list under a number, if it is there. -/
def readSubtrees (number : Nat) : Reader Bytes := fun octets =>
  if octets.head? = some (UInt8.ofNat (160 + number)) then expect (.wrapped number) octets
  else some ([], octets)

/-- Checks a name against the permitted and the excluded constraints. -/
def checkName (permitted excluded : Bytes) (name : Name) : Search Outcome :=
  Search.andThen (checkSubtrees true name false false permitted.length permitted)
    (checkSubtrees false name false false excluded.length excluded)

/-- Checks alternative names one after the other, at most `count`. -/
def checkAltNames (check : Name → Search Outcome) : Nat → Bytes → Search Outcome
  | _, [] => pure .accepted
  | 0, _ => pure .refused
  | count + 1, octets =>
    match readName octets with
    | some (name, rest) => Search.andThen (check name) (checkAltNames check count rest)
    | none => pure .refused

/-- Do all names of these certificates, the subjects as names of directories
among them, keep to the constraints? -/
def checkNames (constraints : Option Bytes) (nodes : List Node) : Search Outcome :=
  match constraints with
  | none => pure .accepted
  | some content =>
    let reader : Reader (Bytes × Bytes) := do pure (← readSubtrees 0, ← readSubtrees 1)
    match reader.runAll? content with
    | none => pure .refused
    | some (permitted, excluded) =>
      let check := checkName permitted excluded
      nodes |> Search.all fun node =>
        let names := node.altNames.getD []
        Search.andThen (checkAltNames check names.length names) (check .directory)

end Path
end WorkloadIdentity
