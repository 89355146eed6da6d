/-
# Paths to an anchor

A path starts with a leaf and goes from each certificate to one that issued it,
until an anchor issued the last one. Every certificate has to hold at the time
and to be good for the purpose; every one but the leaf has to be a CA whose
limit on the length of paths is kept. There are at most six between leaf and
anchor, and none comes twice with the same subject and key. At an anchor the
signatures and then the constraints on names are checked from the anchor to the
leaf; if they fail, the search goes on.

Key definitions: `Path.Purpose`, `Path.isUsable`, `Path.checkAnchor`,
`Path.search`, `Path.isTrusted`.
-/
import WorkloadIdentity.X509.Path.Constraint
import WorkloadIdentity.X509.Path.Signature
import WorkloadIdentity.X509.Time

namespace WorkloadIdentity
namespace Path

open Der (Reader)

/-- What the leaf is to be used for. -/
inductive Purpose where
  | serverAuth
  | clientAuth
  deriving DecidableEq, Repr

/-- The object identifier among extended uses. -/
def Purpose.id : Purpose → Bytes
  | .serverAuth => [0x2b, 0x06, 0x01, 0x05, 0x05, 0x07, 0x03, 0x01]
  | .clientAuth => [0x2b, 0x06, 0x01, 0x05, 0x05, 0x07, 0x03, 0x02]

/-! ### Each certificate by itself -/

/-- Does the time lie within the validity? -/
def isValidAt (now : Int) (validity : Bytes) : Bool :=
  let reader : Reader (Option CalendarTime × Option CalendarTime) := do
    pure (CalendarTime.ofStrict? (← element), CalendarTime.ofStrict? (← element))
  match reader.runAll? validity with
  | some (some first, some last) =>
    first.unixSeconds ≤ last.unixSeconds &&
      (first.unixSeconds : Int) ≤ now && now ≤ last.unixSeconds
  | _ => false

/-- Whether a certificate is a CA, and the most CAs below it. -/
def readConstraints : Reader (Bool × Option Nat) := do
  let ca ← flag
  if ← Reader.atEnd then pure (ca, none)
  else
    match Der.natural? (← expect .integer) with
    | some n => if n < 256 then pure (ca, some n) else failure
    | none => failure

/-- Does a certificate say that it is no CA, for the leaf, or that it is one
that may have as many CAs below it as there are? -/
def hasRole (below : Option Nat) (constraints : Option Bytes) : Bool :=
  match constraints with
  | none => below.isNone
  | some content =>
    match readConstraints.runAll? content, below with
    | some (ca, _), none => !ca
    | some (ca, most), some count => ca && most.all (count ≤ ·)
    | none, _ => false

/-- Is the purpose among the uses that are read, at most `count`? What follows
it does not count. -/
def listsPurpose (purpose : Purpose) : Nat → Bytes → Bool
  | 0, _ => false
  | count + 1, uses =>
    match expect .objectId uses with
    | some (id, rest) => id == purpose.id || listsPurpose purpose count rest
    | none => false

/-- Is the purpose allowed? Without extended uses all are. -/
def allowsPurpose (purpose : Purpose) (uses : Option Bytes) : Bool :=
  uses.all fun content => listsPurpose purpose content.length content

/-- Is the certificate good for its place? It is the leaf, or has `below` CAs
between itself and the leaf. -/
def isUsable (purpose : Purpose) (now : Int) (below : Option Nat) (node : Node) : Bool :=
  isValidAt now node.validity && hasRole below node.basicConstraints &&
    allowsPurpose purpose node.extendedUses

/-! ### Paths -/

/-- Takes one signature off the budget, if there is one, and verifies it. -/
def checkSignature (node : Node) (publicKey : Bytes) : Search Outcome := do
  let budget ← get
  if budget.signatures = 0 then pure .exhausted
  else
    set { budget with signatures := budget.signatures - 1 }
    Search.ofBool (node.signed.verify publicKey)

/-- Verifies each signature of a path, the one nearest to the anchor first,
with the key of the issuer. -/
def checkSignatures (publicKey : Bytes) : List Node → Search Outcome
  | [] => pure .accepted
  | node :: rest =>
    Search.andThen (checkSignature node publicKey) (checkSignatures node.publicKey rest)

/-- Checks the names of a path, the one nearest to the anchor first, against the
constraints of each issuer above them. -/
def checkConstraints (constraints : Option Bytes) : List Node → Search Outcome
  | [] => pure .accepted
  | node :: rest =>
    Search.andThen (checkNames constraints (node :: rest))
      (checkConstraints node.nameConstraints rest)

/-- Does the path end at the anchor? -/
def checkAnchor (path : List Node) (anchor : Anchor) : Search Outcome :=
  if path.head?.map Node.issuer = some anchor.subject then
    Search.andThen (checkSignatures anchor.publicKey path)
      (checkConstraints anchor.nameConstraints path)
  else pure .refused

/-- Takes one step off the budget, if there is one. -/
def spendStep : Search Outcome := do
  let budget ← get
  if budget.steps = 0 then pure .exhausted
  else
    set { budget with steps := budget.steps - 1 }
    pure .accepted

/-- May the certificate come next? It issued the last one and has not been
in the path yet. -/
def comesNext (path : List Node) (issuer : Node) : Bool :=
  path.head?.map Node.issuer == some issuer.subject &&
    path.all fun node => !(node.publicKey == issuer.publicKey && node.subject == issuer.subject)

/-- The certificates of a search. -/
structure Problem where
  purpose : Purpose
  now : Int
  anchors : List Anchor
  intermediates : List Node

/-- Is there a way from the last certificate of a path, which comes first in the
list, to an anchor, with at most `more` further certificates? -/
def search (problem : Problem) : Nat → List Node → Search Outcome
  | _, [] => pure .refused
  | more, node :: rest =>
    let below := if rest.isEmpty then none else some (rest.length - 1)
    if isUsable problem.purpose problem.now below node then
      Search.any id [Search.any (checkAnchor (node :: rest)) problem.anchors,
        problem.intermediates |> Search.any fun issuer =>
          if comesNext (node :: rest) issuer then
            Search.andThen spendStep <|
              match more with
              | 0 => pure .refused
              | more + 1 => search problem more (issuer :: node :: rest)
          else pure .refused]
    else pure .refused
termination_by more => more

/-- The most certificates between leaf and anchor. -/
def maxIntermediates : Nat := 6

/-- Is there a path from the leaf to one of the anchors, for the purpose and at
the time? Certificates that cannot be read are left out. -/
def isTrusted (purpose : Purpose) (now : Int) (anchors : List Anchor) (intermediates : List Bytes)
    (leaf : Bytes) : Bool :=
  match Node.parse leaf with
  | none => false
  | some node =>
    let problem : Problem := ⟨purpose, now, anchors, intermediates.filterMap Node.parse⟩
    ((search problem maxIntermediates [node]).run Budget.full).1 == .accepted

end Path
end WorkloadIdentity
