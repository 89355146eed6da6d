/-
# SPIFFE IDs and trust domains

A `SpiffeId` keeps its text and the offset at which the path starts in it, so
that taking the trust domain or the path, moving below the path or replacing it
never parses a text again. `SpiffeId.parse` reads such a text and
`TrustDomain.parse` a trust domain, bare or as part of an ID.

Key definitions: `TrustDomain`, `SpiffeId`, `SpiffeId.trustDomain`,
`SpiffeId.path`, `SpiffeId.parse`, `TrustDomain.parse`, `SpiffeId.ofPath`,
`SpiffeId.ofSegments`.
-/
import WorkloadIdentity.Id.Path

namespace WorkloadIdentity

/-- What every SPIFFE ID starts with. -/
def spiffePrefix : String := "spiffe://"

/-- A trust domain, by its name. -/
structure TrustDomain where
  /-- The bare name, such as `acme.io`. -/
  name : String
  deriving DecidableEq, Repr

/-- An identity in writing, and where its path starts. -/
structure SpiffeId where
  /-- The prefix, the name of the trust domain and the path, one after the
  other. -/
  text : String
  /-- The octets before the path. -/
  pathStart : Nat
  deriving DecidableEq, Repr

namespace SpiffeId

/-- The trust domain that the identity belongs to. -/
def trustDomain (id : SpiffeId) : TrustDomain :=
  ⟨String.Pos.Raw.extract id.text ⟨spiffePrefix.utf8ByteSize⟩ ⟨id.pathStart⟩⟩

/-- Empty for the trust domain's own identity, else a slash and segments. -/
def path (id : SpiffeId) : String :=
  String.Pos.Raw.extract id.text ⟨id.pathStart⟩ ⟨id.text.utf8ByteSize⟩

/-- The identity made of a name and a path that have been checked. -/
def join (name path : String) : SpiffeId :=
  let text := spiffePrefix ++ name ++ path
  ⟨text, text.utf8ByteSize - path.utf8ByteSize⟩

/-- The identity with more path, which has been checked, after its own. -/
def extend (id : SpiffeId) (more : String) : SpiffeId := { id with text := id.text ++ more }

/-- Reads an identity. The scheme is checked first, then the trust domain
(all up to the first slash), then the path. -/
def parse (s : String) : Except IdError SpiffeId :=
  if s.isEmpty then .error .empty
  else match spiffePrefix.toList.isPrefixOf? s.toList with
    | none => .error .wrongScheme
    | some rest => do
      let name := rest.takeWhile (· != '/')
      let path := rest.dropWhile (· != '/')
      checkName name
      checkPath path
      pure ⟨s, s.utf8ByteSize - (String.ofList path).utf8ByteSize⟩

/-- The identity that `path` names in a trust domain. -/
def ofPath (trustDomain : TrustDomain) (path : String) : Except IdError SpiffeId := do
  checkPath path.toList
  pure (join trustDomain.name path)

/-- The identity that a list of segments names in a trust domain. -/
def ofSegments (trustDomain : TrustDomain) (segments : List String) : Except IdError SpiffeId := do
  let path ← joinSegments (segments.map String.toList)
  pure (join trustDomain.name (String.ofList path))

/-- The identity with more path after its own. -/
def appendPath (id : SpiffeId) (path : String) : Except IdError SpiffeId := do
  checkPath path.toList
  pure (id.extend path)

/-- The identity with more segments after its own. -/
def appendSegments (id : SpiffeId) (segments : List String) : Except IdError SpiffeId := do
  let path ← joinSegments (segments.map String.toList)
  pure (id.extend (String.ofList path))

/-- Another path in the same trust domain. -/
def replacePath (id : SpiffeId) (path : String) : Except IdError SpiffeId :=
  ofPath id.trustDomain path

/-- Other segments in the same trust domain. -/
def replaceSegments (id : SpiffeId) (segments : List String) : Except IdError SpiffeId :=
  ofSegments id.trustDomain segments

/-- Membership compares whole names, so `acme.io.evil` is not in `acme.io`. -/
def isMemberOf (id : SpiffeId) (trustDomain : TrustDomain) : Bool :=
  id.trustDomain = trustDomain

/-- Identities are ordered by their texts, and then by where their paths
start. -/
instance : LT SpiffeId :=
  ⟨fun a b => a.text < b.text ∨ a.text = b.text ∧ a.pathStart < b.pathStart⟩

instance (a b : SpiffeId) : Decidable (a < b) :=
  inferInstanceAs (Decidable (a.text < b.text ∨ a.text = b.text ∧ a.pathStart < b.pathStart))

end SpiffeId

namespace TrustDomain

/-- The trust domain's own identity: its name and an empty path. -/
def id (trustDomain : TrustDomain) : SpiffeId := SpiffeId.join trustDomain.name ""

/-- The trust domain in writing, as an identity. -/
def idText (trustDomain : TrustDomain) : String := spiffePrefix ++ trustDomain.name

/-- Does the text hold a colon with a slash right after it? -/
def looksLikeId : List Char → Bool
  | [] => false
  | c :: rest => (c == ':' && rest.head? == some '/') || looksLikeId rest

/-- Reads a trust domain: an identity's, if the text looks like one, else a
bare name. No name holds a colon, so the two readings never meet. -/
def parse (s : String) : Except IdError TrustDomain :=
  if looksLikeId s.toList then (SpiffeId.parse s).map (·.trustDomain)
  else do
    checkName s.toList
    pure ⟨s⟩

/-- Trust domains are ordered by name. -/
instance : LT TrustDomain := ⟨fun a b => a.name < b.name⟩

instance (a b : TrustDomain) : Decidable (a < b) :=
  inferInstanceAs (Decidable (a.name < b.name))

end TrustDomain

end WorkloadIdentity
