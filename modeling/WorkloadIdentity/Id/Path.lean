/-
# Paths and trust domain names

A SPIFFE ID names a workload by a trust domain and a path. A trust domain name
is one or more lower case letters, digits, dots, dashes and underscores; a path
is empty or a run of segments, each written after a slash, and a segment is
one or more letters, digits, dots, dashes and underscores other than the two
dot segments. Nothing is percent-decoded, so a text has one reading.

Every check reports the first thing that is wrong, from the left.

Key definitions: `IdError`, `checkName`, `checkSegment`, `checkPath`,
`joinSegments`.
-/

namespace WorkloadIdentity

/-- Why a text is not a SPIFFE ID, a trust domain or a path of one. -/
inductive IdError where
  /-- The text is empty. -/
  | empty
  /-- There is no trust domain name. -/
  | missingTrustDomain
  /-- The text does not start with `spiffe://`. -/
  | wrongScheme
  /-- The trust domain name holds a character outside its class. -/
  | badTrustDomainChar
  /-- A path segment holds a character outside its class. -/
  | badPathSegmentChar
  /-- Two slashes of the path stand next to each other. -/
  | emptySegment
  /-- A segment is `.` or `..`. -/
  | dotSegment
  /-- The path ends with a slash. -/
  | trailingSlash
  /-- The path is not empty and does not start with a slash. -/
  | noLeadingSlash
  deriving DecidableEq, Repr

namespace IdError

/-- The wording of each cause. -/
def message : IdError → String
  | empty => "Cannot be empty"
  | missingTrustDomain => "Trust domain is missing"
  | wrongScheme => "Scheme is missing or invalid"
  | badTrustDomainChar =>
    "Trust domain characters are limited to lowercase letters, numbers, dots, dashes, and underscores"
  | badPathSegmentChar =>
    "Path segment characters are limited to letters, numbers, dots, dashes, and underscores"
  | emptySegment => "Path cannot contain empty segments"
  | dotSegment => "Path cannot contain dot segments"
  | trailingSlash => "Path cannot have a trailing slash"
  | noLeadingSlash => "Path must have a leading slash"

end IdError

/-- Lower case letters, digits, dots, dashes and underscores. -/
def isNameChar (c : Char) : Bool :=
  c.isLower || c.isDigit || c == '-' || c == '.' || c == '_'

/-- Letters, digits, dots, dashes and underscores. -/
def isSegmentChar (c : Char) : Bool :=
  c.isAlphanum || c == '-' || c == '.' || c == '_'

/-- A trust domain name is not empty and keeps to its characters. -/
def checkName (name : List Char) : Except IdError Unit :=
  if name.isEmpty then .error .missingTrustDomain
  else if name.all isNameChar then .ok ()
  else .error .badTrustDomainChar

/-- A segment is not empty, not a dot segment, and keeps to its characters. -/
def checkSegment (segment : List Char) : Except IdError Unit :=
  if segment.isEmpty then .error .emptySegment
  else if segment = ['.'] ∨ segment = ['.', '.'] then .error .dotSegment
  else if segment.all isSegmentChar then .ok ()
  else .error .badPathSegmentChar

/-- The segments of a path, from the left; an empty last one is a trailing
slash. -/
def checkSegments : List (List Char) → Except IdError Unit
  | [] => .ok ()
  | [last] => if last.isEmpty then .error .trailingSlash else checkSegment last
  | segment :: rest => do checkSegment segment; checkSegments rest

/-- A path is empty, or a slash and its segments. -/
def checkPath : List Char → Except IdError Unit
  | [] => .ok ()
  | '/' :: rest => checkSegments (rest.splitOn '/')
  | _ :: _ => .error .noLeadingSlash

/-- The path made of the given segments, each checked on its own, so none can
hold a slash. -/
def joinSegments : List (List Char) → Except IdError (List Char)
  | [] => .ok []
  | segment :: rest => do
    checkSegment segment
    let path ← joinSegments rest
    pure ('/' :: segment ++ path)

end WorkloadIdentity
