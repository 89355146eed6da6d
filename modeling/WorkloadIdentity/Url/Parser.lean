/-
# Reading URLs

`Url.parse` reads an absolute URL by the living standard's rules. Blanks and
controls around the text and tabs and line ends anywhere in it are ignored.
Dot segments of a path are resolved as they are read, in each of their
spellings; a drive letter's segment is never taken back by one. Only a special
scheme (`http` and its like) takes backslashes for slashes, needs a host, and
has a port of its own that is left out.

Key definitions: `Url.parse`, `Url.parseAuthority`, `Url.resolve`.
-/
import WorkloadIdentity.Url.Host

namespace WorkloadIdentity
namespace Url

/-- How a scheme's URLs are read. -/
inductive SchemeKind where
  /-- Local files. -/
  | file
  /-- The other schemes that need a host. -/
  | network
  /-- Every scheme the standard does not name. -/
  | plain
  deriving DecidableEq, Repr

/-- The kind of a scheme in lower case. -/
def SchemeKind.of (scheme : List Char) : SchemeKind :=
  if scheme = "file".toList then .file
  else if ["http", "https", "ws", "wss", "ftp"].contains (String.ofList scheme) then .network
  else .plain

/-- Is it one that the standard names? -/
def SchemeKind.isSpecial (kind : SchemeKind) : Bool := kind != .plain

/-- The port that a scheme has of its own. -/
def ownPort (scheme : List Char) : Option Nat :=
  match String.ofList scheme with
  | "http" | "ws" => some 80
  | "https" | "wss" => some 443
  | "ftp" => some 21
  | _ => none

/-- The text that is read: without blanks and controls around it, and without
tabs and line ends. -/
def significant (s : List Char) : List Char :=
  let trimmed := ((s.dropWhile (·.toNat ≤ 0x20)).reverse.dropWhile (·.toNat ≤ 0x20)).reverse
  trimmed.filter fun c => !(c == '\t' || c == '\n' || c == '\r')

/-- The scheme in lower case and the text after its colon. -/
def splitScheme (s : List Char) : Option (List Char × List Char) :=
  let isSchemeChar (c : Char) : Bool := c.isAlphanum || c == '+' || c == '-' || c == '.'
  if s.head?.any Char.isAlpha then
    match s.dropWhile isSchemeChar with
    | ':' :: rest => some ((s.takeWhile isSchemeChar).map Char.toLower, rest)
    | _ => none
  else none

/-- A slash, or a backslash under a special scheme. -/
def isSlash (kind : SchemeKind) (c : Char) : Bool :=
  c == '/' || (kind.isSpecial && c == '\\')

/-- What stands before and after the last `@` of a text, if it holds one. -/
def splitAtLastAt (s : List Char) : Option (List Char × List Char) :=
  let after := (s.reverse.takeWhile (· != '@')).reverse
  if after.length = s.length then none
  else some ((s.take (s.length - after.length)).dropLast, after)

/-- The user name and the password, escaped; an empty password is none. -/
def parseUserInfo (s : List Char) : List Char × Option (List Char) :=
  let user := Percent.encode Percent.userSet (s.takeWhile (· != ':'))
  match s.dropWhile (· != ':') with
  | _ :: password@(_ :: _) => (user, some (Percent.encode Percent.userSet password))
  | _ => (user, none)

/-- The text of the host, up to a colon outside brackets, and what follows. -/
def splitHost : Bool → List Char → List Char × List Char
  | _, [] => ([], [])
  | inBrackets, c :: rest =>
    if c == ':' && !inBrackets then ([], c :: rest)
    else
      let (host, after) := splitHost (c == '[' || (inBrackets && c != ']')) rest
      (c :: host, after)

/-- The digits of a port: at most sixteen bits, none if it is the scheme's
own. A backslash ends them under every scheme, and what it starts is the path. -/
def parsePort (own : Option Nat) (s : List Char) : Except UrlError (Option Nat × List Char) :=
  let digits := s.takeWhile Char.isDigit
  let rest := s.dropWhile Char.isDigit
  let n := digits.foldl (fun n c => n * 10 + (c.toNat - '0'.toNat)) 0
  if 65535 < n || rest.head?.any (· != '\\') then .error .invalidPort
  else if digits.isEmpty || own == some n then .ok (none, rest)
  else .ok (some n, rest)

/-- Reads the authority, given up to where it ends: its parts, and what is
left for the path. `next` is what ends it. -/
def parseAuthority (kind : SchemeKind) (scheme s : List Char) (next : Option Char) :
    Except UrlError (Authority × List Char) := do
  let (userInfo, hostAndPort) := match splitAtLastAt s with
    | some (info, rest) => (some info, rest)
    | none => (none, s)
  if userInfo == some [] && hostAndPort.isEmpty && next.isSome then throw .emptyHost
  let (user, password) := parseUserInfo (userInfo.getD [])
  let (hostText, afterHost) := splitHost false hostAndPort
  if kind == .network && hostText.isEmpty then throw .emptyHost
  let host ← if kind.isSpecial then Host.parseSpecial hostText else Host.parsePlain hostText
  if host == .absent && !afterHost.isEmpty then throw .emptyHost
  let (port, rest) ← match afterHost with
    | ':' :: digits => parsePort (ownPort scheme) digits
    | _ => pure (none, afterHost)
  if host == .absent && (!user.isEmpty || password.isSome) then throw .emptyHost
  pure (⟨user, password, host, port⟩, rest)

/-- Is the segment one of the spellings of two dots? -/
def isDoubleDot (segment : List Char) : Bool :=
  ["..", ".%2e", "%2e.", "%2e%2e"].contains (String.ofList (segment.map Char.toLower))

/-- Is the segment one of the spellings of one dot? -/
def isSingleDot (segment : List Char) : Bool :=
  [".", "%2e"].contains (String.ofList (segment.map Char.toLower))

/-- Is the segment a drive letter with its colon or bar? -/
def isDriveLetter : List Char → Bool
  | [c, mark] => c.isAlpha && (mark == ':' || mark == '|')
  | _ => false

/-- Resolves dot segments. `done` are the segments read so far, the last one
first; the last segment of all is what follows the last slash. -/
def resolve (done : List (List Char)) : List (List Char) → List (List Char)
  | [] => done.reverse
  | [last] =>
    if isDoubleDot last then ([] :: up done).reverse
    else if isSingleDot last then ([] :: done).reverse
    else (last :: done).reverse
  | segment :: rest =>
    if isDoubleDot segment then resolve (up done) rest
    else if isSingleDot segment then resolve done rest
    else resolve (segment :: done) rest
where
  /-- Takes back the last segment, if there is one and it is no drive letter. -/
  up : List (List Char) → List (List Char)
    | [] => []
    | segment :: before => if isDriveLetter segment then segment :: before else before

/-- The path that the text after its first slash gives. -/
def rootedPath (kind : SchemeKind) (s : List Char) : List Char :=
  let segments := (s.map fun c => if isSlash kind c then '/' else c).splitOn '/'
  let escaped := segments.map (Percent.encode Percent.pathSet)
  '/' :: ['/'].intercalate (resolve [] escaped)

/-- The path below an authority: none, or rooted, with a slash put in front if
none is written; a special scheme always has one. -/
def pathBelow (kind : SchemeKind) (s : List Char) : List Char :=
  match s with
  | [] => if kind.isSpecial then ['/'] else []
  | c :: rest => rootedPath kind (if isSlash kind c then rest else c :: rest)

/-- What comes before the query, the query, and the fragment. -/
def splitParts (s : List Char) : List Char × Option (List Char) × Option (List Char) :=
  let main := s.takeWhile fun c => c != '?' && c != '#'
  match s.dropWhile fun c => c != '?' && c != '#' with
  | '?' :: rest =>
    let query := rest.takeWhile (· != '#')
    match rest.dropWhile (· != '#') with
    | _ :: fragment => (main, some query, some fragment)
    | [] => (main, some query, none)
  | _ :: fragment => (main, none, some fragment)
  | [] => (main, none, none)

/-- The authority (absent if only the path is written) and the path of the
text after a special scheme for files. -/
def parseFile (s : List Char) : Except UrlError (Option Authority × List Char) :=
  match s with
  | a :: b :: rest =>
    if isSlash .file a && isSlash .file b then
      let host := rest.takeWhile (!isSlash .file ·)
      if isDriveLetter host then
        .ok (some ⟨[], none, .absent, none⟩, pathBelow .file rest)
      else if host.isEmpty then
        .ok (some ⟨[], none, .absent, none⟩, pathBelow .file (rest.drop host.length))
      else do
        let read ← Host.parseSpecial host
        let read := if read = .domain "localhost".toList then .absent else read
        pure (some ⟨[], none, read, none⟩, pathBelow .file (rest.drop host.length))
    else .ok (some ⟨[], none, .absent, none⟩, pathBelow .file s)
  | _ => .ok (some ⟨[], none, .absent, none⟩, pathBelow .file s)

/-- The authority and the path of the text after two slashes. -/
def parseBelow (kind : SchemeKind) (scheme s : List Char) (next : Option Char) :
    Except UrlError (Option Authority × List Char) := do
  let written := s.takeWhile (!isSlash kind ·)
  let after := s.dropWhile (!isSlash kind ·)
  let (authority, rest) ← parseAuthority kind scheme written (after.head? <|> next)
  pure (some authority, pathBelow kind (rest ++ after))

/-- The authority and the path of the text after the scheme's colon; `next` is
the mark of the query or the fragment behind it. -/
def parseHierarchy (scheme s : List Char) (next : Option Char) :
    Except UrlError (Option Authority × List Char) :=
  match SchemeKind.of scheme with
  | .file => parseFile s
  | .network => parseBelow .network scheme (s.dropWhile (isSlash .network)) next
  | .plain =>
    match s with
    | '/' :: '/' :: rest => parseBelow .plain scheme rest next
    | '/' :: rest => .ok (none, rootedPath .plain rest)
    | _ => .ok (none, Percent.encode Percent.controlSet s)

/-- Reads an absolute URL. -/
def parse (s : String) : Except UrlError Url :=
  match splitScheme (significant s.toList) with
  | none => .error .relativeWithoutBase
  | some (scheme, rest) => do
    let (main, query, fragment) := splitParts rest
    let next := if query.isSome then some '?' else fragment.map fun _ => '#'
    let (authority, path) ← parseHierarchy scheme main next
    let querySet :=
      if (SchemeKind.of scheme).isSpecial then Percent.specialQuerySet else Percent.querySet
    pure ⟨scheme, authority, path, query.map (Percent.encode querySet),
      fragment.map (Percent.encode Percent.fragmentSet)⟩

end Url
end WorkloadIdentity
