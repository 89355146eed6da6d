/-
# URLs

A parsed URL as the living standard for URLs has it: scheme, authority, path,
query and fragment, each in its normal form and escaped. The path is kept as
text: below an authority it is empty or starts with a slash; without one it may
also be any text, and the URL then cannot be the base of another one.

Key definitions: `UrlError`, `Url`, `Url.text`, `Url.Host`.
-/
import WorkloadIdentity.Net.Address

namespace WorkloadIdentity

/-- Why a text is not a URL. -/
inductive UrlError where
  /-- There is no scheme. -/
  | relativeWithoutBase
  /-- The scheme, the user info or the port needs a host, and there is none. -/
  | emptyHost
  /-- The port is not a number of 16 bits. -/
  | invalidPort
  /-- The host of a special scheme is not a domain name. -/
  | invalidDomain
  /-- The host of a special scheme ends in a number but is no address. -/
  | invalidIpv4
  /-- The text between brackets is no version 6 address. -/
  | invalidIpv6
  /-- The host of another scheme holds a character no host can hold. -/
  | invalidHostCharacter
  deriving DecidableEq, Repr

/-- The wording of each cause. -/
def UrlError.message : UrlError → String
  | relativeWithoutBase => "relative URL without a base"
  | emptyHost => "empty host"
  | invalidPort => "invalid port number"
  | invalidDomain => "invalid international domain name"
  | invalidIpv4 => "invalid IPv4 address"
  | invalidIpv6 => "invalid IPv6 address"
  | invalidHostCharacter => "invalid domain character"

/-- The host of a URL. -/
inductive Url.Host where
  /-- No host between the two slashes and the path. -/
  | absent
  /-- A name, escaped. -/
  | domain (text : List Char)
  | v4 (address : Ipv4)
  | v6 (address : Ipv6)
  deriving DecidableEq, Repr

/-- The host in writing. -/
def Url.Host.text : Url.Host → List Char
  | .absent => []
  | .domain s => s
  | .v4 x => x.text
  | .v6 x => '[' :: x.text ++ [']']

/-- What follows the two slashes. -/
structure Url.Authority where
  /-- Escaped; empty if there is none. -/
  user : List Char
  /-- Escaped; an empty one does not count. -/
  password : Option (List Char)
  host : Url.Host
  /-- Absent if it is the scheme's own. -/
  port : Option Nat
  deriving DecidableEq, Repr

/-- The authority in writing. -/
def Url.Authority.text (a : Url.Authority) : List Char :=
  let password := match a.password with
    | some p => ':' :: p
    | none => []
  let userInfo := a.user ++ password
  let port := match a.port with
    | some n => ':' :: decimal n
    | none => []
  userInfo ++ (if userInfo.isEmpty then [] else ['@']) ++ a.host.text ++ port

/-- A URL by its parts. -/
structure Url where
  /-- In lower case. -/
  scheme : List Char
  authority : Option Url.Authority
  path : List Char
  query : Option (List Char)
  fragment : Option (List Char)
  deriving DecidableEq, Repr

namespace Url

/-- A URL whose path is no path below anything: `mailto:` and its like. -/
def cannotBeABase (u : Url) : Bool :=
  u.authority.isNone && u.path.head? != some '/'

/-- The URL in writing. A path that would read as an authority is set off by
a dot segment. -/
def text (u : Url) : List Char :=
  let authority := match u.authority with
    | some a => '/' :: '/' :: a.text
    | none => if u.path.take 2 == ['/', '/'] then ['/', '.'] else []
  let query := match u.query with
    | some q => '?' :: q
    | none => []
  let fragment := match u.fragment with
    | some f => '#' :: f
    | none => []
  u.scheme ++ ':' :: authority ++ u.path ++ query ++ fragment

/-- The user name, empty if there is none. -/
def user (u : Url) : List Char := (u.authority.map (·.user)).getD []

/-- The password, if there is one. -/
def password (u : Url) : Option (List Char) := u.authority.bind (·.password)

/-- The host, absent if there is no authority. -/
def host (u : Url) : Host := (u.authority.map (·.host)).getD .absent

/-- The port, if it is written and not the scheme's own. -/
def port (u : Url) : Option Nat := u.authority.bind (·.port)

end Url
end WorkloadIdentity
