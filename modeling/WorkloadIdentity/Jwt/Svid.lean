/-
# Token identities

A token is three texts with dots between them: a header, claims and a
signature, each in base64url. `JwtSvid.decode` reads header and claims, and
`JwtSvid.validate` checks the audience, which has to be exactly the expected
one, and the times, with a minute's leeway for clocks that differ.

Key definitions: `JwtSvid`, `JwtError`, `JwtSvid.decode`, `JwtSvid.validate`,
`JwtSvid.parseInsecure`.
-/
import WorkloadIdentity.Bundle.Jwt
import WorkloadIdentity.Jwt.Algorithm
import WorkloadIdentity.Jwt.Header
import WorkloadIdentity.Text.Base64Url
import WorkloadIdentity.Text.Quoted

namespace WorkloadIdentity

/-- A claim that holds a time. -/
inductive DateClaim where
  | expiry
  | notBefore
  | issuedAt
  deriving DecidableEq, Repr

/-- The claim's name. -/
def DateClaim.name : DateClaim → String
  | expiry => "exp"
  | notBefore => "nbf"
  | issuedAt => "iat"

/-- Why a token is refused. -/
inductive JwtError where
  | missingSubject
  | invalidSubject (cause : IdError)
  | missingExpiration
  | missingKeyId
  | invalidType
  | invalidTimestamp (claim : DateClaim)
  | invalidAudienceClaim
  | unsupportedAlgorithm (name : String)
  /-- Not three texts with dots between them. -/
  | invalidFormat
  /-- A text is no base64url, or too long. -/
  | invalidBase64
  | invalidJson
  | bundleNotFound (trustDomain : TrustDomain)
  | authorityNotFound (keyId : String)
  | invalidAudience (actual expected : List String)
  | expired
  | notYetValid
  | issuedInTheFuture
  /-- The source of bundles could not answer. -/
  | bundleSource (reason : String)
  /-- The stored key cannot be read. -/
  | invalidAuthorityJwk
  /-- The signature is wrong, or the key does not fit the algorithm. -/
  | invalidSignature
  deriving DecidableEq, Repr

/-- The wording of each cause. -/
def JwtError.message : JwtError → String
  | missingSubject => "token is missing the 'sub' claim"
  | invalidSubject cause => "token 'sub' is not a SPIFFE ID: " ++ cause.message
  | missingExpiration => "token is missing the 'exp' claim"
  | missingKeyId => "token header has no 'kid'"
  | invalidType => "token header 'typ' must be 'JWT' or 'JOSE'"
  | invalidTimestamp claim => "invalid token '" ++ claim.name ++ "' claim"
  | invalidAudienceClaim => "invalid token 'aud' claim"
  | unsupportedAlgorithm name => "unsupported token signature algorithm: " ++ name
  | invalidFormat => "token is not a compact JWS"
  | invalidBase64 => "token segment is not valid base64url"
  | invalidJson => "token segment is not valid JSON"
  | bundleNotFound trustDomain => "no JWT bundle for trust domain " ++ trustDomain.name
  | authorityNotFound keyId => "no JWT authority with key ID " ++ keyId
  | invalidAudience actual expected =>
    "token audience " ++ Quoted.list actual ++ " differs from expected " ++ Quoted.list expected
  | expired => "token has expired"
  | notYetValid => "token is not valid yet"
  | issuedInTheFuture => "token issued in the future"
  | bundleSource _ => "JWT bundle lookup failed"
  | invalidAuthorityJwk => "authority JWK is invalid"
  | invalidSignature => "token signature does not verify"

/-- An identity document in the form of a token. -/
structure JwtSvid where
  /-- The subject. -/
  spiffeId : SpiffeId
  /-- What the agent says the identity is for. -/
  hint : Option String
  /-- Unix time in seconds. -/
  expiry : Int
  /-- The different audiences, in order. -/
  audience : List String
  claims : Keyed Json
  keyId : Option String
  algorithm : JwtAlgorithm
  /-- The token itself. -/
  token : String
  deriving Repr

namespace JwtSvid

/-- Seconds that clocks may differ by. -/
def leeway : Int := 60

/-- How many entries an array of audiences may have. -/
def maxAudienceCount : Nat := 32

/-- Octets of a header or of claims. -/
def maxSegmentSize : Nat := 64 * 1024

/-- How many characters a segment may have. -/
def maxSegmentLength : Nat := maxSegmentSize * 4 / 3 + 4

/-- The greatest number of a signed word of 64 bits. -/
def maxTime : Int := 9223372036854775807

/-- The least number of a signed word of 64 bits. -/
def minTime : Int := -9223372036854775808

/-- The nearest number of a signed word of 64 bits. -/
def clampTime (t : Int) : Int := max minTime (min t maxTime)

/-- The first and the last second an expiry can name: the years -9999 to
9999. -/
def expiryRange : Int × Int := (-377705116800, 253402300799)

/-- Reads a segment that is not too long. -/
def decodeSegment (s : List Char) : Except JwtError Bytes :=
  if maxSegmentLength < s.length then .error .invalidBase64
  else match Base64Url.decode s with
    | some octets => .ok octets
    | none => .error .invalidBase64

/-- The time that a claim holds, if there is one; a fraction is cut off, and
one that no word of 64 bits can hold is the nearest that can. -/
def date? (claims : Keyed Json) (claim : DateClaim) : Except JwtError (Option Int) :=
  match Keyed.find? claim.name claims with
  | none => .ok none
  | some .null => .ok none
  | some (.number (.integer n)) => .ok (some (clampTime n))
  | some (.number (.real x)) => .ok (some (clampTime x.truncate))
  | some _ => .error (.invalidTimestamp claim)

/-- The different audiences that the claim names. -/
def audience? (claims : Keyed Json) : Except JwtError (List String) :=
  match Keyed.find? "aud" claims with
  | none => .ok []
  | some .null => .ok []
  | some (.string s) => .ok [s]
  | some (.array items) =>
    if maxAudienceCount < items.length then .error .invalidAudienceClaim
    else match items.mapM Json.string? with
      | some texts => .ok (distinct texts)
      | none => .error .invalidAudienceClaim
  | some _ => .error .invalidAudienceClaim

/-- Reads the header segment. -/
def readHeader (segment : List Char) : Except JwtError JwtHeader := do
  match JwtHeader.read (← decodeSegment segment) with
  | some header => pure header
  | none => throw .invalidJson

/-- Reads the claims segment. -/
def readClaims (segment : List Char) : Except JwtError (Keyed Json) := do
  match Json.parse (← decodeSegment segment) with
  | some (.object claims) => pure claims
  | _ => throw .invalidJson

/-- The identity that a subject names. -/
def readSubject (claims : Keyed Json) : Except JwtError SpiffeId :=
  match Keyed.find? "sub" claims with
  | some (.string subject) =>
    if subject.isEmpty then .error .missingSubject
    else match SpiffeId.parse subject with
      | .ok id => .ok id
      | .error cause => .error (.invalidSubject cause)
  | _ => .error .missingSubject

/-- The time of expiry, which a calendar has to be able to name. -/
def readExpiry (claims : Keyed Json) : Except JwtError Int := do
  match ← date? claims .expiry with
  | none => throw .missingExpiration
  | some t =>
    if expiryRange.1 ≤ t ∧ t ≤ expiryRange.2 then pure t else throw (.invalidTimestamp .expiry)

/-- Checks the type of a token, if it says one. -/
def checkType : Option String → Except JwtError Unit
  | none => .ok ()
  | some type => if type = "JWT" ∨ type = "JOSE" then .ok () else .error .invalidType

/-- The algorithm of a name. -/
def readAlgorithm (name : String) : Except JwtError JwtAlgorithm :=
  match JwtAlgorithm.ofName? name with
  | some algorithm => .ok algorithm
  | none => .error (.unsupportedAlgorithm name)

/-- The token of a header and claims. -/
def ofParts (token : String) (header : JwtHeader) (claims : Keyed Json) :
    Except JwtError JwtSvid := do
  checkType header.type
  let algorithm ← readAlgorithm header.algorithm
  let spiffeId ← readSubject claims
  let expiry ← readExpiry claims
  let audience ← audience? claims
  pure ⟨spiffeId, none, expiry, audience, claims, header.keyId, algorithm, token⟩

/-- Reads a token; neither its signature nor what it claims is checked. -/
def decode (token : String) : Except JwtError JwtSvid :=
  match token.toList.splitOn '.' with
  | [header, claims, _] => do
    let header ← readHeader header
    let claims ← readClaims claims
    ofParts token header claims
  | _ => .error .invalidFormat

/-- Checks that a token's audience is the expected one. -/
def checkAudience (actual expected : List String) : Except JwtError Unit :=
  if actual = expected then .ok () else .error (.invalidAudience actual expected)

/-- Checks that the time a claim holds, if there is one, has come. -/
def checkBegun (claims : Keyed Json) (claim : DateClaim) (now : Int) (refusal : JwtError) :
    Except JwtError Unit := do
  match ← date? claims claim with
  | some t => if t ≤ clampTime (now + leeway) then pure () else throw refusal
  | none => pure ()

/-- Checks that a time has not passed. -/
def checkUnexpired (expiry : Int) (now : Int) : Except JwtError Unit :=
  if clampTime (now - leeway) ≤ expiry then .ok () else .error .expired

/-- Checks the audience and, at a time, the times of a token, in the order
not before, expiry, issued at. -/
def validate (svid : JwtSvid) (expectedAudience : List String) (now : Int) :
    Except JwtError Unit := do
  checkAudience svid.audience (distinct expectedAudience)
  checkBegun svid.claims .notBefore now .notYetValid
  checkUnexpired svid.expiry now
  checkBegun svid.claims .issuedAt now .issuedInTheFuture

/-- Reads a token and checks its claims, but not its signature. -/
def parseInsecure (token : String) (expectedAudience : List String) (now : Int) :
    Except JwtError JwtSvid := do
  let svid ← decode token
  svid.validate expectedAudience now
  pure svid

/-- The same token with a hint. -/
def withHint (svid : JwtSvid) (hint : String) : JwtSvid := { svid with hint := some hint }

end JwtSvid
end WorkloadIdentity
