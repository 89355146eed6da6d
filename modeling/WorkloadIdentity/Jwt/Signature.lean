/-
# Token signatures

The signature of a token is over the text of its header and claims with the dot
between them. The algorithm in the header picks the scheme, and the key has to
be of the scheme's family.

Except under P-521, header and claims are read once more for the signature, by
the registered names: a registered member of the header has to be of its type,
no registered member of either may be given twice, and a time may not be an
array or object with something in it. A token that fails this has no valid
signature.

Key definitions: `JwtSvid.verifySignature`, `JwtSvid.parseAndValidate`,
`JwtHeader.isRegular`.
-/
import WorkloadIdentity.Jwt.Key
import WorkloadIdentity.Jwt.Svid
import WorkloadIdentity.Signature.Ecdsa
import WorkloadIdentity.Signature.Rsa

namespace WorkloadIdentity

namespace JwtAlgorithm

/-- A signature scheme with its hash. -/
inductive Scheme where
  | rsaFixed (hash : Hash)
  | rsaSalted (hash : Hash)
  | ecdsa (curve : Curve) (hash : Hash)

/-- The scheme of an algorithm. -/
def scheme : JwtAlgorithm → Scheme
  | rs256 => .rsaFixed .sha256
  | rs384 => .rsaFixed .sha384
  | rs512 => .rsaFixed .sha512
  | ps256 => .rsaSalted .sha256
  | ps384 => .rsaSalted .sha384
  | ps512 => .rsaSalted .sha512
  | es256 => .ecdsa Curve.p256 .sha256
  | es384 => .ecdsa Curve.p384 .sha384
  | es512 => .ecdsa Curve.p521 .sha512

end JwtAlgorithm

namespace JwtKey

/-- The RSA key of the texts of a modulus and an exponent. -/
def rsaKey? (n e : String) : Option RsaKey := do
  RsaKey.ofOctets? (← Base64Url.decode n.toList) (← Base64Url.decode e.toList)

/-- Does the signature sign the text under the key? A key of another family
signs nothing. -/
def verifies (key : JwtKey) (scheme : JwtAlgorithm.Scheme) (message signature : Bytes) : Bool :=
  match scheme, key with
  | .rsaFixed hash, .rsa n e => (rsaKey? n e).any (·.verifyFixed hash message signature)
  | .rsaSalted hash, .rsa n e => (rsaKey? n e).any (·.verifySalted hash message signature)
  | .ecdsa curve hash, .ec x y =>
    ((ecPoint? x y).bind (EcKey.ofOctets? curve)).any (·.verifyFixed hash message signature)
  | _, _ => false

end JwtKey

namespace JwtHeader

/-- Is the text null or a text? -/
def isOptionalText (value : Bytes) : Bool := (readOptional value).isSome

/-- Is the text null or an array of texts? -/
def isOptionalTexts (value : Bytes) : Bool :=
  match Json.parse value with
  | some .null => true
  | some value => JwtKey.isTexts value
  | none => false

/-- Is the text null or a key? -/
def isOptionalKey (value : Bytes) : Bool :=
  match Json.parse value with
  | some .null => true
  | some value => (JwtKey.ofJson? value).isSome
  | none => false

/-- Is a member given at most once, and then of its type? -/
def isRegularMember (members : List (String × Bytes)) (name : String) (test : Bytes → Bool) :
    Bool :=
  match valuesOf name members with
  | [] => true
  | [value] => test value
  | _ => false

/-- Is the header an object whose registered members are of their types? -/
def isRegular (octets : Bytes) : Bool :=
  match (Json.splitMembers octets).bind fun members =>
      members.mapM fun (name, value) => do pure (← readText name, value) with
  | some members =>
    let regular := isRegularMember members
    regular "typ" isOptionalText && regular "cty" isOptionalText && regular "jku" isOptionalText &&
      regular "jwk" isOptionalKey && regular "kid" isOptionalText && regular "x5u" isOptionalText &&
      regular "x5c" isOptionalTexts && regular "x5t" isOptionalText &&
      regular "x5t#S256" isOptionalText
  | none => false

end JwtHeader

namespace JwtSvid

/-- Is the time no array and no object, or one with nothing in it? -/
def isFlat (value : Bytes) : Bool :=
  match Json.parse value with
  | some (.array items) => items.isEmpty
  | some (.object members) => members.isEmpty
  | _ => true

/-- Is no registered member of the claims given twice, and every time flat? -/
def claimsAreRegular (octets : Bytes) : Bool :=
  match (Json.splitMembers octets).bind fun members =>
      members.mapM fun (name, value) => do pure (← JwtHeader.readText name, value) with
  | some members =>
    let regular := JwtHeader.isRegularMember members
    regular "exp" isFlat && regular "nbf" isFlat && regular "sub" (fun _ => true) &&
      regular "iss" (fun _ => true) && regular "aud" (fun _ => true)
  | none => false

/-- The text that is signed. -/
def signedText (header claims : List Char) : Bytes :=
  Utf8.encode (String.ofList (header ++ '.' :: claims))

/-- Are header and claims regular when read for the signature? -/
def isRegular (header claims : List Char) : Bool :=
  (Base64Url.decode header).any JwtHeader.isRegular &&
    (Base64Url.decode claims).any claimsAreRegular

/-- Checks the signature of header and claims by a stored key, under an
algorithm other than ES512. -/
def verifyRegistered (algorithm : JwtAlgorithm) (jwk : Bytes)
    (header claims signature : List Char) :
    Except JwtError Unit :=
  match (Json.parse jwk).bind JwtKey.ofJson? with
  | none => .error .invalidAuthorityJwk
  | some key =>
    match Base64Url.decode signature with
    | some signature =>
      if isRegular header claims &&
          key.verifies algorithm.scheme (signedText header claims) signature then .ok ()
      else .error .invalidSignature
    | none => .error .invalidSignature

/-- The texts of the coordinates of a key on P-521. -/
def p521Coordinates? (jwk : Json) : Option (String × String) :=
  if jwk.memberString? "kty" = some "EC" ∧ jwk.memberString? "crv" = some "P-521" then do
    pure (← jwk.memberString? "x", ← jwk.memberString? "y")
  else none

/-- The key on P-521 that a stored key says. -/
def p521Key? (jwk : Json) : Option EcKey := do
  let (x, y) ← p521Coordinates? jwk
  let x ← (decodeSegment x.toList).toOption
  let y ← (decodeSegment y.toList).toOption
  EcKey.ofOctets? Curve.p521 (4 :: x ++ y)

/-- Checks the signature of header and claims by a stored key on P-521. Here
the signature is a segment like the others. -/
def verifyP521 (jwk : Bytes) (header claims signature : List Char) : Except JwtError Unit :=
  match Json.parse jwk with
  | none => .error .invalidAuthorityJwk
  | some jwk =>
    match p521Key? jwk with
    | none => .error .invalidSignature
    | some key => do
      let signature ← decodeSegment signature
      if key.verifyFixed .sha512 (signedText header claims) signature then pure ()
      else throw .invalidSignature

/-- Checks the signature of a token by a stored key. -/
def verifySignature (token : String) (algorithm : JwtAlgorithm) (authority : JwtAuthority) :
    Except JwtError Unit :=
  match token.toList.splitOn '.' with
  | [header, claims, signature] =>
    if algorithm = .es512 then verifyP521 (Utf8.encode authority.jwk) header claims signature
    else verifyRegistered algorithm (Utf8.encode authority.jwk) header claims signature
  | _ => .error .invalidFormat

/-- The key that a trust domain's bundle has under a key ID. -/
def findAuthority (source : BundleSource JwtBundle) (trustDomain : TrustDomain)
    (keyId : Option String) : Except JwtError JwtAuthority :=
  match source trustDomain with
  | .error reason => .error (.bundleSource reason)
  | .ok none => .error (.bundleNotFound trustDomain)
  | .ok (some bundle) =>
    match keyId with
    | none => .error .missingKeyId
    | some keyId =>
      match bundle.find? keyId with
      | some authority => .ok authority
      | none => .error (.authorityNotFound keyId)

/-- Reads a token, verifies its signature by the key that its trust domain has
under its key ID, and checks its claims. -/
def parseAndValidate (token : String) (source : BundleSource JwtBundle)
    (expectedAudience : List String) (now : Int) : Except JwtError JwtSvid := do
  let svid ← decode token
  let authority ← findAuthority source svid.spiffeId.trustDomain svid.keyId
  verifySignature token svid.algorithm authority
  svid.validate expectedAudience now
  pure svid

end JwtSvid
end WorkloadIdentity
