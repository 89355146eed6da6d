/-
# Signature algorithms of tokens

The nine algorithms a token may be signed with: three signature schemes with
hashes of 256, 384 and 512 bits each. No other name is accepted.

Key definitions: `JwtAlgorithm`, `JwtAlgorithm.ofName?`, `JwtAlgorithm.name`.
-/

namespace WorkloadIdentity

/-- A signature algorithm. -/
inductive JwtAlgorithm where
  /-- RSA with the padding of PKCS #1, version 1.5. -/
  | rs256
  | rs384
  | rs512
  /-- ECDSA on the curve P-256. -/
  | es256
  /-- ECDSA on the curve P-384. -/
  | es384
  /-- ECDSA on the curve P-521. -/
  | es512
  /-- RSA with probabilistic padding. -/
  | ps256
  | ps384
  | ps512
  deriving DecidableEq, Repr

namespace JwtAlgorithm

/-- The algorithm's name in a token's header. -/
def name : JwtAlgorithm → String
  | rs256 => "RS256"
  | rs384 => "RS384"
  | rs512 => "RS512"
  | es256 => "ES256"
  | es384 => "ES384"
  | es512 => "ES512"
  | ps256 => "PS256"
  | ps384 => "PS384"
  | ps512 => "PS512"

/-- Every algorithm. -/
def all : List JwtAlgorithm :=
  [rs256, rs384, rs512, es256, es384, es512, ps256, ps384, ps512]

/-- The algorithm of a name, compared letter by letter. -/
def ofName? (s : String) : Option JwtAlgorithm := all.find? (·.name == s)

end JwtAlgorithm
end WorkloadIdentity
