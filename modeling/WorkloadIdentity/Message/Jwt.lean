/-
# JWT messages

What a workload and an agent send about JWT identities: a request for tokens and
the tokens issued, the key sets of trust domains, and a token to validate.

Key definitions: `JwtSvidRequest`, `JwtSvidEntry`, `JwtSvidResponse`,
`JwtBundlesResponse`, `ValidateRequest`.
-/
import WorkloadIdentity.Keyed
import WorkloadIdentity.Wire.Field

namespace WorkloadIdentity

/-- Asks for tokens for an audience, of one identity or of all (`""`). -/
structure JwtSvidRequest where
  audience : List String
  spiffeId : String
  deriving DecidableEq, Repr

/-- An issued token. -/
structure JwtSvidEntry where
  spiffeId : String
  token : String
  hint : String
  deriving DecidableEq, Repr

/-- The tokens issued for a request. -/
structure JwtSvidResponse where
  svids : List JwtSvidEntry
  deriving DecidableEq, Repr

/-- The key sets of trust domains. -/
structure JwtBundlesResponse where
  bundles : List (String × Bytes)
  deriving DecidableEq, Repr

/-- Asks whether a token holds for an audience. -/
structure ValidateRequest where
  audience : String
  token : String
  deriving DecidableEq, Repr

namespace JwtSvidRequest

/-- The message on the wire. -/
def encode (m : JwtSvidRequest) : Bytes :=
  Wire.writeEach 1 (m.audience.map Utf8.encode) ++ Wire.writeText 2 m.spiffeId

/-- What the message makes of a field. -/
def use (number : Nat) : Wire.Use := if number = 1 ∨ number = 2 then .block else .skip

/-- Reads the message. -/
def decode? (octets : Bytes) : Option JwtSvidRequest := do
  let fields ← Wire.readFields use Wire.outerLimit octets
  let audience ← Wire.texts? 1 fields
  let spiffeId ← Wire.text? 2 fields
  pure ⟨audience, spiffeId⟩

end JwtSvidRequest

namespace JwtSvidEntry

/-- The message on the wire. -/
def encode (m : JwtSvidEntry) : Bytes :=
  Wire.writeText 1 m.spiffeId ++ Wire.writeText 2 m.token ++ Wire.writeText 3 m.hint

/-- What the message makes of a field. -/
def use (number : Nat) : Wire.Use := if 1 ≤ number ∧ number ≤ 3 then .block else .skip

/-- Reads the message, in which groups are nested so deep at most. -/
def read? (limit : Nat) (octets : Bytes) : Option JwtSvidEntry := do
  let fields ← Wire.readFields use limit octets
  let spiffeId ← Wire.text? 1 fields
  let token ← Wire.text? 2 fields
  let hint ← Wire.text? 3 fields
  pure ⟨spiffeId, token, hint⟩

/-- Reads the message where it stands alone. -/
def decode? (octets : Bytes) : Option JwtSvidEntry := read? Wire.outerLimit octets

end JwtSvidEntry

namespace JwtSvidResponse

/-- The message on the wire. -/
def encode (m : JwtSvidResponse) : Bytes := Wire.writeEach 1 (m.svids.map JwtSvidEntry.encode)

/-- What the message makes of a field. -/
def use (number : Nat) : Wire.Use := if number = 1 then .block else .skip

/-- Reads the message. -/
def decode? (octets : Bytes) : Option JwtSvidResponse := do
  let fields ← Wire.readFields use Wire.outerLimit octets
  let svids ← (Wire.blocks 1 fields).mapM (JwtSvidEntry.read? Wire.innerLimit)
  pure ⟨svids⟩

end JwtSvidResponse

namespace JwtBundlesResponse

/-- The message on the wire. -/
def encode (m : JwtBundlesResponse) : Bytes := Wire.writeEntries 1 m.bundles

/-- What the message makes of a field. -/
def use (number : Nat) : Wire.Use := if number = 1 then .entry else .skip

/-- Reads the message. -/
def decode? (octets : Bytes) : Option JwtBundlesResponse := do
  let fields ← Wire.readFields use Wire.outerLimit octets
  let entries ← Wire.entries? 1 fields
  pure ⟨Keyed.ofList entries⟩

end JwtBundlesResponse

namespace ValidateRequest

/-- The message on the wire. -/
def encode (m : ValidateRequest) : Bytes :=
  Wire.writeText 1 m.audience ++ Wire.writeText 2 m.token

/-- What the message makes of a field. -/
def use (number : Nat) : Wire.Use := if number = 1 ∨ number = 2 then .block else .skip

/-- Reads the message. -/
def decode? (octets : Bytes) : Option ValidateRequest := do
  let fields ← Wire.readFields use Wire.outerLimit octets
  let audience ← Wire.text? 1 fields
  let token ← Wire.text? 2 fields
  pure ⟨audience, token⟩

end ValidateRequest
end WorkloadIdentity
