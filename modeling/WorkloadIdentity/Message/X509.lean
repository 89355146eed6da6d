/-
# X.509 messages

What an agent sends about X.509 identities: the identities it issues, each with
its chain, key and bundle, the bundles of other trust domains, and revocation
lists. A map of bundles is a list of entries with different keys; a reader takes
the last entry of each key.

Key definitions: `X509SvidEntry`, `X509SvidResponse`, `X509BundlesResponse`,
`X509SvidResponse.encode`, `X509SvidResponse.decode?`.
-/
import WorkloadIdentity.Keyed
import WorkloadIdentity.Wire.Field

namespace WorkloadIdentity

/-- An issued identity. -/
structure X509SvidEntry where
  spiffeId : String
  /-- The certificates from the leaf on, one after the other. -/
  chain : Bytes
  privateKey : Bytes
  /-- The authorities of the identity's trust domain, one after the other. -/
  bundle : Bytes
  hint : String
  deriving DecidableEq, Repr

/-- The identities of a workload, and the bundles of other trust domains. -/
structure X509SvidResponse where
  svids : List X509SvidEntry
  revocationLists : List Bytes
  federatedBundles : List (String × Bytes)
  deriving DecidableEq, Repr

/-- The bundles of trust domains. -/
structure X509BundlesResponse where
  revocationLists : List Bytes
  bundles : List (String × Bytes)
  deriving DecidableEq, Repr

namespace X509SvidEntry

/-- The message on the wire. -/
def encode (m : X509SvidEntry) : Bytes :=
  Wire.writeText 1 m.spiffeId ++ Wire.writeBlock 2 m.chain ++ Wire.writeBlock 3 m.privateKey ++
    Wire.writeBlock 4 m.bundle ++ Wire.writeText 5 m.hint

/-- What the message makes of a field. -/
def use (number : Nat) : Wire.Use := if 1 ≤ number ∧ number ≤ 5 then .block else .skip

/-- Reads the message, in which groups are nested so deep at most. -/
def read? (limit : Nat) (octets : Bytes) : Option X509SvidEntry := do
  let fields ← Wire.readFields use limit octets
  let spiffeId ← Wire.text? 1 fields
  let hint ← Wire.text? 5 fields
  pure ⟨spiffeId, Wire.block 2 fields, Wire.block 3 fields, Wire.block 4 fields, hint⟩

/-- Reads the message where it stands alone. -/
def decode? (octets : Bytes) : Option X509SvidEntry := read? Wire.outerLimit octets

end X509SvidEntry

namespace X509SvidResponse

/-- The message on the wire. -/
def encode (m : X509SvidResponse) : Bytes :=
  Wire.writeEach 1 (m.svids.map X509SvidEntry.encode) ++ Wire.writeEach 2 m.revocationLists ++
    Wire.writeEntries 3 m.federatedBundles

/-- What the message makes of a field. -/
def use : Nat → Wire.Use
  | 1 | 2 => .block
  | 3 => .entry
  | _ => .skip

/-- Reads the message. -/
def decode? (octets : Bytes) : Option X509SvidResponse := do
  let fields ← Wire.readFields use Wire.outerLimit octets
  let svids ← (Wire.blocks 1 fields).mapM (X509SvidEntry.read? Wire.innerLimit)
  let entries ← Wire.entries? 3 fields
  pure ⟨svids, Wire.blocks 2 fields, Keyed.ofList entries⟩

end X509SvidResponse

namespace X509BundlesResponse

/-- The message on the wire. -/
def encode (m : X509BundlesResponse) : Bytes :=
  Wire.writeEach 1 m.revocationLists ++ Wire.writeEntries 2 m.bundles

/-- What the message makes of a field. -/
def use : Nat → Wire.Use
  | 1 => .block
  | 2 => .entry
  | _ => .skip

/-- Reads the message. -/
def decode? (octets : Bytes) : Option X509BundlesResponse := do
  let fields ← Wire.readFields use Wire.outerLimit octets
  let entries ← Wire.entries? 2 fields
  pure ⟨Wire.blocks 1 fields, Keyed.ofList entries⟩

end X509BundlesResponse
end WorkloadIdentity
