/-
# Bundles by trust domain

A bundle holds what a trust domain's identities are verified with. A
`BundleSet` keeps at most one bundle per trust domain, in the order of the trust
domains' names; adding one replaces the bundle of its trust domain. A
`BundleSource` answers for a trust domain with a bundle, with none, or not at
all.

Key definitions: `HasTrustDomain`, `BundleSet`, `BundleSource`.
-/
import WorkloadIdentity.Id.Basic
import WorkloadIdentity.Keyed

namespace WorkloadIdentity

/-- What belongs to one trust domain. -/
class HasTrustDomain (β : Type) where
  trustDomain : β → TrustDomain

/-- Answers with the bundle of a trust domain, or with the reason why it
cannot. -/
abbrev BundleSource (β : Type) := TrustDomain → Except String (Option β)

/-- Bundles by the names of their trust domains. -/
structure BundleSet (β : Type) where
  entries : Keyed β

namespace BundleSet

variable {β : Type}

/-- No bundle. -/
def empty : BundleSet β := ⟨[]⟩

/-- The bundle of a trust domain. -/
def find? (set : BundleSet β) (trustDomain : TrustDomain) : Option β :=
  Keyed.find? trustDomain.name set.entries

/-- Adds a bundle under its trust domain. -/
def insert [HasTrustDomain β] (set : BundleSet β) (bundle : β) : BundleSet β :=
  ⟨Keyed.insert (HasTrustDomain.trustDomain bundle).name bundle set.entries⟩

/-- Adds bundles one after the other. -/
def extend [HasTrustDomain β] (set : BundleSet β) (bundles : List β) : BundleSet β :=
  bundles.foldl insert set

/-- The set of a list of bundles. -/
def ofList [HasTrustDomain β] (bundles : List β) : BundleSet β := empty.extend bundles

/-- The bundles in order. -/
def toList (set : BundleSet β) : List β := set.entries.map (·.2)

/-- The names of the trust domains in order. -/
def names (set : BundleSet β) : List String := set.entries.map (·.1)

/-- How many bundles there are. -/
def size (set : BundleSet β) : Nat := set.entries.length

/-- A set answers for every trust domain. -/
def source (set : BundleSet β) : BundleSource β := fun trustDomain => .ok (set.find? trustDomain)

end BundleSet
end WorkloadIdentity
