/-
# What a set of bundles shows

A set of bundles shows the last bundle of each trust domain that was added since
the set was last made anew, and nothing else. Its entries come in the order of
the octets of the trust domains' names, each under the name of its own bundle's
trust domain, and there are as many as different trust domains were added. So a
set does not tell in which order its bundles came, as long as the same bundle was
the last of each trust domain (`BundleSet.last_write_stays`). This holds of sets
of any kind of bundles.

Key theorems: `BundleSet.mem_entries_ofList_iff`, `BundleSet.ordered_ofList`,
`BundleSet.names_ofList`, `BundleSet.size_ofList`, `BundleSet.last_write_stays`.
-/
import Mathlib.Data.Finset.Card
import WorkloadIdentity.Bundle.X509
import WorkloadIdentity.Proofs.Bundle.History
import WorkloadIdentity.Proofs.Text.Utf8

namespace WorkloadIdentity
namespace BundleSet

variable {β : Type} [HasTrustDomain β]

/-! ### Entries -/

/-- Under the name of a trust domain stands the last bundle of it. -/
theorem mem_entries_ofList_iff {bundles : List β} {td : TrustDomain} {bundle : β} :
    (td.name, bundle) ∈ (ofList bundles).entries ↔ lastOf td bundles = some bundle := by
  rw [← find?_ofList, ← Keyed.find?_eq_some_iff_mem (sorted_ofList bundles)]
  rfl

theorem trustDomain_of_lastOf {bundles : List β} {td : TrustDomain} {bundle : β}
    (h : lastOf td bundles = some bundle) : HasTrustDomain.trustDomain bundle = td :=
  (lastOf_eq_some_iff.mp h).1

/-- Every bundle stands under the name of its own trust domain. -/
theorem names_ofList (bundles : List β) : (ofList bundles).names =
    (ofList bundles).toList.map fun bundle => (HasTrustDomain.trustDomain bundle).name := by
  unfold names toList
  rw [List.map_map]
  refine List.map_congr_left fun entry hentry => ?_
  have hlast : lastOf ⟨entry.1⟩ bundles = some entry.2 := mem_entries_ofList_iff.mp hentry
  exact congrArg TrustDomain.name (trustDomain_of_lastOf hlast).symm

/-- The names are in the order of their octets. -/
theorem ordered_ofList (bundles : List β) :
    (ofList bundles).entries.Pairwise fun a b => Utf8.encode a.1 < Utf8.encode b.1 :=
  (List.pairwise_map.mp (sorted_ofList bundles)).imp fun h => (Utf8.encode_lt_encode_iff _ _).mpr h

/-- There is an entry for each of the different trust domains. -/
theorem size_ofList (bundles : List β) :
    (ofList bundles).size = (bundles.map HasTrustDomain.trustDomain).toFinset.card := by
  have hnodup : ((ofList bundles).names.map TrustDomain.mk).Nodup := by
    refine List.Nodup.map (fun a b h => congrArg TrustDomain.name h) ?_
    exact (sorted_ofList bundles).imp ne_of_lt
  have hsame : ((ofList bundles).names.map TrustDomain.mk).toFinset =
      (bundles.map HasTrustDomain.trustDomain).toFinset := by
    ext td
    have hname : td ∈ (ofList bundles).names.map TrustDomain.mk ↔
        td.name ∈ (ofList bundles).names := by
      rw [List.mem_map]
      exact ⟨fun ⟨_, hmem, h⟩ => h ▸ hmem, fun hmem => ⟨td.name, hmem, rfl⟩⟩
    rw [List.mem_toFinset, List.mem_toFinset, hname, mem_names_ofList, List.mem_map]
  rw [← hsame, List.toFinset_card_of_nodup hnodup, List.length_map]
  unfold size names
  rw [List.length_map]

/-! ### Sets and their changes -/

theorem built_eq_built_iff {changes others : List (Change β)} :
    built changes = built others ↔ ∀ td, lastAdded td changes = lastAdded td others := by
  constructor
  · intro h td
    rw [← find?_built, ← find?_built, h]
  · intro h
    rw [built_eq_ofList, built_eq_ofList]
    exact ofList_eq_ofList h

/-- **The last bundle of each trust domain stays.** Whatever is added to a set, one by one or
several at once, and however often it is made anew: for a trust domain the set has the bundle that
was added last since then, or none. Its entries are these bundles, in the order of the octets of
their trust domains' names, and as many as different trust domains were added. Sets to which the
same bundles were added last are equal. -/
theorem last_write_stays (changes : List (Change β)) :
    (∀ td, (built changes).find? td = lastAdded td changes) ∧
    (built changes).entries.Pairwise (fun a b => Utf8.encode a.1 < Utf8.encode b.1) ∧
    (∀ td bundle, (td.name, bundle) ∈ (built changes).entries ↔
      lastAdded td changes = some bundle) ∧
    (built changes).names =
      (built changes).toList.map (fun bundle => (HasTrustDomain.trustDomain bundle).name) ∧
    (built changes).size = ((added changes).map HasTrustDomain.trustDomain).toFinset.card ∧
    ∀ others : List (Change β),
      built changes = built others ↔ ∀ td, lastAdded td changes = lastAdded td others := by
  refine ⟨find?_built changes, ?_, ?_, ?_, ?_, fun others => built_eq_built_iff⟩
  · rw [built_eq_ofList]
    exact ordered_ofList _
  · intro td bundle
    rw [built_eq_ofList]
    exact mem_entries_ofList_iff
  · rw [built_eq_ofList]
    exact names_ofList _
  · rw [built_eq_ofList]
    exact size_ofList _

/-- Of two bundles of a trust domain the later one stays, whichever trust domain came first. -/
example :
    (built [.add (X509Bundle.empty ⟨"b.test"⟩),
      .extend [.empty ⟨"a.test"⟩, ⟨⟨"b.test"⟩, [⟨[0x30], []⟩]⟩]]).entries =
    (built [.collect [⟨⟨"b.test"⟩, [⟨[0x30], []⟩]⟩],
      .add (X509Bundle.empty ⟨"a.test"⟩)]).entries := by
  decide +kernel

end BundleSet
end WorkloadIdentity
