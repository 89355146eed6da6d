/-
# X.509 messages by their parts

Each X.509 message as the parts it has and the numbers these stand under. Its writing and its
reading go by them (`X509SvidEntry.isMessage`, `X509SvidResponse.isMessage`,
`X509BundlesResponse.isMessage`), and a map is read as its entries in order of the keys.

Key definitions: `X509SvidEntry.parts`, `X509SvidResponse.parts`, `X509BundlesResponse.parts`,
`X509SvidResponse.inOrder`, `X509BundlesResponse.inOrder`.
-/
import WorkloadIdentity.Message.X509
import WorkloadIdentity.Proofs.Wire.Fields

namespace WorkloadIdentity

open Wire

namespace X509SvidEntry

/-- What the message has under each number. -/
def parts (m : X509SvidEntry) : List (Nat × Part) :=
  [(1, .text m.spiffeId), (2, .octets m.chain), (3, .octets m.privateKey), (4, .octets m.bundle),
    (5, .text m.hint)]

theorem isMessage (limit : Nat) : IsMessage use limit parts encode (read? limit) id where
  writes m := by simp [encode, parts, writeText_eq, writeBlock_eq]
  knows m := by
    have hnumbers : ∀ n, n ∈ m.parts.map (·.1) ↔ 1 ≤ n ∧ n ≤ 5 := by
      intro n
      simp only [parts, List.map_cons, List.map_nil, List.mem_cons, List.not_mem_nil, or_false]
      omega
    exact ⟨fun n => by simp [use, hnumbers], by simp [parts]⟩
  reads := by
    refine ⟨_, fun _ => rfl, fun m _ => ?_⟩
    have hspiffeId : text? 1 (fieldsOf m.parts) = some m.spiffeId :=
      text?_of_blocks (by simp [parts])
    have hchain : block 2 (fieldsOf m.parts) = m.chain := block_of_blocks (by simp [parts])
    have hprivateKey : block 3 (fieldsOf m.parts) = m.privateKey :=
      block_of_blocks (by simp [parts])
    have hbundle : block 4 (fieldsOf m.parts) = m.bundle := block_of_blocks (by simp [parts])
    have hhint : text? 5 (fieldsOf m.parts) = some m.hint := text?_of_blocks (by simp [parts])
    simp [hspiffeId, hchain, hprivateKey, hbundle, hhint]

end X509SvidEntry

namespace X509SvidResponse

/-- What the message has under each number. -/
def parts (m : X509SvidResponse) : List (Nat × Part) :=
  [(1, .messages (m.svids.map X509SvidEntry.encode)), (2, .strings m.revocationLists),
    (3, .entries m.federatedBundles)]

/-- The message with the bundles in order of their keys. -/
def inOrder (m : X509SvidResponse) : X509SvidResponse :=
  { m with federatedBundles := Keyed.ofList m.federatedBundles }

theorem isMessage : IsMessage use outerLimit parts encode decode? inOrder where
  writes m := by simp [encode, parts, writeEntries, Part.blocks]
  knows m := by
    refine ⟨fun n => ?_, by simp [parts]⟩
    unfold use
    split <;> simp_all [parts]
  reads := by
    refine ⟨_, fun _ => rfl, fun m hsize => ?_⟩
    have hinner : 0 < innerLimit := by decide
    -- the messages and the entries are blocks as well, so none of them is too long
    have hpart : (1, Part.messages (m.svids.map X509SvidEntry.encode)) ∈ m.parts := by simp [parts]
    have hsvids : (blocks 1 (fieldsOf m.parts)).mapM (X509SvidEntry.read? innerLimit) =
        some m.svids :=
      mapM_of_blocks (by simp [parts, Part.blocks]) fun svid hsvid =>
        (X509SvidEntry.isMessage innerLimit).read_write hinner
          (hsize _ (mem_fieldsOf hpart (List.mem_map_of_mem hsvid)))
    have hlists : blocks 2 (fieldsOf m.parts) = m.revocationLists := by simp [parts, Part.blocks]
    have hmap : (3, Part.entries m.federatedBundles) ∈ m.parts := by simp [parts]
    have hentries : entries? 3 (fieldsOf m.parts) = some m.federatedBundles :=
      entries?_of_blocks (by simp [parts]) fun entry hentry =>
        hsize _ (mem_fieldsOf hmap (List.mem_map_of_mem hentry))
    simp [hsvids, hlists, hentries, inOrder]

end X509SvidResponse

namespace X509BundlesResponse

/-- What the message has under each number. -/
def parts (m : X509BundlesResponse) : List (Nat × Part) :=
  [(1, .strings m.revocationLists), (2, .entries m.bundles)]

/-- The message with the bundles in order of their keys. -/
def inOrder (m : X509BundlesResponse) : X509BundlesResponse :=
  { m with bundles := Keyed.ofList m.bundles }

theorem isMessage : IsMessage use outerLimit parts encode decode? inOrder where
  writes m := by simp [encode, parts, writeEntries, Part.blocks]
  knows m := by
    refine ⟨fun n => ?_, by simp [parts]⟩
    unfold use
    split <;> simp_all [parts]
  reads := by
    refine ⟨_, fun _ => rfl, fun m hsize => ?_⟩
    have hlists : blocks 1 (fieldsOf m.parts) = m.revocationLists := by simp [parts, Part.blocks]
    have hmap : (2, Part.entries m.bundles) ∈ m.parts := by simp [parts]
    have hentries : entries? 2 (fieldsOf m.parts) = some m.bundles :=
      entries?_of_blocks (by simp [parts]) fun entry hentry =>
        hsize _ (mem_fieldsOf hmap (List.mem_map_of_mem hentry))
    simp [hlists, hentries, inOrder]

end X509BundlesResponse
end WorkloadIdentity
