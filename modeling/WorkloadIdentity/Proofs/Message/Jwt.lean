/-
# JWT messages by their parts

Each JWT message as the parts it has and the numbers these stand under. Its writing and its
reading go by them (`JwtSvidEntry.isMessage`, `JwtSvidRequest.isMessage`,
`JwtSvidResponse.isMessage`, `JwtBundlesResponse.isMessage`, `ValidateRequest.isMessage`), and a
map is read as its entries in order of the keys.

Key definitions: `JwtSvidEntry.parts`, `JwtSvidRequest.parts`, `JwtSvidResponse.parts`,
`JwtBundlesResponse.parts`, `JwtBundlesResponse.inOrder`, `ValidateRequest.parts`.
-/
import WorkloadIdentity.Message.Jwt
import WorkloadIdentity.Proofs.Wire.Fields

namespace WorkloadIdentity

open Wire

namespace JwtSvidEntry

/-- What the message has under each number. -/
def parts (m : JwtSvidEntry) : List (Nat × Part) :=
  [(1, .text m.spiffeId), (2, .text m.token), (3, .text m.hint)]

theorem isMessage (limit : Nat) : IsMessage use limit parts encode (read? limit) id where
  writes m := by simp [encode, parts, writeText_eq]
  knows m := by
    have hnumbers : ∀ n, n ∈ m.parts.map (·.1) ↔ 1 ≤ n ∧ n ≤ 3 := by
      intro n
      simp only [parts, List.map_cons, List.map_nil, List.mem_cons, List.not_mem_nil, or_false]
      omega
    exact ⟨fun n => by simp [use, hnumbers], by simp [parts]⟩
  reads := by
    refine ⟨_, fun _ => rfl, fun m _ => ?_⟩
    have hspiffeId : text? 1 (fieldsOf m.parts) = some m.spiffeId :=
      text?_of_blocks (by simp [parts])
    have htoken : text? 2 (fieldsOf m.parts) = some m.token := text?_of_blocks (by simp [parts])
    have hhint : text? 3 (fieldsOf m.parts) = some m.hint := text?_of_blocks (by simp [parts])
    simp [hspiffeId, htoken, hhint]

end JwtSvidEntry

namespace JwtSvidRequest

/-- What the message has under each number. -/
def parts (m : JwtSvidRequest) : List (Nat × Part) :=
  [(1, .texts m.audience), (2, .text m.spiffeId)]

theorem isMessage : IsMessage use outerLimit parts encode decode? id where
  writes m := by simp [encode, parts, writeText_eq, Part.blocks]
  knows m := ⟨fun n => by simp [use, parts], by simp [parts]⟩
  reads := by
    refine ⟨_, fun _ => rfl, fun m _ => ?_⟩
    have haudience : texts? 1 (fieldsOf m.parts) = some m.audience :=
      texts?_of_blocks (by simp [parts])
    have hspiffeId : text? 2 (fieldsOf m.parts) = some m.spiffeId :=
      text?_of_blocks (by simp [parts])
    simp [haudience, hspiffeId]

end JwtSvidRequest

namespace JwtSvidResponse

/-- What the message has under each number. -/
def parts (m : JwtSvidResponse) : List (Nat × Part) :=
  [(1, .messages (m.svids.map JwtSvidEntry.encode))]

theorem isMessage : IsMessage use outerLimit parts encode decode? id where
  writes m := by simp [encode, parts, Part.blocks]
  knows m := ⟨fun n => by simp [use, parts], by simp [parts]⟩
  reads := by
    refine ⟨_, fun _ => rfl, fun m hsize => ?_⟩
    have hinner : 0 < innerLimit := by decide
    have hpart : (1, Part.messages (m.svids.map JwtSvidEntry.encode)) ∈ m.parts := by simp [parts]
    have hsvids : (blocks 1 (fieldsOf m.parts)).mapM (JwtSvidEntry.read? innerLimit) =
        some m.svids :=
      mapM_of_blocks (by simp [parts, Part.blocks]) fun svid hsvid =>
        (JwtSvidEntry.isMessage innerLimit).read_write hinner
          (hsize _ (mem_fieldsOf hpart (List.mem_map_of_mem hsvid)))
    simp [hsvids]

end JwtSvidResponse

namespace JwtBundlesResponse

/-- What the message has under each number. -/
def parts (m : JwtBundlesResponse) : List (Nat × Part) := [(1, .entries m.bundles)]

/-- The message with the key sets in order of their keys. -/
def inOrder (m : JwtBundlesResponse) : JwtBundlesResponse := ⟨Keyed.ofList m.bundles⟩

theorem isMessage : IsMessage use outerLimit parts encode decode? inOrder where
  writes m := by simp [encode, parts, writeEntries, Part.blocks]
  knows m := ⟨fun n => by simp [use, parts], by simp [parts]⟩
  reads := by
    refine ⟨_, fun _ => rfl, fun m hsize => ?_⟩
    have hmap : (1, Part.entries m.bundles) ∈ m.parts := by simp [parts]
    have hentries : entries? 1 (fieldsOf m.parts) = some m.bundles :=
      entries?_of_blocks (by simp [parts]) fun entry hentry =>
        hsize _ (mem_fieldsOf hmap (List.mem_map_of_mem hentry))
    simp [hentries, inOrder]

end JwtBundlesResponse

namespace ValidateRequest

/-- What the message has under each number. -/
def parts (m : ValidateRequest) : List (Nat × Part) := [(1, .text m.audience), (2, .text m.token)]

theorem isMessage : IsMessage use outerLimit parts encode decode? id where
  writes m := by simp [encode, parts, writeText_eq]
  knows m := ⟨fun n => by simp [use, parts], by simp [parts]⟩
  reads := by
    refine ⟨_, fun _ => rfl, fun m _ => ?_⟩
    have haudience : text? 1 (fieldsOf m.parts) = some m.audience :=
      text?_of_blocks (by simp [parts])
    have htoken : text? 2 (fieldsOf m.parts) = some m.token := text?_of_blocks (by simp [parts])
    simp [haudience, htoken]

end ValidateRequest
end WorkloadIdentity
