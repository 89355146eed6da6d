/-
# Members of a trust domain

An identity is a member of the trust domain whose name its text gives out by the offset of the
path, and of no other. On texts this is a test on the whole name: the text is the trust domain's
own, or goes on behind it with a slash (`SpiffeId.isMemberOf_iff`). Without the slash the test
would let a name in that only begins with the trust domain's, as `acme.io.evil` begins with
`acme.io`; names hold no slash, so with it no name is mistaken for another.

Operations that continue a path or replace it stay in the trust domain, however many follow
each other (`SpiffeId.Moves`).

Key definitions: `TrustDomain.IsReached`, `SpiffeId.Moves`.
Key theorems: `IsCut.front_eq_iff`, `SpiffeId.isMemberOf_iff`, `SpiffeId.Reach.moves`,
`SpiffeId.membership_whole_name`.
-/
import Mathlib.Logic.Relation
import WorkloadIdentity.Proofs.Id.Segments

namespace WorkloadIdentity

/-- The trust domains that there are: read, from a text or a URL, or taken out of an identity
that operations make. -/
inductive TrustDomain.IsReached : TrustDomain → Prop where
  | read {td : TrustDomain} : td.IsRead → IsReached td
  | taken {td : TrustDomain} {id : SpiffeId} : SpiffeId.Reach td id → IsReached id.trustDomain

theorem TrustDomain.IsReached.spelled {td : TrustDomain} (h : td.IsReached) :
    ∃ x : Spelling, x.domain = td := by
  cases h with
  | read h => exact h.spelled
  | taken h =>
    obtain ⟨x, rfl, -⟩ := SpiffeId.reach_spelled h
    exact ⟨x, x.trustDomain_id.symm⟩

/-- What stands before the first slash of a text is all of it, or a slash follows. -/
theorem IsCut.front_eq_iff {text front other : List Char} {segments : List (List Char)}
    (h : IsCut text front segments) (hother : '/' ∉ other) :
    front = other ↔ text = other ∨ other ++ ['/'] <+: text := by
  have hsplit := h.splitOn
  constructor
  · rintro rfl
    rw [h.text_eq]
    cases segments with
    | nil => exact .inl (by simp)
    | cons segment rest => exact .inr ⟨segment ++ pathOf rest, by simp⟩
  · rintro (rfl | ⟨rest, rfl⟩)
    · rw [List.splitOn_eq_singleton hother] at hsplit
      exact (List.cons.inj hsplit).1.symm
    · rw [List.append_assoc, List.singleton_append,
        List.splitOn_append_cons_self_of_not_mem hother] at hsplit
      exact (List.cons.inj hsplit).1.symm

namespace SpiffeId

/-- The identities that one operation on the path makes of an identity. -/
inductive Moves (id : SpiffeId) : SpiffeId → Prop where
  | appendPath {id' : SpiffeId} (path : String) : id.appendPath path = .ok id' → Moves id id'
  | appendSegments {id' : SpiffeId} (segments : List String) :
      id.appendSegments segments = .ok id' → Moves id id'
  | replacePath {id' : SpiffeId} (path : String) : id.replacePath path = .ok id' → Moves id id'
  | replaceSegments {id' : SpiffeId} (segments : List String) :
      id.replaceSegments segments = .ok id' → Moves id id'

/-- An operation on the path stays where the operations before it started. -/
theorem Reach.move {td : TrustDomain} {id id' : SpiffeId} (h : Reach td id) (hmove : Moves id id') :
    Reach td id' := by
  cases hmove with
  | appendPath path hmade => exact .appendPath h hmade
  | appendSegments segments hmade => exact .appendSegments h hmade
  | replacePath path hmade => exact .replacePath h hmade
  | replaceSegments segments hmade => exact .replaceSegments h hmade

theorem Reach.moves {td : TrustDomain} {id id' : SpiffeId} (h : Reach td id)
    (hmoves : Relation.ReflTransGen Moves id id') : Reach td id' := by
  induction hmoves with
  | refl => exact h
  | tail _ hmove ih => exact ih.move hmove

theorem Reach.isMemberOf_iff_eq {td : TrustDomain} {id : SpiffeId} (h : Reach td id)
    (td' : TrustDomain) : id.isMemberOf td' = true ↔ td' = td := by
  unfold isMemberOf
  rw [decide_eq_true_eq, trustDomain_of_reach h, eq_comm]

/-- **Membership is told from the text, by the whole name.** -/
theorem isMemberOf_iff (x y : Spelling) : x.id.isMemberOf y.domain = true ↔
    x.id.text = y.domain.idText ∨ (y.domain.idText ++ "/").toList <+: x.id.text.toList := by
  have hown : y.domain.idText.toList = spiffePrefix.toList ++ y.name := by
    simp [TrustDomain.idText, Spelling.domain]
  have hname : x.id.isMemberOf y.domain = true ↔ x.name = y.name := by
    unfold isMemberOf
    rw [decide_eq_true_eq, x.trustDomain_id]
    unfold Spelling.domain
    rw [TrustDomain.mk.injEq, String.ofList_inj]
  rw [hname, x.isCut.front_eq_iff y.isName.slash_not_mem, Spelling.text_id, ← String.toList_inj,
    String.toList_append, x.toList_text, hown, List.append_cancel_left_eq, List.append_assoc,
    List.prefix_append_right_inj]
  rfl

/-- **Membership is a test on the whole name, and stays what it is.** An identity that operations
make is a member of a trust domain if and only if its text is the trust domain's or goes on
behind it with a slash. It is a member of one trust domain and of no other, and any operations
on its path make members of the same one. -/
theorem membership_whole_name {td : TrustDomain} {id : SpiffeId} (h : Reach td id) :
    (∀ td' : TrustDomain, td'.IsReached → (id.isMemberOf td' = true ↔
      id.text = td'.idText ∨ (td'.idText ++ "/").toList <+: id.text.toList)) ∧
    (∀ td₁ td₂ : TrustDomain, id.isMemberOf td₁ = true → id.isMemberOf td₂ = true → td₁ = td₂) ∧
    ∀ id', Relation.ReflTransGen Moves id id' → id'.isMemberOf td = true ∧
      ∀ td' : TrustDomain, id'.isMemberOf td' = id.isMemberOf td' := by
  refine ⟨fun td' htd' => ?_, fun td₁ td₂ h₁ h₂ => ?_, fun id' hmoves => ⟨?_, fun td' => ?_⟩⟩
  · obtain ⟨x, rfl, -⟩ := reach_spelled h
    obtain ⟨y, rfl⟩ := htd'.spelled
    exact isMemberOf_iff x y
  · rw [(h.isMemberOf_iff_eq td₁).mp h₁, (h.isMemberOf_iff_eq td₂).mp h₂]
  · exact ((h.moves hmoves).isMemberOf_iff_eq td).mpr rfl
  · rw [Bool.eq_iff_iff, (h.moves hmoves).isMemberOf_iff_eq td', h.isMemberOf_iff_eq td']

/-- An identity is no member of a trust domain whose name goes on behind that of its own, and with
another path it is a member of its own still. -/
theorem membership_whole_name_evil :
    Reach ⟨"acme.io"⟩ ⟨"spiffe://acme.io/ns", 16⟩ ∧ TrustDomain.IsReached ⟨"acme.io.evil"⟩ ∧
    SpiffeId.isMemberOf ⟨"spiffe://acme.io/ns", 16⟩ ⟨"acme.io.evil"⟩ = false ∧
    SpiffeId.replacePath ⟨"spiffe://acme.io/ns", 16⟩ "/web" = .ok ⟨"spiffe://acme.io/web", 16⟩ ∧
    SpiffeId.isMemberOf ⟨"spiffe://acme.io/web", 16⟩ ⟨"acme.io"⟩ = true := by
  have hevil : TrustDomain.IsReached ⟨"acme.io.evil"⟩ :=
    .read (.inl ⟨"acme.io.evil", by decide +kernel⟩)
  have hmade : SpiffeId.replacePath ⟨"spiffe://acme.io/ns", 16⟩ "/web" =
      .ok ⟨"spiffe://acme.io/web", 16⟩ := by decide +kernel
  obtain ⟨hmember, -, hstays⟩ := membership_whole_name reach_ns
  refine ⟨reach_ns, hevil, ?_, hmade, (hstays _ (.single (.replacePath "/web" hmade))).1⟩
  rw [← Bool.not_eq_true, hmember _ hevil]
  rintro (hown | ⟨rest, hrest⟩)
  · exact absurd hown (by decide +kernel)
  · simp [TrustDomain.idText, spiffePrefix] at hrest

end SpiffeId
end WorkloadIdentity
