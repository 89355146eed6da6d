/-
# The only URI of a certificate

The identity of a certificate is its only URI. The certificate has to have the
extension of alternative names once (`Certificate.HasOnce`), the extension has to
be readable (`Certificate.HasNames`), and exactly one of the names in it has to be
a URI (`Certificate.OnlyUri`). Each way to fall short has a cause of its own,
whatever the other extensions and names are and wherever they stand: an extension
that cannot be read is never taken for one that is absent, and of several URIs
none is chosen (`Certificate.identity_of_only_uri`). Which octets are readable as
names does not matter here.

Key definitions: `Certificate.HasOnce`, `Certificate.Lacks`,
`Certificate.Repeats`, `Certificate.HasNames`, `Certificate.OnlyUri`.
Key theorems: `kept_eq_singleton_iff`, `exists_two_kept_iff`,
`Certificate.read?_eq_some_iff`, `Certificate.read?_eq_error_iff`,
`Certificate.hasUris_iff`, `Certificate.identity_of_only_uri`.
-/
import WorkloadIdentity.Proofs.X509.Leaf

namespace WorkloadIdentity

open X509 (Extension ExtensionKind GeneralName)

/-! ### One of several, and two of them -/

section
variable {α β : Type} {f : α → Option β}

theorem kept_eq_singleton_iff {xs : List α} {b : β} :
    xs.filterMap f = [b] ↔ ∃ front x back, xs = front ++ x :: back ∧ f x = some b ∧
      ∀ y ∈ front ++ back, f y = none := by
  simp only [List.filterMap_eq_cons_iff, List.filterMap_eq_nil_iff, List.forall_mem_append]
  constructor
  · rintro ⟨front, x, back, hsplit, hfront, hx, hback⟩
    exact ⟨front, x, back, hsplit, hx, hfront, hback⟩
  · rintro ⟨front, x, back, hsplit, hx, hfront, hback⟩
    exact ⟨front, x, back, hsplit, hfront, hx, hback⟩

theorem exists_two_kept_iff {xs : List α} :
    (∃ a b rest, xs.filterMap f = a :: b :: rest) ↔
      ∃ x y a b, [x, y].Sublist xs ∧ f x = some a ∧ f y = some b := by
  constructor
  · rintro ⟨a, b, rest, h⟩
    obtain ⟨front, x, more, rfl, -, hx, hmore⟩ := List.filterMap_eq_cons_iff.mp h
    obtain ⟨middle, y, back, rfl, -, hy, -⟩ := List.filterMap_eq_cons_iff.mp hmore
    have hlater : [y].Sublist (middle ++ y :: back) :=
      List.singleton_sublist.mpr (List.mem_append_right _ List.mem_cons_self)
    exact ⟨x, y, a, b, (hlater.cons_cons x).trans (List.sublist_append_right _ _), hx, hy⟩
  · rintro ⟨x, y, a, b, hsub, hx, hy⟩
    have htwo := (hsub.filterMap f).length_le
    simp only [List.filterMap_cons, hx, hy, List.filterMap_nil, List.length_cons,
      List.length_nil] at htwo
    cases hkept : xs.filterMap f with
    | nil => simp [hkept] at htwo
    | cons a rest =>
      cases rest with
      | nil => simp [hkept] at htwo
      | cons b rest => exact ⟨a, b, rest, rfl⟩

end

namespace Certificate

/-! ### The extension of a kind -/

/-- The certificate has the extension, and no other one of the kind. -/
def HasOnce (certificate : Certificate) (kind : ExtensionKind) (extension : Extension) : Prop :=
  ∃ front back, certificate.extensions = front ++ extension :: back ∧ extension.id = kind.id ∧
    ∀ other ∈ front ++ back, other.id ≠ kind.id

/-- The certificate has no extension of the kind. -/
def Lacks (certificate : Certificate) (kind : ExtensionKind) : Prop :=
  ∀ extension ∈ certificate.extensions, extension.id ≠ kind.id

/-- The certificate has two extensions of the kind, or more. -/
def Repeats (certificate : Certificate) (kind : ExtensionKind) : Prop :=
  ∃ first second : Extension, [first, second].Sublist certificate.extensions ∧
    first.id = kind.id ∧ second.id = kind.id

section
variable {certificate : Certificate} {kind : ExtensionKind}

theorem filter_eq_filterMap : certificate.extensions.filter (·.id = kind.id) =
    certificate.extensions.filterMap (Option.guard (·.id = kind.id)) := by
  rw [List.filterMap_eq_filter]

theorem filter_eq_singleton_iff {extension : Extension} :
    certificate.extensions.filter (·.id = kind.id) = [extension] ↔
      certificate.HasOnce kind extension := by
  rw [filter_eq_filterMap, kept_eq_singleton_iff]
  unfold HasOnce
  simp only [Option.guard_eq_some_iff, Option.guard_eq_none_iff, decide_eq_true_eq,
    decide_eq_false_iff_not]
  constructor
  · rintro ⟨front, x, back, hsplit, ⟨rfl, hid⟩, hothers⟩
    exact ⟨front, back, hsplit, hid, hothers⟩
  · rintro ⟨front, back, hsplit, hid, hothers⟩
    exact ⟨front, extension, back, hsplit, ⟨rfl, hid⟩, hothers⟩

theorem exists_two_extensions_iff :
    (∃ first second rest,
      certificate.extensions.filter (·.id = kind.id) = first :: second :: rest) ↔
      certificate.Repeats kind := by
  simp only [filter_eq_filterMap, exists_two_kept_iff]
  unfold Repeats
  simp only [Option.guard_eq_some_iff, decide_eq_true_eq]
  constructor
  · rintro ⟨x, y, a, b, hsub, ⟨-, hx⟩, -, hy⟩
    exact ⟨x, y, hsub, hx, hy⟩
  · rintro ⟨x, y, hsub, hx, hy⟩
    exact ⟨x, y, x, y, hsub, ⟨rfl, hx⟩, rfl, hy⟩

theorem find?_eq_none_iff : certificate.find? kind = .ok none ↔ certificate.Lacks kind := by
  have hnil : certificate.extensions.filter (·.id = kind.id) = [] ↔ certificate.Lacks kind := by
    simp [Lacks]
  rw [← hnil]
  unfold find?
  split
  · rename_i h
    exact ⟨fun _ => h, fun _ => rfl⟩
  · rename_i h
    rw [h]
    exact ⟨nofun, nofun⟩
  · rename_i hnone _
    exact ⟨nofun, fun h => absurd h hnone⟩

theorem find?_eq_some_iff {extension : Extension} :
    certificate.find? kind = .ok (some extension) ↔ certificate.HasOnce kind extension := by
  rw [← filter_eq_singleton_iff]
  unfold find?
  split
  · rename_i h
    rw [h]
    exact ⟨nofun, nofun⟩
  · rename_i first h
    rw [h, Except.ok.injEq, Option.some.injEq, List.cons.injEq, eq_self, and_true]
  · rename_i hone
    exact ⟨nofun, fun h => absurd h (hone extension)⟩

theorem find?_eq_error_iff {cause : CertificateError} :
    certificate.find? kind = .error cause ↔ cause = .malformed ∧ certificate.Repeats kind := by
  rw [← exists_two_extensions_iff]
  unfold find?
  split
  · rename_i h
    rw [h]
    exact ⟨nofun, nofun⟩
  · rename_i h
    rw [h]
    exact ⟨nofun, nofun⟩
  · rename_i hnone hone
    refine ⟨fun h => ⟨(Except.error.inj h).symm, ?_⟩, fun h => congrArg _ h.1.symm⟩
    cases hfilter : certificate.extensions.filter (·.id = kind.id) with
    | nil => exact absurd hfilter hnone
    | cons first rest =>
      cases rest with
      | nil => exact absurd hfilter (hone first)
      | cons second rest => exact ⟨first, second, rest, rfl⟩

/-! ### What the extension of a kind says -/

variable {α : Type} {read : Bytes → Option α}

theorem read?_eq_none_iff : certificate.read? kind read = .ok none ↔ certificate.Lacks kind := by
  rw [← find?_eq_none_iff]
  unfold read?
  rw [ok_of_steps]
  constructor
  · rintro ⟨extension?, hfind, h⟩
    cases extension? with
    | none => exact hfind
    | some extension =>
      dsimp only at h
      split at h <;> cases h
  · intro hfind
    exact ⟨none, hfind, rfl⟩

theorem read?_eq_some_iff {a : α} :
    certificate.read? kind read = .ok (some a) ↔
      ∃ extension, certificate.HasOnce kind extension ∧ read extension.value = some a := by
  simp only [← find?_eq_some_iff]
  unfold read?
  rw [ok_of_steps]
  constructor
  · rintro ⟨extension?, hfind, h⟩
    cases extension? with
    | none => cases h
    | some extension =>
      dsimp only at h
      split at h
      · rename_i b hread
        obtain rfl := Option.some.inj (ok_of_pure.mp h)
        exact ⟨extension, hfind, hread⟩
      · cases h
  · rintro ⟨extension, hfind, hread⟩
    refine ⟨some extension, hfind, ?_⟩
    simp only [hread]
    rfl

theorem read?_eq_error_iff {cause : CertificateError} :
    certificate.read? kind read = .error cause ↔
      (cause = .malformed ∧ certificate.Repeats kind) ∨
      cause = .unparseableExtension kind ∧
        ∃ extension, certificate.HasOnce kind extension ∧ read extension.value = none := by
  simp only [← find?_eq_some_iff, ← find?_eq_error_iff]
  unfold read?
  rw [error_of_steps]
  refine or_congr Iff.rfl ?_
  constructor
  · rintro ⟨extension?, hfind, h⟩
    cases extension? with
    | none => cases h
    | some extension =>
      dsimp only at h
      split at h
      · cases h
      · rename_i hread
        exact ⟨(Except.error.inj h).symm, extension, hfind, hread⟩
  · rintro ⟨rfl, extension, hfind, hread⟩
    refine ⟨some extension, hfind, ?_⟩
    simp only [hread]
    rfl

end

/-! ### Names and the URIs among them -/

/-- The certificate says that it has these names: once, and readably. -/
def HasNames (certificate : Certificate) (names : List GeneralName) : Prop :=
  ∃ extension, certificate.HasOnce .subjectAltName extension ∧
    X509.readAltNames extension.value = some names

/-- The URI is among the names, and all others are of other kinds. -/
def OnlyUri (uri : String) (names : List GeneralName) : Prop :=
  ∃ front back, names = front ++ .uri uri :: back ∧ ∀ name ∈ front ++ back, name = .other

/-- The URI that a name is. -/
def uriOf : GeneralName → Option String
  | .uri text => some text
  | .other => none

theorem uriOf_eq_some_iff {name : GeneralName} {uri : String} :
    uriOf name = some uri ↔ name = .uri uri := by
  cases name <;> simp [uriOf]

theorem uriOf_eq_none_iff {name : GeneralName} : uriOf name = none ↔ name = .other := by
  cases name <;> simp [uriOf]

theorem urisOf_eq_filterMap (names : List GeneralName) : urisOf names = names.filterMap uriOf := by
  unfold urisOf
  refine List.filterMap_congr fun name _ => ?_
  cases name <;> rfl

theorem urisOf_eq_nil_iff {names : List GeneralName} :
    urisOf names = [] ↔ ∀ name ∈ names, name = .other := by
  simp only [urisOf_eq_filterMap, List.filterMap_eq_nil_iff, uriOf_eq_none_iff]

theorem urisOf_eq_singleton_iff {names : List GeneralName} {uri : String} :
    urisOf names = [uri] ↔ OnlyUri uri names := by
  rw [urisOf_eq_filterMap, kept_eq_singleton_iff]
  simp only [uriOf_eq_some_iff, uriOf_eq_none_iff]
  constructor
  · rintro ⟨front, _, back, hsplit, rfl, hothers⟩
    exact ⟨front, back, hsplit, hothers⟩
  · rintro ⟨front, back, hsplit, hothers⟩
    exact ⟨front, _, back, hsplit, rfl, hothers⟩

theorem exists_two_uris_iff {names : List GeneralName} :
    (∃ first second rest, urisOf names = first :: second :: rest) ↔
      ∃ first second, [GeneralName.uri first, GeneralName.uri second].Sublist names := by
  simp only [urisOf_eq_filterMap, exists_two_kept_iff, uriOf_eq_some_iff]
  constructor
  · rintro ⟨_, _, first, second, hsub, rfl, rfl⟩
    exact ⟨first, second, hsub⟩
  · rintro ⟨first, second, hsub⟩
    exact ⟨_, _, first, second, hsub, rfl, rfl⟩

variable {certificate : Certificate}

/-- A certificate without names has no URIs. -/
theorem hasUris_iff {uris : List String} : certificate.HasUris uris ↔
    (uris = [] ∧ certificate.Lacks .subjectAltName) ∨
      ∃ names, certificate.HasNames names ∧ urisOf names = uris := by
  unfold HasUris
  constructor
  · rintro ⟨names?, hread, rfl⟩
    cases names? with
    | none => exact .inl ⟨rfl, read?_eq_none_iff.mp hread⟩
    | some names => exact .inr ⟨names, read?_eq_some_iff.mp hread, rfl⟩
  · rintro (⟨rfl, hlacks⟩ | ⟨names, hnames, rfl⟩)
    · exact ⟨none, read?_eq_none_iff.mpr hlacks, rfl⟩
    · exact ⟨some names, read?_eq_some_iff.mpr hnames, rfl⟩

theorem hasUris_nil_iff : certificate.HasUris [] ↔ certificate.Lacks .subjectAltName ∨
    ∃ names, certificate.HasNames names ∧ ∀ name ∈ names, name = .other := by
  simp only [hasUris_iff, true_and, urisOf_eq_nil_iff]

theorem hasUris_singleton_iff {uri : String} : certificate.HasUris [uri] ↔
    ∃ names, certificate.HasNames names ∧ OnlyUri uri names := by
  simp only [hasUris_iff, reduceCtorEq, false_and, false_or, urisOf_eq_singleton_iff]

theorem exists_hasUris_iff :
    (∃ first second rest, certificate.HasUris (first :: second :: rest)) ↔
      ∃ names, certificate.HasNames names ∧
        ∃ first second, [GeneralName.uri first, GeneralName.uri second].Sublist names := by
  simp only [hasUris_iff, reduceCtorEq, false_and, false_or, ← exists_two_uris_iff]
  constructor
  · rintro ⟨first, second, rest, names, hnames, huris⟩
    exact ⟨names, hnames, first, second, rest, huris⟩
  · rintro ⟨names, hnames, first, second, rest, huris⟩
    exact ⟨first, second, rest, names, hnames, huris⟩

/-! ### The identity -/

/-- A certificate whose names cannot be read is refused for no other cause. -/
theorem cause_of_unreadable {cause : CertificateError}
    (h : certificate.read? .subjectAltName X509.readAltNames = .error cause) :
    cause = .malformed ∨ cause = .unparseableExtension .subjectAltName :=
  (read?_eq_error_iff.mp h).imp And.left And.left

theorem spiffeId_eq_ok_iff_onlyUri {id : SpiffeId} : certificate.spiffeId = .ok id ↔
    ∃ names uri, certificate.HasNames names ∧ OnlyUri uri names ∧ SpiffeId.parse uri = .ok id := by
  simp only [spiffeId_eq_ok_iff, hasUris_singleton_iff]
  constructor
  · rintro ⟨uri, ⟨names, hnames, honly⟩, hparse⟩
    exact ⟨names, uri, hnames, honly, hparse⟩
  · rintro ⟨names, uri, hnames, honly, hparse⟩
    exact ⟨uri, ⟨names, hnames, honly⟩, hparse⟩

theorem spiffeId_missingUriName_iff :
    certificate.spiffeId = .error .missingUriName ↔ certificate.Lacks .subjectAltName ∨
      ∃ names, certificate.HasNames names ∧ ∀ name ∈ names, name = .other := by
  rw [spiffeId_eq_error_iff, ← hasUris_nil_iff]
  constructor
  · intro h
    cases h with
    | unreadable h => simpa using cause_of_unreadable h
    | noUri h => exact h
  · exact .noUri

theorem spiffeId_multipleUriNames_iff :
    certificate.spiffeId = .error .multipleUriNames ↔ ∃ names, certificate.HasNames names ∧
      ∃ first second, [GeneralName.uri first, GeneralName.uri second].Sublist names := by
  rw [spiffeId_eq_error_iff, ← exists_hasUris_iff]
  constructor
  · intro h
    cases h with
    | unreadable h => simpa using cause_of_unreadable h
    | severalUris h => exact ⟨_, _, _, h⟩
  · rintro ⟨first, second, rest, h⟩
    exact .severalUris h

theorem spiffeId_invalidSpiffeId_iff {cause : IdError} :
    certificate.spiffeId = .error (.invalidSpiffeId cause) ↔ ∃ names uri,
      certificate.HasNames names ∧ OnlyUri uri names ∧ SpiffeId.parse uri = .error cause := by
  rw [spiffeId_eq_error_iff]
  constructor
  · intro h
    cases h with
    | unreadable h => simpa using cause_of_unreadable h
    | noIdentity h hparse =>
      obtain ⟨names, hnames, honly⟩ := hasUris_singleton_iff.mp h
      exact ⟨names, _, hnames, honly, hparse⟩
  · rintro ⟨names, uri, hnames, honly, hparse⟩
    exact .noIdentity (hasUris_singleton_iff.mpr ⟨names, hnames, honly⟩) hparse

theorem spiffeId_unparseableExtension_iff :
    certificate.spiffeId = .error (.unparseableExtension .subjectAltName) ↔
      ∃ extension, certificate.HasOnce .subjectAltName extension ∧
        X509.readAltNames extension.value = none := by
  rw [spiffeId_eq_error_iff]
  constructor
  · intro h
    cases h with
    | unreadable h => simpa using read?_eq_error_iff.mp h
  · intro h
    exact .unreadable (read?_eq_error_iff.mpr (.inr ⟨rfl, h⟩))

theorem spiffeId_malformed_iff :
    certificate.spiffeId = .error .malformed ↔ certificate.Repeats .subjectAltName := by
  rw [spiffeId_eq_error_iff]
  constructor
  · intro h
    cases h with
    | unreadable h => simpa using read?_eq_error_iff.mp h
  · intro h
    exact .unreadable (read?_eq_error_iff.mpr (.inl ⟨rfl, h⟩))

/-- **The identity of a certificate is its only URI.** There is one if and only if the
certificate has alternative names, once and readably, of which exactly one is a URI, and this is
an identity. For lack of names or of a URI among them, for two URIs, be they equal or not, for a
URI that is no identity, for names that cannot be read, and for two extensions of names, each
refusal has a cause of its own. -/
theorem identity_of_only_uri (certificate : Certificate) :
    (∀ id, certificate.spiffeId = .ok id ↔ ∃ names uri,
      certificate.HasNames names ∧ OnlyUri uri names ∧ SpiffeId.parse uri = .ok id) ∧
    (certificate.spiffeId = .error .missingUriName ↔ certificate.Lacks .subjectAltName ∨
      ∃ names, certificate.HasNames names ∧ ∀ name ∈ names, name = .other) ∧
    (certificate.spiffeId = .error .multipleUriNames ↔ ∃ names, certificate.HasNames names ∧
      ∃ first second, [GeneralName.uri first, GeneralName.uri second].Sublist names) ∧
    (∀ cause, certificate.spiffeId = .error (.invalidSpiffeId cause) ↔ ∃ names uri,
      certificate.HasNames names ∧ OnlyUri uri names ∧ SpiffeId.parse uri = .error cause) ∧
    (certificate.spiffeId = .error (.unparseableExtension .subjectAltName) ↔
      ∃ extension, certificate.HasOnce .subjectAltName extension ∧
        X509.readAltNames extension.value = none) ∧
    (certificate.spiffeId = .error .malformed ↔ certificate.Repeats .subjectAltName) :=
  ⟨fun _ => spiffeId_eq_ok_iff_onlyUri, spiffeId_missingUriName_iff, spiffeId_multipleUriNames_iff,
    fun _ => spiffeId_invalidSpiffeId_iff, spiffeId_unparseableExtension_iff,
    spiffeId_malformed_iff⟩

/-- The same URI twice counts as two. -/
example : spiffeId ⟨[], [⟨ExtensionKind.subjectAltName.id,
    [0x30, 0x08, 0x86, 0x02, 0x61, 0x3a, 0x86, 0x02, 0x61, 0x3a]⟩]⟩ =
      .error .multipleUriNames := by
  decide +kernel

end Certificate
end WorkloadIdentity
