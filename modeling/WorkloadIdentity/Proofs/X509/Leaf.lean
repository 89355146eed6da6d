/-
# The shape of a leaf

A leaf has to be readable, to have exactly one URI among its names, which has to
be an identity, and to sign neither certificates nor lists. `Misshapen` lists
what may be wrong with a leaf, each with the cause that it is refused for, in
terms of the leaf alone. Checking a leaf refuses it for that cause, and gives
the leaf's identity if nothing is wrong (`checkLeafShape_eq_error_iff`,
`checkLeafShape_eq_ok_iff`).

Key definitions: `Certificate.HasUris`, `Certificate.Reads`, `NamesIdentity`,
`Certificate.Misnamed`, `Misshapen`.
Key theorems: `checkLeafShape_eq_error_iff`, `checkLeafShape_eq_ok_iff`.
-/
import WorkloadIdentity.Proofs.Outcome
import WorkloadIdentity.X509.Verify

namespace WorkloadIdentity

/-! ### What a leaf names -/

/-- The URIs among the certificate's alternative names, in order. -/
def Certificate.HasUris (certificate : Certificate) (uris : List String) : Prop :=
  ∃ names, certificate.read? .subjectAltName X509.readAltNames = .ok names ∧
    Certificate.urisOf (names.getD []) = uris

/-- The leaf's octets are those of a certificate with one URI, which is the
identity. -/
def Certificate.Reads (leaf certificate : Certificate) (id : SpiffeId) : Prop :=
  Certificate.parse leaf.der = .ok certificate ∧
    ∃ uri, certificate.HasUris [uri] ∧ SpiffeId.parse uri = .ok id

/-- The leaf names the identity. -/
def NamesIdentity (leaf : Certificate) (id : SpiffeId) : Prop :=
  ∃ certificate, leaf.Reads certificate id

theorem Certificate.spiffeId_eq_ok_iff (certificate : Certificate) (id : SpiffeId) :
    certificate.spiffeId = .ok id ↔
      ∃ uri, certificate.HasUris [uri] ∧ SpiffeId.parse uri = .ok id := by
  unfold spiffeId
  rw [ok_of_steps]
  constructor
  · rintro ⟨names, hnames, h⟩
    split at h
    · cases h
    · rename_i uri huris
      exact ⟨uri, ⟨names, hnames, huris⟩, ok_of_relabelled.mp h⟩
    · cases h
  · rintro ⟨uri, ⟨names, hnames, huris⟩, hparse⟩
    refine ⟨names, hnames, ?_⟩
    simp only [huris]
    exact ok_of_relabelled.mpr hparse

/-! ### What may be wrong -/

/-- What is wrong with the names of a certificate, and the cause to refuse it
for. -/
inductive Certificate.Misnamed (certificate : Certificate) : CertificateError → Prop where
  | unreadable {cause : CertificateError} :
      certificate.read? .subjectAltName X509.readAltNames = .error cause →
      Misnamed certificate cause
  | noUri : certificate.HasUris [] → Misnamed certificate .missingUriName
  | severalUris {first second : String} {rest : List String} :
      certificate.HasUris (first :: second :: rest) → Misnamed certificate .multipleUriNames
  | noIdentity {uri : String} {cause : IdError} : certificate.HasUris [uri] →
      SpiffeId.parse uri = .error cause → Misnamed certificate (.invalidSpiffeId cause)

theorem Certificate.spiffeId_eq_error_iff (certificate : Certificate) (cause : CertificateError) :
    certificate.spiffeId = .error cause ↔ certificate.Misnamed cause := by
  unfold spiffeId
  rw [error_of_steps]
  constructor
  · rintro (h | ⟨names, hnames, h⟩)
    · exact .unreadable h
    split at h
    · rename_i huris
      cases h
      exact .noUri ⟨names, hnames, huris⟩
    · rename_i uri huris
      obtain ⟨cause, hparse, rfl⟩ := error_of_relabelled.mp h
      exact .noIdentity ⟨names, hnames, huris⟩ hparse
    · rename_i hnone hone
      cases h
      cases huris : urisOf (names.getD []) with
      | nil => exact absurd huris hnone
      | cons first rest =>
        cases rest with
        | nil => exact absurd huris (hone first)
        | cons second rest => exact .severalUris ⟨names, hnames, huris⟩
  · intro h
    cases h with
    | unreadable h => exact .inl h
    | noUri h =>
      obtain ⟨names, hnames, huris⟩ := h
      refine .inr ⟨names, hnames, ?_⟩
      simp only [huris]
      rfl
    | severalUris h =>
      obtain ⟨names, hnames, huris⟩ := h
      refine .inr ⟨names, hnames, ?_⟩
      simp only [huris]
      rfl
    | noIdentity h hparse =>
      obtain ⟨names, hnames, huris⟩ := h
      refine .inr ⟨names, hnames, ?_⟩
      simp only [huris]
      exact error_of_relabelled.mpr ⟨_, hparse, rfl⟩

/-- What is wrong with a leaf, and the cause that it is refused for. -/
inductive Misshapen (leaf : Certificate) : X509VerifyError → Prop where
  | unreadable {cause : CertificateError} :
      Certificate.parse leaf.der = .error cause → Misshapen leaf (.certificate cause)
  | misnamed {certificate : Certificate} {cause : CertificateError} :
      Certificate.parse leaf.der = .ok certificate → certificate.Misnamed cause →
      Misshapen leaf (.certificate cause)
  | unreadableFlags {certificate : Certificate} {id : SpiffeId} {cause : CertificateError} :
      leaf.Reads certificate id → certificate.signingFlags = .error cause →
      Misshapen leaf (.certificate cause)
  | ca {certificate : Certificate} {id : SpiffeId} {keyCertSign crlSign : Bool} :
      leaf.Reads certificate id → certificate.signingFlags = .ok ⟨true, keyCertSign, crlSign⟩ →
      Misshapen leaf .leafIsCa
  | keyCertSign {certificate : Certificate} {id : SpiffeId} {crlSign : Bool} :
      leaf.Reads certificate id → certificate.signingFlags = .ok ⟨false, true, crlSign⟩ →
      Misshapen leaf .leafSignsCertificates
  | crlSign {certificate : Certificate} {id : SpiffeId} :
      leaf.Reads certificate id → certificate.signingFlags = .ok ⟨false, false, true⟩ →
      Misshapen leaf .leafSignsLists

/-! ### The check -/

theorem checkSignsNothing_eq_ok_iff (flags : Certificate.SigningFlags) :
    checkSignsNothing flags = .ok () ↔ flags = ⟨false, false, false⟩ := by
  obtain ⟨ca, keyCertSign, crlSign⟩ := flags
  cases ca <;> cases keyCertSign <;> cases crlSign <;> simp [checkSignsNothing]

theorem checkLeafShape_eq_ok_iff (leaf : Certificate) (id : SpiffeId) :
    checkLeafShape leaf = .ok id ↔ ∃ certificate, leaf.Reads certificate id ∧
      certificate.signingFlags = .ok ⟨false, false, false⟩ := by
  unfold checkLeafShape
  simp only [ok_of_steps, ok_of_pure, ok_of_relabelled, Certificate.spiffeId_eq_ok_iff]
  constructor
  · rintro ⟨certificate, hparse, _, hid, flags, hflags, ⟨⟩, hsigns, rfl⟩
    obtain rfl := (checkSignsNothing_eq_ok_iff flags).mp hsigns
    exact ⟨certificate, ⟨hparse, hid⟩, hflags⟩
  · rintro ⟨certificate, ⟨hparse, hid⟩, hflags⟩
    exact ⟨certificate, hparse, id, hid, _, hflags, (), rfl, rfl⟩

theorem checkLeafShape_eq_error_iff (leaf : Certificate) (e : X509VerifyError) :
    checkLeafShape leaf = .error e ↔ Misshapen leaf e := by
  unfold checkLeafShape
  simp only [error_of_steps, error_of_relabelled, ok_of_relabelled,
    Certificate.spiffeId_eq_ok_iff, Certificate.spiffeId_eq_error_iff]
  constructor
  · rintro (⟨cause, h, rfl⟩ | ⟨certificate, hparse, h⟩)
    · exact .unreadable h
    rcases h with ⟨cause, h, rfl⟩ | ⟨id, hid, h⟩
    · exact .misnamed hparse h
    rcases h with ⟨cause, h, rfl⟩ | ⟨⟨ca, keyCertSign, crlSign⟩, hflags, h⟩
    · exact .unreadableFlags ⟨hparse, hid⟩ h
    rcases h with h | ⟨_, -, h⟩
    · cases ca
      · cases keyCertSign
        · cases crlSign
          · cases h
          · cases h
            exact .crlSign ⟨hparse, hid⟩ hflags
        · cases h
          exact .keyCertSign ⟨hparse, hid⟩ hflags
      · cases h
        exact .ca ⟨hparse, hid⟩ hflags
    · cases h
  · intro h
    cases h with
    | unreadable h => exact .inl ⟨_, h, rfl⟩
    | misnamed hparse h => exact .inr ⟨_, hparse, .inl ⟨_, h, rfl⟩⟩
    | unreadableFlags hreads h => exact .inr ⟨_, hreads.1, .inr ⟨_, hreads.2, .inl ⟨_, h, rfl⟩⟩⟩
    | ca hreads hflags =>
      exact .inr ⟨_, hreads.1, .inr ⟨_, hreads.2, .inr ⟨_, hflags, .inl rfl⟩⟩⟩
    | keyCertSign hreads hflags =>
      exact .inr ⟨_, hreads.1, .inr ⟨_, hreads.2, .inr ⟨_, hflags, .inl rfl⟩⟩⟩
    | crlSign hreads hflags =>
      exact .inr ⟨_, hreads.1, .inr ⟨_, hreads.2, .inr ⟨_, hflags, .inl rfl⟩⟩⟩

end WorkloadIdentity
