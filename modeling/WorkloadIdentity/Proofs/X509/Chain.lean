/-
# Identities that are read

The octets of a chain are those of its certificates, one after the other: each
certificate is read again from its own octets, as what it was (`readList_eq_ok`).
So what the chain of an identity was checked for when it was read is what the
verifier finds when it looks at the leaf again. The two checks of a leaf differ:
when an identity is read, the leaf has to say that it is no CA and what its key
is for, while the verifier takes an extension that is absent to grant nothing.
A leaf that passes the first passes the second (`checkLeafShape_of_checkLeaf`),
and what is left for the verifier to fail for is the source of bundles
(`X509Svid.parsed_verifiable`).

Key definitions: `Certificate.IsEndEntity`, `Certificate.IsSigner`.
Key theorems: `Certificate.readList_eq_ok`, `checkLeaf_eq_ok_iff`,
`checkSigner_eq_ok_iff`, `checkLeafShape_of_checkLeaf`,
`X509Svid.parsed_verifiable`.
-/
import WorkloadIdentity.Proofs.X509.Concatenated
import WorkloadIdentity.Proofs.X509.Leaf

namespace WorkloadIdentity

/-! ### Certificates one after the other -/

namespace Certificate

/-- The octets of certificates that are read are theirs, and each certificate is
what its octets say. -/
theorem readList_eq_ok {most : Option Nat} {octets : Bytes} {certificates : List Certificate}
    (h : readList most octets = .ok certificates) :
    certificates.flatMap (·.der) = octets ∧ (∀ c ∈ certificates, parse c.der = .ok c) ∧
      ∀ m, most = some m → certificates.length ≤ m := by
  obtain ⟨hoctets, hwhole, hcount⟩ := readList_eq_ok_iff.mp h
  exact ⟨hoctets, fun c hc => (hwhole c hc).parse, hcount⟩

/-! ### What a certificate may do -/

/-- The certificate says that its key makes signatures, but none of certificates
or of lists of those that are revoked, and that it is no CA. -/
structure IsEndEntity (certificate : Certificate) : Prop where
  usage : ∃ usage, certificate.keyUsage = .ok usage ∧ usage.digitalSignature = true ∧
    usage.crlSign = false ∧ usage.keyCertSign = false
  ca : certificate.isCa = .ok false

/-- The certificate says that it is a CA that signs certificates. -/
structure IsSigner (certificate : Certificate) : Prop where
  ca : certificate.isCa = .ok true
  usage : ∃ usage, certificate.keyUsage = .ok usage ∧ usage.keyCertSign = true

theorem require_eq_ok_iff {α : Type} (certificate : Certificate) (kind : X509.ExtensionKind)
    (read : Bytes → Option α) (a : α) :
    certificate.require kind read = .ok a ↔ certificate.read? kind read = .ok (some a) := by
  unfold require
  rw [ok_of_steps]
  constructor
  · rintro ⟨a?, hread, h⟩
    cases a? with
    | none => cases h
    | some a' => rw [hread, ok_of_pure.mp h]
  · intro hread
    exact ⟨some a, hread, rfl⟩

/-- To one who takes what is absent to grant nothing, the certificate signs
nothing. -/
theorem IsEndEntity.signingFlags {certificate : Certificate} (h : certificate.IsEndEntity) :
    certificate.signingFlags = .ok ⟨false, false, false⟩ := by
  obtain ⟨usage, husage, -, hcrl, hcert⟩ := h.usage
  unfold Certificate.signingFlags
  simp only [ok_of_steps, ok_of_pure]
  refine ⟨some false, (require_eq_ok_iff _ _ _ _).mp h.ca, some usage,
    (require_eq_ok_iff _ _ _ _).mp husage, ?_⟩
  rw [Option.any_some, Option.any_some, hcrl, hcert]
  rfl

end Certificate

/-! ### The checks of a chain -/

theorem checkLeaf_eq_ok_iff (leaf : Certificate) (id : SpiffeId) :
    checkLeaf leaf = .ok id ↔ leaf.IsEndEntity ∧ leaf.spiffeId = .ok id := by
  unfold checkLeaf
  simp only [ok_of_steps, ok_of_relabelled, ok_of_unless, Bool.not_eq_true, Bool.not_eq_false']
  constructor
  · rintro ⟨usage, husage, hsigns, hcrl, hcert, ca, hca, rfl, hid⟩
    exact ⟨⟨⟨usage, husage, hsigns, hcrl, hcert⟩, hca⟩, hid⟩
  · rintro ⟨⟨⟨usage, husage, hsigns, hcrl, hcert⟩, hca⟩, hid⟩
    exact ⟨usage, husage, hsigns, hcrl, hcert, false, hca, rfl, hid⟩

theorem checkSigner_eq_ok_iff (signer : Certificate) :
    checkSigner signer = .ok () ↔ signer.IsSigner := by
  unfold checkSigner
  simp only [ok_of_steps, ok_of_relabelled, ok_of_unless, Bool.not_eq_true, Bool.not_eq_false']
  constructor
  · rintro ⟨ca, hca, rfl, usage, husage, h⟩
    split at h
    · cases h
    · rename_i hcert
      exact ⟨hca, usage, husage, by simpa using hcert⟩
  · rintro ⟨hca, usage, husage, hcert⟩
    refine ⟨true, hca, rfl, usage, husage, ?_⟩
    rw [hcert]
    rfl

theorem checkSigners_eq_ok_iff : ∀ signers : List Certificate,
    checkSigners signers = .ok () ↔ ∀ signer ∈ signers, signer.IsSigner
  | [] => ⟨fun _ => nofun, fun _ => rfl⟩
  | signer :: rest => by
    rw [checkSigners, ok_of_check, checkSigner_eq_ok_iff, checkSigners_eq_ok_iff rest,
      List.forall_mem_cons]

/-- A leaf that was good enough for an identity is good enough for the verifier,
which reads it again. -/
theorem checkLeafShape_of_checkLeaf {leaf : Certificate} {id : SpiffeId}
    (hparse : Certificate.parse leaf.der = .ok leaf) (h : checkLeaf leaf = .ok id) :
    checkLeafShape leaf = .ok id := by
  obtain ⟨hleaf, hid⟩ := (checkLeaf_eq_ok_iff leaf id).mp h
  exact (checkLeafShape_eq_ok_iff leaf id).mpr
    ⟨leaf, ⟨hparse, (leaf.spiffeId_eq_ok_iff id).mp hid⟩, hleaf.signingFlags⟩

/-! ### Identities -/

namespace X509Svid

/-- What reading an identity has checked. -/
theorem parse_eq_ok {chain key : Bytes} {svid : X509Svid} (h : parse chain key = .ok svid) :
    Certificate.readList (some maxChainLength) chain = .ok svid.chain ∧
      checkLeaf svid.leaf = .ok svid.spiffeId ∧ checkSigners svid.intermediates = .ok () := by
  unfold parse at h
  obtain ⟨certificates, hread, h⟩ := ok_of_steps.mp h
  have hread := ok_of_relabelled.mp hread
  split at h
  · cases h
  · rename_i leaf intermediates
    simp only [ok_of_steps, ok_of_pure] at h
    obtain ⟨id, hleaf, ⟨⟩, hsigners, privateKey, -, rfl⟩ := h
    exact ⟨hread, hleaf, hsigners⟩

/-- A hint changes nothing else about an identity. -/
theorem parseWithHint_eq_ok {chain key : Bytes} {hint : String} {svid : X509Svid}
    (h : parseWithHint chain key hint = .ok svid) :
    ∃ plain, parse chain key = .ok plain ∧ svid = { plain with hint := hintOf hint } := by
  obtain ⟨plain, hparse, h⟩ := ok_of_steps.mp h
  exact ⟨plain, hparse, (ok_of_pure.mp h).symm⟩

/-- With a leaf in shape, it is for the source to decide whether there is an
answer. -/
theorem verify_of_shape {svid : X509Svid} (h : checkLeafShape svid.leaf = .ok svid.spiffeId)
    (source : BundleSource X509Bundle) (now : Int) :
    (∃ bundle, source svid.spiffeId.trustDomain = .ok (some bundle) ∧
      svid.verify source now = .ok (chainVerifies bundle svid.leaf svid.intermediates now)) ∨
    (source svid.spiffeId.trustDomain = .ok none ∧
      svid.verify source now = .error (.bundleNotFound svid.spiffeId.trustDomain)) ∨
    ∃ reason, source svid.spiffeId.trustDomain = .error reason ∧
      svid.verify source now = .error (.bundleSource reason) := by
  unfold verify verifyChain
  rw [h]
  cases hsource : source svid.spiffeId.trustDomain with
  | error reason => exact .inr (.inr ⟨reason, rfl, by simp only [bind, Except.bind, hsource]; rfl⟩)
  | ok bundle? =>
    cases bundle? with
    | none => exact .inr (.inl ⟨rfl, by simp only [bind, Except.bind, hsource]; rfl⟩)
    | some bundle => exact .inl ⟨bundle, rfl, by simp only [bind, Except.bind, hsource]; rfl⟩

/-- **What is read can be verified.** An identity that is read has from one to
sixteen certificates, whose octets are those of the chain, each being what its
octets say. The leaf names the identity and may act as an end entity only, and
all others are signers. So verifying the identity comes to an answer, or to no
bundle of its own trust domain, or to what the source fails for; it never fails
for the leaf. -/
theorem parsed_verifiable {chain key : Bytes} {svid : X509Svid}
    (h : parse chain key = .ok svid ∨ ∃ hint, parseWithHint chain key hint = .ok svid) :
    (1 ≤ svid.chain.length ∧ svid.chain.length ≤ 16) ∧
    svid.chain.flatMap (·.der) = chain ∧
    (∀ certificate ∈ svid.chain, Certificate.parse certificate.der = .ok certificate) ∧
    svid.leaf.spiffeId = .ok svid.spiffeId ∧
    svid.leaf.IsEndEntity ∧
    (∀ signer ∈ svid.intermediates, signer.IsSigner) ∧
    ∀ (source : BundleSource X509Bundle) (now : Int),
      (∃ bundle, source svid.spiffeId.trustDomain = .ok (some bundle) ∧
        svid.verify source now = .ok (chainVerifies bundle svid.leaf svid.intermediates now)) ∨
      (source svid.spiffeId.trustDomain = .ok none ∧
        svid.verify source now = .error (.bundleNotFound svid.spiffeId.trustDomain)) ∨
      ∃ reason, source svid.spiffeId.trustDomain = .error reason ∧
        svid.verify source now = .error (.bundleSource reason) := by
  have hchecked : Certificate.readList (some maxChainLength) chain = .ok svid.chain ∧
      checkLeaf svid.leaf = .ok svid.spiffeId ∧ checkSigners svid.intermediates = .ok () := by
    rcases h with h | ⟨hint, h⟩
    · exact parse_eq_ok h
    · obtain ⟨plain, hparse, rfl⟩ := parseWithHint_eq_ok h
      have hplain := parse_eq_ok hparse
      exact hplain
  obtain ⟨hread, hleaf, hsigners⟩ := hchecked
  obtain ⟨hoctets, hparse, hcount⟩ := Certificate.readList_eq_ok hread
  obtain ⟨hend, hid⟩ := (checkLeaf_eq_ok_iff _ _).mp hleaf
  have hshape := checkLeafShape_of_checkLeaf (hparse _ List.mem_cons_self) hleaf
  exact ⟨⟨Nat.succ_pos _, hcount _ rfl⟩, hoctets, hparse, hid, hend,
    (checkSigners_eq_ok_iff _).mp hsigners, verify_of_shape hshape⟩

/-! ### An identity and its signer -/

/-- An element whose length has an octet of its own. -/
def written (tag : UInt8) (content : Bytes) : Bytes :=
  tag :: 0x81 :: UInt8.ofNat content.length :: content

/-- An extension of a kind. -/
def writtenExtension (kind : X509.ExtensionKind) (value : Bytes) : Bytes :=
  written 0x30 (written 0x06 kind.id ++ written 0x04 value)

/-- A certificate with nothing but extensions that says anything. -/
def writtenCertificate (extensions : List Bytes) : Bytes :=
  let algorithm := written 0x30 (written 0x06 [0x2a, 0x03])
  let name := written 0x30 []
  let validity := written 0x30
    (written 0x17 (Utf8.encode "250101000000Z") ++ written 0x17 (Utf8.encode "350101000000Z"))
  let bits := written 0x03 [0x00]
  written 0x30 (written 0x30 (written 0x02 [0x01] ++ algorithm ++ name ++ validity ++ name ++
    written 0x30 (algorithm ++ bits) ++ written 0xa3 (written 0x30 extensions.flatten)) ++
    algorithm ++ bits)

/-- A leaf that makes signatures, and the CA that it comes from. -/
def webChain : Bytes :=
  writtenCertificate
    [writtenExtension .keyUsage [0x03, 0x02, 0x07, 0x80],
      writtenExtension .basicConstraints (written 0x30 []),
      writtenExtension .subjectAltName
        (written 0x30 (written 0x86 (Utf8.encode "spiffe://acme.io/web")))] ++
  writtenCertificate
    [writtenExtension .keyUsage [0x03, 0x02, 0x02, 0x04],
      writtenExtension .basicConstraints (written 0x30 (written 0x01 [0xff]))]

/-- A key of no algorithm in use. -/
def webKey : Bytes :=
  [0x30, 0x0c, 0x02, 0x01, 0x00, 0x30, 0x05, 0x06, 0x03, 0x2a, 0x03, 0x04, 0x04, 0x00]

/-- An identity of two certificates, asked for at a source without bundles. -/
theorem parsed_verifiable_web :
    ∃ svid, parseWithHint webChain webKey "edge" = .ok svid ∧ svid.chain.length = 2 ∧
      svid.chain.flatMap (·.der) = webChain ∧
      svid.leaf.spiffeId = .ok svid.spiffeId ∧ svid.leaf.IsEndEntity ∧
      (∀ signer ∈ svid.intermediates, signer.IsSigner) ∧
      svid.verify (fun _ => .ok none) 1750000000 =
        .error (.bundleNotFound svid.spiffeId.trustDomain) := by
  have hlength : (parseWithHint webChain webKey "edge").toOption.map (·.chain.length) =
      some 2 := by decide +kernel
  obtain ⟨svid, hparse, hlength⟩ := Option.map_eq_some_iff.mp hlength
  have hparse := ok_of_result.mp hparse
  obtain ⟨-, hoctets, -, hid, hend, hsigners, hverify⟩ := parsed_verifiable (.inr ⟨_, hparse⟩)
  refine ⟨svid, hparse, hlength, hoctets, hid, hend, hsigners, ?_⟩
  rcases hverify (fun _ => .ok none) 1750000000 with ⟨_, h, -⟩ | ⟨-, h⟩ | ⟨_, h, -⟩
  · cases h
  · exact h
  · cases h

end X509Svid
end WorkloadIdentity
