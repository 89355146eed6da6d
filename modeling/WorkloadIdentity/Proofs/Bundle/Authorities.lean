/-
# Authorities and their octets

A bundle is made from octets that are certificates one after the other, or from
none, and authorities may be added to it. What is read is whole: its octets are
taken apart to the end. What is added is not: octets that begin with a
certificate are taken as one authority, whatever is behind it, and all of them
are kept (`X509Bundle.add_eq_ok_iff`). So the octets of the authorities, one
after the other, are those of the same bundle as long as nothing was behind a
certificate that was added, and only then (`X509Bundle.rereads_iff`).

Key definitions: `X509Bundle.octets`, `X509Bundle.offer`.
Key theorems: `X509Bundle.parse_eq_ok_iff`, `X509Bundle.add_eq_ok_iff`,
`X509Bundle.parse_octets_iff`, `X509Bundle.foldl_offer`,
`X509Bundle.rereads_iff`.
-/
import WorkloadIdentity.Bundle.X509
import WorkloadIdentity.Proofs.X509.Concatenated

namespace WorkloadIdentity
namespace X509Bundle

/-! ### Reading and adding -/

theorem parse_eq_ok_iff {trustDomain : TrustDomain} {der : Bytes} {bundle : X509Bundle} :
    parse trustDomain der = .ok bundle ↔ bundle.trustDomain = trustDomain ∧
      bundle.authorities.flatMap (·.der) = der ∧ ∀ a ∈ bundle.authorities, a.IsWhole := by
  unfold parse
  simp only [ok_of_made, Certificate.readList_eq_ok_iff]
  constructor
  · rintro ⟨authorities, ⟨hder, hwhole, -⟩, rfl⟩
    exact ⟨rfl, hder, hwhole⟩
  · rintro ⟨rfl, hder, hwhole⟩
    exact ⟨bundle.authorities, ⟨hder, hwhole, nofun⟩, rfl⟩

/-- What begins with a certificate is added with all that is behind it. -/
theorem add_eq_ok_iff {bundle more : X509Bundle} {der : Bytes} :
    bundle.add der = .ok more ↔ ∃ extensions rest,
      X509.readCertificate der = some (extensions, rest) ∧
      more = { bundle with authorities := bundle.authorities ++ [⟨der, extensions⟩] } := by
  unfold add
  simp only [ok_of_made, Certificate.parse_eq_ok_iff]
  constructor
  · rintro ⟨authority, ⟨rfl, rest, hread⟩, rfl⟩
    exact ⟨authority.extensions, rest, hread, rfl⟩
  · rintro ⟨extensions, rest, hread, rfl⟩
    exact ⟨⟨der, extensions⟩, ⟨rfl, rest, hread⟩, rfl⟩

/-- The octets of the authorities, one after the other. -/
def octets (bundle : X509Bundle) : Bytes := bundle.authorities.flatMap (·.der)

/-- The octets of whole authorities, and of no others, are those of the bundle. -/
theorem parse_octets_iff (bundle : X509Bundle) :
    parse bundle.trustDomain bundle.octets = .ok bundle ↔ ∀ a ∈ bundle.authorities, a.IsWhole := by
  rw [parse_eq_ok_iff]
  exact ⟨fun h => h.2.2, fun h => ⟨rfl, rfl, h⟩⟩

/-! ### One offer after the other -/

/-- The bundle after an authority was offered: octets that are refused leave it as it is. -/
def offer (bundle : X509Bundle) (der : Bytes) : X509Bundle := (bundle.add der).toOption.getD bundle

theorem offer_eq (bundle : X509Bundle) (der : Bytes) : bundle.offer der =
    { bundle with
      authorities := bundle.authorities ++ (Certificate.parse der).toOption.toList } := by
  unfold offer add
  cases Certificate.parse der with
  | error cause => exact congrArg (X509Bundle.mk _) (List.append_nil _).symm
  | ok authority => rfl

/-- The authorities that were taken stand behind those of the start, in order. -/
theorem foldl_offer : ∀ (offers : List Bytes) (start : X509Bundle), offers.foldl offer start =
    { start with authorities := start.authorities ++
        offers.filterMap fun der => (Certificate.parse der).toOption }
  | [], start => congrArg (X509Bundle.mk _) (List.append_nil _).symm
  | der :: offers, start => by
    rw [List.foldl_cons, foldl_offer offers, offer_eq, List.append_assoc, List.filterMap_cons]
    cases (Certificate.parse der).toOption <;> rfl

/-- **A bundle is read again from its authorities if nothing is behind them.** Whatever is offered
to a bundle that is empty or has been read, the octets of its authorities are those of the same
bundle if and only if no octets that begin with a certificate and go on behind it were among the
offers. Such octets are taken as one authority. -/
theorem rereads_iff {trustDomain : TrustDomain} {start : X509Bundle}
    (hstart : start = empty trustDomain ∨ ∃ der, parse trustDomain der = .ok start)
    (offers : List Bytes) :
    (parse trustDomain (offers.foldl offer start).octets = .ok (offers.foldl offer start) ↔
      ∀ der ∈ offers, ∀ extensions rest,
        X509.readCertificate der = some (extensions, rest) → rest = []) ∧
    ∀ (bundle : X509Bundle) (der : Bytes) (more : X509Bundle), bundle.add der = .ok more ↔
      ∃ extensions rest, X509.readCertificate der = some (extensions, rest) ∧
        more = { bundle with authorities := bundle.authorities ++ [⟨der, extensions⟩] } := by
  refine ⟨?_, fun _ _ _ => add_eq_ok_iff⟩
  have hread : start.trustDomain = trustDomain ∧ ∀ a ∈ start.authorities, a.IsWhole := by
    rcases hstart with rfl | ⟨der, hparse⟩
    · exact ⟨rfl, nofun⟩
    · obtain ⟨htd, -, hwhole⟩ := parse_eq_ok_iff.mp hparse
      exact ⟨htd, hwhole⟩
  obtain ⟨rfl, hwhole⟩ := hread
  have htd : (offers.foldl offer start).trustDomain = start.trustDomain := by rw [foldl_offer]
  rw [← htd, parse_octets_iff, foldl_offer]
  simp only [List.forall_mem_append, List.mem_filterMap, ok_of_result]
  constructor
  · rintro ⟨-, htaken⟩ der hder extensions rest hread
    have hparse : Certificate.parse der = .ok ⟨der, extensions⟩ :=
      Certificate.parse_eq_ok_iff.mpr ⟨rfl, rest, hread⟩
    exact (Certificate.isWhole_iff_of_parse hparse).mp (htaken _ ⟨der, hder, hparse⟩) _ _ hread
  · intro hnothing
    refine ⟨hwhole, ?_⟩
    rintro a ⟨der, hder, hparse⟩
    exact (Certificate.isWhole_iff_of_parse hparse).mpr (hnothing der hder)

/-- Offers of which two are taken and one is refused, to a bundle that has been read. -/
theorem rereads_iff_two : ∃ start,
    parse ⟨"example.org"⟩ (Certificate.bareCertificate 1) = .ok start ∧
    parse ⟨"example.org"⟩ (offer (offer start [0x00]) (Certificate.bareCertificate 2)).octets =
      .ok (offer (offer start [0x00]) (Certificate.bareCertificate 2)) ∧
    (offer (offer start [0x00]) (Certificate.bareCertificate 2)).authorities.length = 2 := by
  have hlength : (parse ⟨"example.org"⟩ (Certificate.bareCertificate 1)).toOption.map (fun start =>
      (offer (offer start [0x00]) (Certificate.bareCertificate 2)).authorities.length) =
        some 2 := by decide +kernel
  obtain ⟨start, hstart, hlength⟩ := Option.map_eq_some_iff.mp hlength
  have hstart := ok_of_result.mp hstart
  have hnothing : ∀ der ∈ [[0x00], Certificate.bareCertificate 2], ∀ extensions rest,
      X509.readCertificate der = some (extensions, rest) → rest = [] := by
    have hrefused : X509.readCertificate [0x00] = none := by decide +kernel
    have hread : X509.readCertificate (Certificate.bareCertificate 2) = some ([], []) := by
      decide +kernel
    simp only [List.forall_mem_cons, hrefused, hread]
    refine ⟨nofun, ?_, nofun⟩
    rintro extensions rest heq
    exact (Prod.mk.inj (Option.some.inj heq)).2.symm
  exact ⟨start, hstart, (rereads_iff (.inr ⟨_, hstart⟩) _).1.mpr hnothing, hlength⟩

/-- With an octet behind it, a certificate is taken, and the bundle cannot be read again. -/
theorem rereads_trailing :
    (offer (empty ⟨"example.org"⟩) (Certificate.bareCertificate 1 ++ [0x00])).authorities.map
      (·.der) = [Certificate.bareCertificate 1 ++ [0x00]] ∧
    parse ⟨"example.org"⟩
      (offer (empty ⟨"example.org"⟩) (Certificate.bareCertificate 1 ++ [0x00])).octets =
        .error .malformed := by
  decide +kernel

end X509Bundle
end WorkloadIdentity
