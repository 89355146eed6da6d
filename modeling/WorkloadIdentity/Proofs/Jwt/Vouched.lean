/-
# Reading tokens with and without their signatures

A token may be read for what it says (`JwtSvid.parseInsecure`) and for whom it
is from (`JwtSvid.parseAndValidate`). Either way it is decoded alike, and its
claims are checked alike. All that stands between the two is whether a source
of bundles vouches for the token: the bundle of its trust domain has a key under
its key ID, and the signature is that key's. If so the two readings are one. If
not, the token is refused before anyone looks at its claims, so that the refusal
tells nothing about them.

Key definitions: `JwtSvid.IsKeyOf`, `JwtSvid.Vouched`.
Key theorems: `JwtSvid.parseAndValidate_of_vouched`,
`JwtSvid.exists_refusal_of_not_vouched`, `JwtSvid.readings_agree`.
-/
import WorkloadIdentity.Proofs.Jwt.Acceptance

namespace WorkloadIdentity
namespace JwtSvid

/-- The source has a bundle for the token's trust domain, and the bundle has
the authority under the token's key ID. -/
def IsKeyOf (source : BundleSource JwtBundle) (svid : JwtSvid) (authority : JwtAuthority) : Prop :=
  ∃ bundle keyId, source svid.spiffeId.trustDomain = .ok (some bundle) ∧
    svid.keyId = some keyId ∧ bundle.find? keyId = some authority

/-- The signature of a token that is decoded as `svid` is by the key that the
source has for it. -/
def Vouched (source : BundleSource JwtBundle) (token : String) (svid : JwtSvid) : Prop :=
  ∃ authority header claims signature, IsKeyOf source svid authority ∧
    Splits token header claims signature ∧
    Signs (Utf8.encode authority.jwk) header claims signature svid.algorithm

variable {source : BundleSource JwtBundle} {token : String} {svid : JwtSvid}

/-! ### What is checked before the claims -/

theorem vouched_iff (hdecode : decode token = .ok svid) :
    Vouched source token svid ↔ ∃ authority,
      findAuthority source svid.spiffeId.trustDomain svid.keyId = .ok authority ∧
      verifySignature token svid.algorithm authority = .ok () := by
  constructor
  · rintro ⟨authority, header, claims, signature, hkey, hsplit, hsigns⟩
    exact ⟨authority, (findAuthority_eq_ok_iff _ _ _ _).mpr hkey,
      (verifySignature_eq_ok_iff hsplit _ _).mpr hsigns⟩
  · rintro ⟨authority, hfind, hverify⟩
    obtain ⟨header, claims, signature, -, hsplit, -⟩ := (decode_eq_ok_iff _ _).mp hdecode
    exact ⟨authority, header, claims, signature, (findAuthority_eq_ok_iff _ _ _ _).mp hfind,
      hsplit, (verifySignature_eq_ok_iff hsplit _ _).mp hverify⟩

/-- A token that does not decode is refused for that, whatever the source
holds. -/
theorem readings_of_undecoded {e : JwtError} (hdecode : decode token = .error e)
    (source : BundleSource JwtBundle) (expected : List String) (now : Int) :
    parseInsecure token expected now = .error e ∧
      parseAndValidate token source expected now = .error e := by
  unfold parseInsecure parseAndValidate
  rw [hdecode]
  exact ⟨rfl, rfl⟩

/-- **With a signature that is vouched for, the readings are one,** in what they
accept and in what they refuse. -/
theorem parseAndValidate_of_vouched (hdecode : decode token = .ok svid)
    (hvouched : Vouched source token svid) (expected : List String) (now : Int) :
    parseAndValidate token source expected now = parseInsecure token expected now := by
  obtain ⟨authority, hfind, hverify⟩ := (vouched_iff hdecode).mp hvouched
  unfold parseAndValidate parseInsecure
  simp only [hdecode, bind, Except.bind, hfind, hverify]

/-- **A token that is not vouched for is refused without a look at its claims.** -/
theorem exists_refusal_of_not_vouched (hdecode : decode token = .ok svid)
    (hvouched : ¬ Vouched source token svid) :
    ∃ e, ∀ expected now, parseAndValidate token source expected now = .error e := by
  unfold parseAndValidate
  simp only [hdecode, bind, Except.bind]
  cases hfind : findAuthority source svid.spiffeId.trustDomain svid.keyId with
  | error e => exact ⟨e, fun _ _ => rfl⟩
  | ok authority =>
    cases hverify : verifySignature token svid.algorithm authority with
    | error e => exact ⟨e, fun _ _ => by simp only [hverify]⟩
    | ok _ => exact absurd ((vouched_iff hdecode).mpr ⟨authority, hfind, hverify⟩) hvouched

/-! ### The two readings -/

/-- What is read for what it says has been decoded. -/
theorem decode_of_parseInsecure {expected : List String} {now : Int}
    (h : parseInsecure token expected now = .ok svid) : decode token = .ok svid := by
  unfold parseInsecure at h
  simp only [ok_of_steps, ok_of_pure] at h
  obtain ⟨_, hdecode, -, -, rfl⟩ := h
  exact hdecode

/-- What is read for what it says holds for the audience at the time. -/
theorem holds_of_parseInsecure {expected : List String} {now : Int}
    (h : parseInsecure token expected now = .ok svid) : svid.Holds expected now := by
  unfold parseInsecure at h
  simp only [ok_of_steps, ok_of_pure] at h
  obtain ⟨_, -, ⟨⟩, hvalidate, rfl⟩ := h
  exact (validate_eq_ok_iff _ _ _).mp hvalidate

/-- What is accepted with its signature is accepted without. -/
theorem parseInsecure_of_parseAndValidate {expected : List String} {now : Int}
    (h : parseAndValidate token source expected now = .ok svid) :
    parseInsecure token expected now = .ok svid := by
  unfold parseAndValidate at h
  unfold parseInsecure
  simp only [ok_of_steps, ok_of_pure] at h ⊢
  obtain ⟨_, hdecode, _, _, _, _, ⟨⟩, hvalidate, rfl⟩ := h
  exact ⟨_, hdecode, (), hvalidate, rfl⟩

/-- **The two readings of a token agree.** With a signature check a token is
accepted, for an audience and at a time, if and only if the source vouches for
it and it is accepted without one for the same audience and at the same time. A
token that does not decode is refused for the same cause by both, whatever the
source holds. And a token that the source does not vouch for is refused for one
cause, whatever the audience and the time. -/
theorem readings_agree (token : String) (source : BundleSource JwtBundle) :
    (∀ expected now svid, parseAndValidate token source expected now = .ok svid ↔
      Vouched source token svid ∧ parseInsecure token expected now = .ok svid) ∧
    (∀ e, decode token = .error e → ∀ expected now,
      parseInsecure token expected now = .error e ∧
        parseAndValidate token source expected now = .error e) ∧
    (∀ svid, decode token = .ok svid → ¬ Vouched source token svid →
      ∃ e, ∀ expected now, parseAndValidate token source expected now = .error e) := by
  refine ⟨fun expected now svid => ⟨?_, ?_⟩, ?_, ?_⟩
  · intro h
    cases hdecode : decode token with
    | error e =>
      cases h.symm.trans (readings_of_undecoded hdecode source expected now).2
    | ok svid' =>
      have hvouched : Vouched source token svid' := by
        by_contra hnot
        obtain ⟨e, hrefused⟩ := exists_refusal_of_not_vouched hdecode hnot
        cases h.symm.trans (hrefused expected now)
      rw [parseAndValidate_of_vouched hdecode hvouched] at h
      obtain rfl := Except.ok.inj (hdecode.symm.trans (decode_of_parseInsecure h))
      exact ⟨hvouched, h⟩
  · rintro ⟨hvouched, h⟩
    rw [parseAndValidate_of_vouched (decode_of_parseInsecure h) hvouched, h]
  · intro e hdecode expected now
    exact readings_of_undecoded hdecode source expected now
  · intro svid hdecode hvouched
    exact exists_refusal_of_not_vouched hdecode hvouched

/-- One token is read alike with its key at hand, and refused for any audience
and at any time without it; a text that is no token is refused by both. -/
theorem readings_agree_serviceToken :
    (∃ svid, svid.spiffeId = ⟨"spiffe://example.org/service", 20⟩ ∧
      Vouched (fun _ => .ok (some serviceBundle)) serviceToken svid ∧
      parseInsecure serviceToken ["audience"] 1700000000 = .ok svid) ∧
    (decode "no.token" = .error .invalidFormat ∧
      parseAndValidate "no.token" (fun _ => .error "gone") ["audience"] 1700000000 =
        .error .invalidFormat) ∧
    ∃ e, ∀ expected now,
      parseAndValidate serviceToken (fun _ => .ok none) expected now = .error e := by
  obtain ⟨svid, haccepted, hid⟩ := Option.map_eq_some_iff.mp serviceToken_identity
  obtain ⟨hvouched, hread⟩ := ((readings_agree _ _).1 _ _ _).mp (ok_of_result.mp haccepted)
  refine ⟨⟨svid, hid, hvouched, hread⟩, ?_, ?_⟩
  · have hdecode : decode "no.token" = .error .invalidFormat := rfl
    exact ⟨hdecode, ((readings_agree _ _).2.1 _ hdecode _ _).2⟩
  · refine (readings_agree _ _).2.2 svid (decode_of_parseInsecure hread) ?_
    rintro ⟨_, _, _, _, ⟨_, _, hsource, -⟩, -⟩
    cases hsource

end JwtSvid
end WorkloadIdentity
