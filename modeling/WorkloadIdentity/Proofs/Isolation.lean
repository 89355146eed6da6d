/-
# Trust domains do not affect each other

Whatever is verified, a leaf or a token, names the trust domain whose bundle
decides. A source of bundles is asked for that one only, and only after all
that can be told without it, so two sources that agree there give one answer
(`verifyChain_congr`, `JwtSvid.parseAndValidate_congr`). A leaf that is refused
for its shape is refused by every source, and a bundle without anchors trusts
nothing.

Key definitions: `X509Bundle.Anchorless`, `JwtSvid.NamesSubject`.
Key theorems: `verifyChain_congr`, `verifyChain_of_misshapen`,
`verifyChain_anchorless`, `JwtSvid.parseAndValidate_congr`,
`trust_domains_isolated`.
-/
import WorkloadIdentity.Proofs.Bundle.History
import WorkloadIdentity.Proofs.Jwt.Acceptance
import WorkloadIdentity.Proofs.X509.Leaf
import WorkloadIdentity.Proofs.X509.Path

namespace WorkloadIdentity

/-! ### Leaves -/

/-- No authority of the bundle can be an anchor. -/
def X509Bundle.Anchorless (bundle : X509Bundle) : Prop :=
  ∀ authority ∈ bundle.authorities, Path.Anchor.parse authority.der = none

variable {leaf : Certificate} {source source' : BundleSource X509Bundle}

/-- A leaf with something wrong is refused before any source is asked. -/
theorem verifyChain_of_misshapen {e : X509VerifyError} (h : Misshapen leaf e)
    (intermediates : List Certificate) (source : BundleSource X509Bundle) (now : Int) :
    verifyChain leaf intermediates source now = .error e := by
  unfold verifyChain
  rw [(checkLeafShape_eq_error_iff leaf e).mpr h]
  rfl

theorem namesIdentity_of_checkLeafShape {id : SpiffeId} (h : checkLeafShape leaf = .ok id) :
    NamesIdentity leaf id := by
  obtain ⟨certificate, hreads, -⟩ := (checkLeafShape_eq_ok_iff leaf id).mp h
  exact ⟨certificate, hreads⟩

/-- Sources that agree on the trust domain of the leaf give one answer. -/
theorem verifyChain_congr
    (h : ∀ id, NamesIdentity leaf id → source id.trustDomain = source' id.trustDomain)
    (intermediates : List Certificate) (now : Int) :
    verifyChain leaf intermediates source now = verifyChain leaf intermediates source' now := by
  cases hshape : checkLeafShape leaf with
  | error e =>
    have hwrong := (checkLeafShape_eq_error_iff leaf e).mp hshape
    rw [verifyChain_of_misshapen hwrong, verifyChain_of_misshapen hwrong]
  | ok id =>
    unfold verifyChain
    simp only [hshape, bind, Except.bind, h id (namesIdentity_of_checkLeafShape hshape)]

theorem chainVerifies_anchorless {bundle : X509Bundle} (h : bundle.Anchorless)
    (leaf : Certificate) (intermediates : List Certificate) (now : Int) :
    chainVerifies bundle leaf intermediates now = false := by
  have hanchors : (bundle.authorities.filterMap fun authority => Path.Anchor.parse authority.der) =
      [] := List.filterMap_eq_nil_iff.mpr h
  unfold chainVerifies
  simp only [hanchors, Path.isTrusted_nil, Bool.or_self]

/-- A certificate names at most one identity. -/
theorem NamesIdentity.unique {id id' : SpiffeId} (h : NamesIdentity leaf id)
    (h' : NamesIdentity leaf id') : id = id' := by
  obtain ⟨c, hparse, hid⟩ := h
  obtain ⟨c', hparse', hid'⟩ := h'
  obtain rfl := Except.ok.inj (hparse.symm.trans hparse')
  rw [← c.spiffeId_eq_ok_iff] at hid hid'
  exact Except.ok.inj (hid.symm.trans hid')

/-- With a bundle without anchors a leaf is not verified, even if it is not
refused. -/
theorem verifyChain_anchorless {id : SpiffeId} {bundle : X509Bundle} (hid : NamesIdentity leaf id)
    (hsource : source id.trustDomain = .ok (some bundle)) (h : bundle.Anchorless)
    (intermediates : List Certificate) (now : Int) :
    verifyChain leaf intermediates source now = .ok false ∨
      ∃ e, Misshapen leaf e ∧ verifyChain leaf intermediates source now = .error e := by
  cases hshape : checkLeafShape leaf with
  | error e =>
    have hwrong := (checkLeafShape_eq_error_iff leaf e).mp hshape
    exact .inr ⟨e, hwrong, verifyChain_of_misshapen hwrong _ _ _⟩
  | ok id' =>
    obtain rfl := hid.unique (namesIdentity_of_checkLeafShape hshape)
    refine .inl ?_
    unfold verifyChain
    simp only [hshape, bind, Except.bind, hsource, chainVerifies_anchorless h]
    rfl

/-! ### Tokens -/

namespace JwtSvid

/-- The token's claims name the identity as their subject. -/
def NamesSubject (token : String) (id : SpiffeId) : Prop :=
  ∃ header claims signature octets members subject, Splits token header claims signature ∧
    decodeSegment claims = .ok octets ∧ Json.parse octets = some (.object members) ∧
    Keyed.find? "sub" members = some (.string subject) ∧ SpiffeId.parse subject = .ok id

theorem namesSubject_of_decode {token : String} {svid : JwtSvid} (h : decode token = .ok svid) :
    NamesSubject token svid.spiffeId := by
  obtain ⟨header, claims, signature, read, hsplit, hcarries⟩ := (decode_eq_ok_iff _ _).mp h
  obtain ⟨octets, hoctets, hmembers⟩ := hcarries.claims
  obtain ⟨subject, hsubject, hid⟩ := hcarries.subject
  exact ⟨header, claims, signature, octets, svid.claims, subject, hsplit, hoctets, hmembers,
    hsubject, hid⟩

/-- A token has at most one subject. -/
theorem NamesSubject.unique {token : String} {id id' : SpiffeId} (h : NamesSubject token id)
    (h' : NamesSubject token id') : id = id' := by
  obtain ⟨header, claims, signature, octets, members, subject, hsplit, hoctets, hmembers, hsub,
    hid⟩ := h
  obtain ⟨header', claims', signature', octets', members', subject', hsplit', hoctets', hmembers',
    hsub', hid'⟩ := h'
  have hparts := (splitOn_eq_iff _ _ _ _).mpr hsplit
  rw [(splitOn_eq_iff _ _ _ _).mpr hsplit'] at hparts
  obtain ⟨rfl, rfl, rfl, -⟩ := by simpa using hparts
  obtain rfl := Except.ok.inj (hoctets.symm.trans hoctets')
  obtain rfl := Json.object.inj (Option.some.inj (hmembers.symm.trans hmembers'))
  obtain rfl := Json.string.inj (Option.some.inj (hsub.symm.trans hsub'))
  exact Except.ok.inj (hid.symm.trans hid')

/-- Sources that agree on the trust domain of the subject give one answer. -/
theorem parseAndValidate_congr {token : String} {source source' : BundleSource JwtBundle}
    (h : ∀ id, NamesSubject token id → source id.trustDomain = source' id.trustDomain)
    (expected : List String) (now : Int) :
    parseAndValidate token source expected now = parseAndValidate token source' expected now := by
  unfold parseAndValidate
  cases hdecode : decode token with
  | error e => rfl
  | ok svid =>
    have hfind : findAuthority source svid.spiffeId.trustDomain svid.keyId =
        findAuthority source' svid.spiffeId.trustDomain svid.keyId := by
      unfold findAuthority
      rw [h _ (namesSubject_of_decode hdecode)]
    simp only [bind, Except.bind, hfind]

end JwtSvid

/-! ### Isolation -/

open BundleSet (Change built lastAdded)

/-- **Trust domains are isolated.** Sets of bundles, however they came about,
that hold the same bundle for the trust domain of a leaf verify it alike; a leaf
with something wrong is refused alike by every source; and a bundle without
anchors trusts no leaf, whatever certificates are sent along. Sets that hold the
same bundle for the trust domain of a token's subject accept the token alike.
What a set holds for a trust domain is the bundle added last. -/
theorem trust_domains_isolated :
    (∀ (leaf : Certificate) (intermediates : List Certificate)
      (changes changes' : List (Change X509Bundle)) (now : Int),
      (∀ id, NamesIdentity leaf id →
        (built changes).find? id.trustDomain = (built changes').find? id.trustDomain) →
      verifyChain leaf intermediates (built changes).source now =
        verifyChain leaf intermediates (built changes').source now) ∧
    (∀ (leaf : Certificate) (e : X509VerifyError), Misshapen leaf e →
      ∀ (intermediates : List Certificate) (source : BundleSource X509Bundle) (now : Int),
        verifyChain leaf intermediates source now = .error e) ∧
    (∀ (leaf : Certificate) (id : SpiffeId) (source : BundleSource X509Bundle)
      (bundle : X509Bundle), NamesIdentity leaf id → source id.trustDomain = .ok (some bundle) →
      bundle.Anchorless → ∀ (intermediates : List Certificate) (now : Int),
        verifyChain leaf intermediates source now = .ok false ∨
          ∃ e, Misshapen leaf e ∧ verifyChain leaf intermediates source now = .error e) ∧
    (∀ (token : String) (expected : List String) (changes changes' : List (Change JwtBundle))
      (now : Int),
      (∀ id, JwtSvid.NamesSubject token id →
        (built changes).find? id.trustDomain = (built changes').find? id.trustDomain) →
      JwtSvid.parseAndValidate token (built changes).source expected now =
        JwtSvid.parseAndValidate token (built changes').source expected now) ∧
    (∀ (β : Type) [HasTrustDomain β] (changes : List (Change β)) (td : TrustDomain),
      (built changes).find? td = lastAdded td changes) := by
  refine ⟨?_, ?_, ?_, ?_, ?_⟩
  · intro leaf intermediates changes changes' now h
    exact verifyChain_congr (fun id hid => congrArg Except.ok (h id hid)) intermediates now
  · intro leaf e h intermediates source now
    exact verifyChain_of_misshapen h intermediates source now
  · intro leaf id source bundle hid hsource h intermediates now
    exact verifyChain_anchorless hid hsource h intermediates now
  · intro token expected changes changes' now h
    exact JwtSvid.parseAndValidate_congr (fun id hid => congrArg Except.ok (h id hid)) expected now
  · intro β _ changes td
    exact BundleSet.find?_built changes td

/-- A leaf with nothing but what a leaf has to have: a name. -/
def bareLeaf : Certificate :=
  ⟨[0x30, 0x68, 0x30, 0x5d, 0x02, 0x01, 0x01, 0x30, 0x04, 0x06, 0x02, 0x2a, 0x03, 0x30, 0x00, 0x30,
    0x1e, 0x17, 0x0d] ++ Utf8.encode "250101000000Z" ++ [0x17, 0x0d] ++
    Utf8.encode "350101000000Z" ++ [0x30, 0x00, 0x30, 0x09, 0x30, 0x04, 0x06, 0x02, 0x2a, 0x03,
    0x03, 0x01, 0x00, 0xa3, 0x23, 0x30, 0x21, 0x30, 0x1f, 0x06, 0x03, 0x55, 0x1d, 0x11, 0x04, 0x18,
    0x30, 0x16, 0x86, 0x14] ++ Utf8.encode "spiffe://acme.io/web" ++ [0x30, 0x04, 0x06, 0x02, 0x2a,
    0x03, 0x03, 0x01, 0x00], []⟩

/-- A token whose claims are a time of expiry and a subject. -/
def bareToken : String :=
  "eyJhbGciOiJFUzI1NiIsImtpZCI6ImsifQ." ++
    "eyJleHAiOjIwMDAwMDAwMDAsInN1YiI6InNwaWZmZTovL2FjbWUuaW8vd2ViIn0.AA"

theorem namesIdentity_bareLeaf : NamesIdentity bareLeaf ⟨"spiffe://acme.io/web", 16⟩ :=
  namesIdentity_of_checkLeafShape (by decide +kernel)

theorem namesSubject_bareToken :
    JwtSvid.NamesSubject bareToken ⟨"spiffe://acme.io/web", 16⟩ := by
  have hid : (JwtSvid.decode bareToken).toOption.map (·.spiffeId) =
      some ⟨"spiffe://acme.io/web", 16⟩ := by decide +kernel
  obtain ⟨svid, hdecode, hid⟩ := Option.map_eq_some_iff.mp hid
  rw [← hid]
  exact JwtSvid.namesSubject_of_decode (ok_of_result.mp hdecode)

/-- Bundles of another trust domain do not matter, nor does a bundle that holds
the leaf itself. -/
theorem isolated_from_other_bundles :
    NamesIdentity bareLeaf ⟨"spiffe://acme.io/web", 16⟩ ∧
    verifyChain bareLeaf [bareLeaf]
        (built [.add ⟨⟨"acme.io"⟩, [bareLeaf]⟩, .add ⟨⟨"acme.org"⟩, [bareLeaf]⟩]).source 1750000000 =
      verifyChain bareLeaf [bareLeaf]
        (built [.extend [⟨⟨"acme.org"⟩, []⟩], .collect [⟨⟨"acme.io"⟩, [bareLeaf]⟩]]).source
        1750000000 ∧
    verifyChain ⟨[], []⟩ [bareLeaf] (fun _ => .error "gone") 1750000000 =
      .error (.certificate .malformed) ∧
    verifyChain bareLeaf [bareLeaf] (built [.add ⟨⟨"acme.io"⟩, [bareLeaf]⟩]).source 1750000000 ≠
      .ok true ∧
    JwtSvid.parseAndValidate bareToken (built [.add (.empty ⟨"acme.org"⟩)]).source [] 1750000000 =
      JwtSvid.parseAndValidate bareToken (built []).source [] 1750000000 := by
  obtain ⟨hsame, hwrong, hanchorless, htoken, -⟩ := trust_domains_isolated
  refine ⟨namesIdentity_bareLeaf, ?_, ?_, ?_, ?_⟩
  · refine hsame bareLeaf _ _ _ _ fun id hid => ?_
    obtain rfl := hid.unique namesIdentity_bareLeaf
    decide +kernel
  · exact hwrong ⟨[], []⟩ _ (.unreadable (by decide +kernel)) _ _ _
  · have hbundle : X509Bundle.Anchorless ⟨⟨"acme.io"⟩, [bareLeaf]⟩ := by
      intro authority ha
      obtain rfl := List.mem_singleton.mp ha
      decide +kernel
    have hgiven : (built [.add ⟨⟨"acme.io"⟩, [bareLeaf]⟩]).source
        (SpiffeId.mk "spiffe://acme.io/web" 16).trustDomain =
          .ok (some (X509Bundle.mk ⟨"acme.io"⟩ [bareLeaf])) := by decide +kernel
    rcases hanchorless bareLeaf _ _ _ namesIdentity_bareLeaf hgiven hbundle [bareLeaf] 1750000000 with h | ⟨e, -, h⟩
    · rw [h]
      decide
    · rw [h]
      nofun
  · refine htoken bareToken _ _ _ _ fun id hid => ?_
    obtain rfl := hid.unique namesSubject_bareToken
    decide +kernel

end WorkloadIdentity
