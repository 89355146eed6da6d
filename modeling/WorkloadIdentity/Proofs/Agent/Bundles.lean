/-
# Messages of bundles have no order

The agent sends the bundles of trust domains as a map, whose entries come in any
order and are read one by one, up to the first that does not read. As long as
the names in the map are of different trust domains, however they are spelt, the
order makes no difference to the set that comes of it. The set has one bundle
for each entry, under the trust domain that the entry names (`BundleSet.IsOf`),
and there is a set only if every entry reads.

All this is said of any reader of bundles under names (`IsNamedReader`), which
the readers of X.509 bundles and of token keys are.

Key definitions: `BundleSet.IsOf`, `ReadsUnordered`.
Key theorems: `IsNamedReader.isOf`, `IsNamedReader.readsUnordered`,
`bundle_messages_unordered`.
-/
import WorkloadIdentity.Proofs.Agent.Context
import WorkloadIdentity.Proofs.Id.Reach

namespace WorkloadIdentity

/-! ### What a set holds of its entries -/

variable {ε β : Type} [HasTrustDomain β]

/-- The set holds one bundle for each entry and no more, and finds it under the
trust domain that the entry names. -/
structure BundleSet.IsOf (parse : TrustDomain → Bytes → Except ε β)
    (entries : List (String × Bytes)) (set : BundleSet β) : Prop where
  bundles : ∃ bundles, List.Forall₂ (Brings parse) entries bundles ∧ set.toList.Perm bundles
  found : ∀ entry ∈ entries, ∀ td, NamesBundleOf entry td →
    ∃ bundle, parse td entry.2 = .ok bundle ∧ set.find? td = some bundle

/-- The entries of a map are read into a set, all or none, in whatever order
they are. -/
structure ReadsUnordered (parse : TrustDomain → Bytes → Except ε β)
    (toSet : List (String × Bytes) → Except ApiError (BundleSet β)) : Prop where
  /-- There is a set if and only if every name and every bundle reads. -/
  exists_iff : ∀ entries, (∃ set, toSet entries = .ok set) ↔
    ∀ entry ∈ entries, ∃ td bundle, NamesBundleOf entry td ∧ parse td entry.2 = .ok bundle
  isOf : ∀ entries set, OfDifferentDomains entries → toSet entries = .ok set →
    set.IsOf parse entries
  /-- In two orders the entries are both refused, or are the same set. -/
  unordered : ∀ entries order, OfDifferentDomains entries → order.Perm entries →
    (∃ e e', toSet entries = .error e ∧ toSet order = .error e') ∨
      ∃ set, toSet entries = .ok set ∧ toSet order = .ok set

/-! ### Readers of entries -/

namespace IsNamedReader

variable {parse : TrustDomain → Bytes → Except ε β} {read : String × Bytes → Except ApiError β}

/-- The set of what is read is of the entries. -/
theorem isOf (h : IsNamedReader parse read) {entries : List (String × Bytes)} {bundles : List β}
    (hdifferent : OfDifferentDomains entries) (hread : entries.mapM read = .ok bundles) :
    (BundleSet.ofList bundles).IsOf parse entries := by
  refine ⟨⟨bundles, (ok_of_each.mp hread).imp fun _ _ hr => h.read_iff.mp hr,
    BundleSet.toList_ofList_perm (h.different hdifferent hread)⟩, ?_⟩
  intro entry hentry td hname
  obtain ⟨bundle, hparse, hlast⟩ := h.lastOf_of_named hdifferent hread hentry hname
  exact ⟨bundle, hparse, (BundleSet.find?_ofList _ _).trans hlast⟩

/-- What is read in another order is the same set. -/
theorem ofList_perm (h : IsNamedReader parse read) {entries order : List (String × Bytes)}
    {bundles : List β} (hdifferent : OfDifferentDomains entries) (horder : order.Perm entries)
    (hread : entries.mapM read = .ok bundles) :
    ∃ bundles', order.mapM read = .ok bundles' ∧
      BundleSet.ofList bundles' = BundleSet.ofList bundles := by
  obtain ⟨bundles', hread', hperm⟩ := perm_of_each horder hread
  exact ⟨bundles', hread',
    (BundleSet.ofList_append_perm [] hperm.symm (h.different hdifferent hread)).symm⟩

theorem readsUnordered (h : IsNamedReader parse read) :
    ReadsUnordered parse fun entries => (entries.mapM read).map BundleSet.ofList := by
  have hset : ∀ {entries : List (String × Bytes)} {set : BundleSet β},
      (entries.mapM read).map BundleSet.ofList = .ok set ↔
        ∃ bundles, entries.mapM read = .ok bundles ∧ BundleSet.ofList bundles = set := by
    intro entries set
    cases hread : entries.mapM read with
    | error e => exact ⟨nofun, nofun⟩
    | ok bundles =>
      exact ⟨fun hs => ⟨bundles, rfl, Except.ok.inj hs⟩,
        fun ⟨_, hb, hs⟩ => congrArg Except.ok (Except.ok.inj hb ▸ hs)⟩
  refine ⟨?_, ?_, ?_⟩
  · intro entries
    rw [← forall₂_congr fun _ _ => h.exists_read_iff, ← exists_ok_of_each]
    constructor
    · rintro ⟨set, hs⟩
      obtain ⟨bundles, hread, -⟩ := hset.mp hs
      exact ⟨bundles, hread⟩
    · rintro ⟨bundles, hread⟩
      exact ⟨_, hset.mpr ⟨bundles, hread, rfl⟩⟩
  · intro entries set hdifferent hs
    obtain ⟨bundles, hread, rfl⟩ := hset.mp hs
    exact h.isOf hdifferent hread
  · intro entries order hdifferent horder
    cases hread : entries.mapM read with
    | ok bundles =>
      obtain ⟨bundles', hread', hsame⟩ := h.ofList_perm hdifferent horder hread
      refine .inr ⟨BundleSet.ofList bundles, rfl, ?_⟩
      exact hset.mpr ⟨bundles', hread', hsame⟩
    | error e =>
      cases hread' : order.mapM read with
      | error e' => exact .inl ⟨e, e', rfl, rfl⟩
      | ok bundles' =>
        -- what is read in one order is read in the other
        obtain ⟨bundles, hboth, -⟩ := perm_of_each horder.symm hread'
        cases hread.symm.trans hboth

end IsNamedReader

/-! ### The two messages -/

theorem JwtBundle.trustDomain_insertAll : ∀ {keys : List Json} {bundle bundle' : JwtBundle},
    bundle.insertAll keys = .ok bundle' → bundle'.trustDomain = bundle.trustDomain
  | [], _, _, h => congrArg JwtBundle.trustDomain (Except.ok.inj h).symm
  | key :: keys, bundle, bundle', h => by
    obtain ⟨authority, -, h⟩ := ok_of_steps.mp h
    have hrest : bundle'.trustDomain = (bundle.insert authority).trustDomain :=
      JwtBundle.trustDomain_insertAll h
    exact hrest

theorem JwtBundle.trustDomain_of_parse {td : TrustDomain} {octets : Bytes} {bundle : JwtBundle}
    (h : JwtBundle.parse td octets = .ok bundle) : bundle.trustDomain = td := by
  unfold JwtBundle.parse at h
  split at h
  · cases h
  split at h
  · exact JwtBundle.trustDomain_insertAll h
  · cases h

theorem isNamedReader_jwt : IsNamedReader JwtBundle.parse readNamedJwtBundle :=
  .of_relabelled .jwtBundle JwtBundle.trustDomain_of_parse

/-- **Messages of bundles are read without loss and in any order.** For X.509
bundles and for token keys: a message becomes a set if and only if every entry's
name and bundle read. If no two of its entries name one trust domain, the set
holds one bundle for each entry and no more, the one that the entry's octets are
under the trust domain that its name is; and any two orders of the entries are
both refused or become the same set. A name is of a trust domain if it is the
trust domain's own, or an identity in it. -/
theorem bundle_messages_unordered :
    (∀ lists, ReadsUnordered X509Bundle.parse fun entries =>
      X509BundlesResponse.toSet ⟨lists, entries⟩) ∧
    (ReadsUnordered JwtBundle.parse fun entries => JwtBundlesResponse.toSet ⟨entries⟩) ∧
    ∀ (entry : String × Bytes) (td : TrustDomain), NamesBundleOf entry td ↔
      (IsName entry.1.toList ∧ td.name = entry.1) ∨
        ∃ x : Spelling, x.text = entry.1 ∧ x.domain = td :=
  ⟨fun _ => isNamedReader_x509.readsUnordered, isNamedReader_jwt.readsUnordered,
    fun _ _ => TrustDomain.parse_eq_ok_iff⟩

/-- Two trust domains, one by its name and one by an identity in it. -/
def twoNames (beta gamma : Bytes) : List (String × Bytes) :=
  [("beta.io", beta), ("spiffe://gamma.io/web", gamma)]

theorem namesBundleOf_gamma (gamma : Bytes) :
    NamesBundleOf ("spiffe://gamma.io/web", gamma) ⟨"gamma.io"⟩ := by
  show TrustDomain.parse "spiffe://gamma.io/web" = _
  exact ok_of_result.mp (by decide +kernel)

theorem ofDifferentDomains_twoNames (beta gamma : Bytes) :
    OfDifferentDomains (twoNames beta gamma) := by
  have hbeta : NamesBundleOf ("beta.io", beta) ⟨"beta.io"⟩ := by
    show TrustDomain.parse "beta.io" = _
    exact ok_of_result.mp (by decide +kernel)
  refine List.pairwise_pair.mpr fun td htd htd' => ?_
  have hsame := (Except.ok.inj (hbeta.symm.trans htd)).trans
    (Except.ok.inj ((namesBundleOf_gamma gamma).symm.trans htd')).symm
  exact absurd hsame (by decide)

/-- Two names change places, and the set stays the same; a set of keys has the
bundle of the name that is an identity; and with octets that are no keys there
is no set. -/
theorem bundle_messages_unordered_twoNames :
    (∃ set, X509BundlesResponse.toSet ⟨[], twoNames X509Svid.webChain []⟩ = .ok set ∧
      X509BundlesResponse.toSet ⟨[], (twoNames X509Svid.webChain []).reverse⟩ = .ok set ∧
      set.IsOf X509Bundle.parse (twoNames X509Svid.webChain [])) ∧
    (∃ set bundle, JwtBundlesResponse.toSet
        ⟨twoNames (Utf8.encode "\x7b\"keys\":[]\x7d")
          (Utf8.encode "\x7b\"keys\":[\x7b\"kid\":\"k\"\x7d]\x7d")⟩ = .ok set ∧
      set.find? ⟨"gamma.io"⟩ = some bundle) ∧
    ¬ ∃ set, JwtBundlesResponse.toSet ⟨twoNames (Utf8.encode "\x7b\"keys\":[]\x7d") []⟩ =
      .ok set := by
  obtain ⟨hx509, hjwt, -⟩ := bundle_messages_unordered
  refine ⟨?_, ?_, ?_⟩
  · have hread : (X509BundlesResponse.toSet ⟨[], twoNames X509Svid.webChain []⟩).toOption.isSome =
        true := by decide +kernel
    obtain ⟨set, hset⟩ := Option.isSome_iff_exists.mp hread
    have hset := ok_of_result.mp hset
    have hdifferent := ofDifferentDomains_twoNames X509Svid.webChain []
    refine ⟨set, hset, ?_, (hx509 []).isOf _ set hdifferent hset⟩
    rcases (hx509 []).unordered _ _ hdifferent (List.reverse_perm _) with
      ⟨e, -, hrefused, -⟩ | ⟨set', hset', hreverse⟩
    · cases hset.symm.trans hrefused
    · rw [hreverse, ← Except.ok.inj (hset.symm.trans hset')]
  · have hread : (JwtBundlesResponse.toSet
        ⟨twoNames (Utf8.encode "\x7b\"keys\":[]\x7d")
          (Utf8.encode "\x7b\"keys\":[\x7b\"kid\":\"k\"\x7d]\x7d")⟩).toOption.isSome = true := by
      decide +kernel
    obtain ⟨set, hset⟩ := Option.isSome_iff_exists.mp hread
    have hset := ok_of_result.mp hset
    obtain ⟨bundle, -, hfound⟩ := (hjwt.isOf _ set (ofDifferentDomains_twoNames _ _) hset).found _
      (.tail _ (.head _)) _ (namesBundleOf_gamma _)
    exact ⟨set, bundle, hset, hfound⟩
  · rintro ⟨set, hset⟩
    obtain ⟨td, bundle, -, hparse⟩ := (hjwt.exists_iff _).mp ⟨set, hset⟩ _ (.tail _ (.head _))
    have hnothing : Json.parse [] = none := Option.isNone_iff_eq_none.mp (by decide +kernel)
    unfold JwtBundle.parse at hparse
    rw [hnothing] at hparse
    cases hparse

end WorkloadIdentity
