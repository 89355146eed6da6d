/-
# Contexts are whole

A message becomes a context as a whole or not at all: it does if and only if
there is an identity in it and every part of it reads
(`X509SvidResponse.Reads`). The context then has the identities of all entries
in order, and for every trust domain that the message speaks of the bundle that
counts: the one that the message names for the trust domain, and else the one
that came with the last identity of the trust domain. No order of the named
bundles makes a difference, as long as they are of different trust domains. So
an identity of a context always has the bundle that others verify it with
(`X509Context.find?_of_mem`).

Key definitions: `X509SvidEntry.IsOf`, `X509SvidEntry.Makes`, `NamesBundleOf`,
`IsNamedReader`, `X509SvidResponse.Reads`.
Key theorems: `X509Context.exists_ofResponse_iff`, `X509Context.find?_of_mem`,
`X509Context.ofResponse_whole`.
-/
import WorkloadIdentity.Agent.Context
import WorkloadIdentity.Proofs.Bundle.Authorities
import WorkloadIdentity.Proofs.Bundle.History
import WorkloadIdentity.Proofs.Outcome
import WorkloadIdentity.Proofs.X509.Chain

namespace WorkloadIdentity

/-! ### What the parts of a message say -/

/-- The entry's chain and key are an identity of the trust domain. -/
def X509SvidEntry.IsOf (entry : X509SvidEntry) (td : TrustDomain) : Prop :=
  ∃ svid, X509Svid.parse entry.chain entry.privateKey = .ok svid ∧ svid.spiffeId.trustDomain = td

/-- The identity is the one of the entry's chain and key, with the entry's hint
unless that is empty. -/
structure X509SvidEntry.Makes (entry : X509SvidEntry) (svid : X509Svid) : Prop where
  parse : X509Svid.parse entry.chain entry.privateKey = .ok { svid with hint := none }
  hint : svid.hint = if entry.hint = "" then none else some entry.hint

/-- The bundle stands in the message under the name of the trust domain. -/
def NamesBundleOf (entry : String × Bytes) (td : TrustDomain) : Prop :=
  TrustDomain.parse entry.1 = .ok td

/-- There is an identity in the message, every chain, key and bundle of an
identity reads, and every name and bundle that stands under a name. -/
structure X509SvidResponse.Reads (response : X509SvidResponse) : Prop where
  nonempty : response.svids ≠ []
  issued : ∀ entry ∈ response.svids, ∃ td bundle,
    entry.IsOf td ∧ X509Bundle.parse td entry.bundle = .ok bundle
  federated : ∀ entry ∈ response.federatedBundles, ∃ td bundle,
    NamesBundleOf entry td ∧ X509Bundle.parse td entry.2 = .ok bundle

/-! ### Parts that read -/

theorem X509Bundle.trustDomain_of_parse {td : TrustDomain} {der : Bytes} {bundle : X509Bundle}
    (h : X509Bundle.parse td der = .ok bundle) : bundle.trustDomain = td :=
  (X509Bundle.parse_eq_ok_iff.mp h).1

theorem X509Svid.hint_of_parse {chain key : Bytes} {svid : X509Svid}
    (h : X509Svid.parse chain key = .ok svid) : svid.hint = none := by
  unfold X509Svid.parse at h
  obtain ⟨certificates, -, h⟩ := ok_of_steps.mp h
  split at h
  · cases h
  · simp only [ok_of_steps, ok_of_pure] at h
    obtain ⟨id, -, -, -, privateKey, -, rfl⟩ := h
    rfl

theorem X509SvidEntry.toSvid_eq_ok_iff {entry : X509SvidEntry} {svid : X509Svid} :
    entry.toSvid = .ok svid ↔ entry.Makes svid := by
  have hhint : X509Svid.hintOf entry.hint = if entry.hint = "" then none else some entry.hint := by
    simp [X509Svid.hintOf, String.isEmpty_iff]
  unfold toSvid X509Svid.parseWithHint
  rw [ok_of_relabelled, ok_of_steps]
  constructor
  · rintro ⟨plain, hparse, h⟩
    obtain rfl := ok_of_pure.mp h
    refine ⟨?_, hhint⟩
    have hplain : ({ plain with hint := none } : X509Svid) = plain := by
      rw [← X509Svid.hint_of_parse hparse]
    rw [hparse, ← hplain]
  · rintro ⟨hparse, h⟩
    refine ⟨_, hparse, ok_of_pure.mpr ?_⟩
    rw [hhint, ← h]

theorem X509SvidEntry.toSvidAndBundle_eq_ok_iff {entry : X509SvidEntry} {svid : X509Svid}
    {bundle : X509Bundle} :
    entry.toSvidAndBundle = .ok (svid, bundle) ↔
      entry.Makes svid ∧ X509Bundle.parse svid.spiffeId.trustDomain entry.bundle = .ok bundle := by
  unfold toSvidAndBundle readX509Bundle
  simp only [ok_of_steps, ok_of_pure, ok_of_relabelled, toSvid_eq_ok_iff, Prod.mk.injEq]
  constructor
  · rintro ⟨_, hmakes, _, hbundle, rfl, rfl⟩
    exact ⟨hmakes, hbundle⟩
  · rintro ⟨hmakes, hbundle⟩
    exact ⟨svid, hmakes, bundle, hbundle, rfl, rfl⟩

/-! ### Bundles under names

X.509 bundles and token keys are read alike but for what is parsed under a name,
so what they have in common is said of any `parse`. -/

/-- No two entries name one trust domain. -/
def OfDifferentDomains (entries : List (String × Bytes)) : Prop :=
  entries.Pairwise fun a b => ∀ td, NamesBundleOf a td → ¬ NamesBundleOf b td

section

variable {ε β : Type} [HasTrustDomain β]

/-- The bundle is the one that the entry's octets are, under the trust domain
that the entry names. -/
def Brings (parse : TrustDomain → Bytes → Except ε β) (entry : String × Bytes) (bundle : β) : Prop :=
  NamesBundleOf entry (HasTrustDomain.trustDomain bundle) ∧
    parse (HasTrustDomain.trustDomain bundle) entry.2 = .ok bundle

/-- The reader takes an entry apart into a trust domain's name and what is
parsed under it. -/
structure IsNamedReader (parse : TrustDomain → Bytes → Except ε β)
    (read : String × Bytes → Except ApiError β) : Prop where
  trustDomain : ∀ {td octets bundle}, parse td octets = .ok bundle →
    HasTrustDomain.trustDomain bundle = td
  read_iff : ∀ {entry bundle}, read entry = .ok bundle ↔ Brings parse entry bundle

variable {parse : TrustDomain → Bytes → Except ε β} {read : String × Bytes → Except ApiError β}

/-- Reading the name and then what stands under it is such a reader. -/
theorem IsNamedReader.of_relabelled (label : ε → ApiError)
    (htrustDomain : ∀ {td octets bundle}, parse td octets = .ok bundle →
      HasTrustDomain.trustDomain bundle = td) :
    IsNamedReader parse fun entry =>
      (TrustDomain.parse entry.1).mapError .spiffeId >>= fun td =>
        (parse td entry.2).mapError label := by
  refine ⟨htrustDomain, fun {entry bundle} => ?_⟩
  unfold Brings
  simp only [ok_of_steps, ok_of_relabelled]
  constructor
  · rintro ⟨td, hname, hbundle⟩
    obtain rfl := htrustDomain hbundle
    exact ⟨hname, hbundle⟩
  · rintro ⟨hname, hbundle⟩
    exact ⟨_, hname, hbundle⟩

theorem IsNamedReader.exists_read_iff (h : IsNamedReader parse read) {entry : String × Bytes} :
    (∃ bundle, read entry = .ok bundle) ↔
      ∃ td bundle, NamesBundleOf entry td ∧ parse td entry.2 = .ok bundle := by
  constructor
  · rintro ⟨bundle, hread⟩
    obtain ⟨hname, hparse⟩ := h.read_iff.mp hread
    exact ⟨_, bundle, hname, hparse⟩
  · rintro ⟨td, bundle, hname, hparse⟩
    obtain rfl := h.trustDomain hparse
    exact ⟨bundle, h.read_iff.mpr ⟨hname, hparse⟩⟩

/-- Entries of different trust domains bring bundles of different trust
domains. -/
theorem IsNamedReader.different (h : IsNamedReader parse read) {entries : List (String × Bytes)}
    {bundles : List β} (hdifferent : OfDifferentDomains entries)
    (hread : entries.mapM read = .ok bundles) :
    bundles.Pairwise fun a b => HasTrustDomain.trustDomain a ≠ HasTrustDomain.trustDomain b := by
  refine pairwise_of_each (fun a b a' b' ha hb hab heq => ?_) hread hdifferent
  exact hab _ (h.read_iff.mp ha).1 (heq ▸ (h.read_iff.mp hb).1)

/-- An entry brings the last bundle of the trust domain that it names. -/
theorem IsNamedReader.lastOf_of_named (h : IsNamedReader parse read)
    {entries : List (String × Bytes)} {bundles : List β} (hdifferent : OfDifferentDomains entries)
    (hread : entries.mapM read = .ok bundles) {entry : String × Bytes} (hentry : entry ∈ entries)
    {td : TrustDomain} (hname : NamesBundleOf entry td) :
    ∃ bundle, parse td entry.2 = .ok bundle ∧ BundleSet.lastOf td bundles = some bundle := by
  obtain ⟨bundle, hr⟩ := exists_ok_of_each.mp ⟨_, hread⟩ entry hentry
  obtain ⟨hname', hparse⟩ := h.read_iff.mp hr
  obtain rfl := Except.ok.inj (hname'.symm.trans hname)
  exact ⟨bundle, hparse, (BundleSet.lastOf_eq_some_iff_mem (h.different hdifferent hread)).mpr
    ⟨(mem_of_each hread bundle).mpr ⟨entry, hentry, hr⟩, rfl⟩⟩

end

theorem isNamedReader_x509 : IsNamedReader X509Bundle.parse readNamedX509Bundle :=
  .of_relabelled .x509Bundle X509Bundle.trustDomain_of_parse

namespace X509SvidEntry

variable {entry : X509SvidEntry}

theorem Makes.isOf {svid : X509Svid} (h : entry.Makes svid) :
    entry.IsOf svid.spiffeId.trustDomain :=
  ⟨_, h.parse, rfl⟩

theorem IsOf.exists_makes {td : TrustDomain} (h : entry.IsOf td) :
    ∃ svid, entry.Makes svid ∧ svid.spiffeId.trustDomain = td := by
  obtain ⟨plain, hparse, rfl⟩ := h
  refine ⟨{ plain with hint := if entry.hint = "" then none else some entry.hint }, ⟨?_, rfl⟩, rfl⟩
  rw [hparse, ← X509Svid.hint_of_parse hparse]

/-- A chain and a key are an identity of one trust domain. -/
theorem Makes.trustDomain_eq {svid : X509Svid} {td : TrustDomain} (h : entry.Makes svid)
    (htd : entry.IsOf td) : svid.spiffeId.trustDomain = td := by
  obtain ⟨plain, hparse, rfl⟩ := htd
  obtain rfl := Except.ok.inj (hparse.symm.trans h.parse)
  rfl

theorem Makes.hint_eq_none_iff {svid : X509Svid} (h : entry.Makes svid) :
    svid.hint = none ↔ entry.hint = "" := by
  rw [h.hint]
  split <;> simp_all

/-- An entry reads if and only if its identity does, and its bundle under the
identity's trust domain. -/
theorem exists_toSvidAndBundle_iff :
    (∃ pair, entry.toSvidAndBundle = .ok pair) ↔
      ∃ td bundle, entry.IsOf td ∧ X509Bundle.parse td entry.bundle = .ok bundle := by
  constructor
  · rintro ⟨⟨svid, bundle⟩, h⟩
    obtain ⟨hmakes, hbundle⟩ := toSvidAndBundle_eq_ok_iff.mp h
    exact ⟨_, bundle, hmakes.isOf, hbundle⟩
  · rintro ⟨td, bundle, htd, hbundle⟩
    obtain ⟨svid, hmakes, rfl⟩ := htd.exists_makes
    exact ⟨(svid, bundle), toSvidAndBundle_eq_ok_iff.mpr ⟨hmakes, hbundle⟩⟩

end X509SvidEntry

/-! ### Contexts -/

namespace X509Context

variable {response : X509SvidResponse} {context : X509Context}

/-- A context is made of what each entry and each named bundle holds. -/
theorem ofResponse_eq_ok_iff :
    ofResponse response = .ok context ↔ response.svids ≠ [] ∧ ∃ issued federated,
      response.svids.mapM X509SvidEntry.toSvidAndBundle = .ok issued ∧
      response.federatedBundles.mapM readNamedX509Bundle = .ok federated ∧
      (⟨issued.map (·.1), BundleSet.ofList (issued.map (·.2) ++ federated)⟩ : X509Context) =
        context := by
  unfold ofResponse
  simp only [ok_of_unless, ok_of_steps, ok_of_pure, List.isEmpty_iff]
  constructor
  · rintro ⟨hsome, issued, hissued, federated, hfederated, h⟩
    exact ⟨hsome, issued, federated, hissued, hfederated, h⟩
  · rintro ⟨hsome, issued, federated, hissued, hfederated, h⟩
    exact ⟨hsome, issued, hissued, federated, hfederated, h⟩

/-- A message becomes a context if and only if all of it reads. -/
theorem exists_ofResponse_iff :
    (∃ context, ofResponse response = .ok context) ↔ response.Reads := by
  have heach : (∃ context, ofResponse response = .ok context) ↔ response.svids ≠ [] ∧
      (∃ issued, response.svids.mapM X509SvidEntry.toSvidAndBundle = .ok issued) ∧
      ∃ federated, response.federatedBundles.mapM readNamedX509Bundle = .ok federated := by
    simp only [ofResponse_eq_ok_iff]
    constructor
    · rintro ⟨_, hsome, issued, federated, hissued, hfederated, -⟩
      exact ⟨hsome, ⟨issued, hissued⟩, federated, hfederated⟩
    · rintro ⟨hsome, ⟨issued, hissued⟩, federated, hfederated⟩
      exact ⟨_, hsome, issued, federated, hissued, hfederated, rfl⟩
  rw [heach, exists_ok_of_each, exists_ok_of_each]
  simp only [X509SvidEntry.exists_toSvidAndBundle_iff, isNamedReader_x509.exists_read_iff]
  exact ⟨fun ⟨hsome, hissued, hfederated⟩ => ⟨hsome, hissued, hfederated⟩,
    fun h => ⟨h.nonempty, h.issued, h.federated⟩⟩

/-- The identities are those of the entries in order. -/
theorem forall₂_makes (h : ofResponse response = .ok context) :
    List.Forall₂ X509SvidEntry.Makes response.svids context.svids := by
  obtain ⟨-, issued, federated, hissued, -, rfl⟩ := ofResponse_eq_ok_iff.mp h
  refine List.forall₂_map_right_iff.mpr ((ok_of_each.mp hissued).imp fun entry pair hpair => ?_)
  exact (X509SvidEntry.toSvidAndBundle_eq_ok_iff.mp hpair).1

/-- The bundle that comes with an identity is of the identity's trust
domain. -/
theorem trustDomain_of_issued {svids : List X509SvidEntry} {issued : List (X509Svid × X509Bundle)}
    (h : svids.mapM X509SvidEntry.toSvidAndBundle = .ok issued) {pair : X509Svid × X509Bundle}
    (hpair : pair ∈ issued) : pair.2.trustDomain = pair.1.spiffeId.trustDomain := by
  obtain ⟨entry, -, hentry⟩ := (mem_of_each h pair).mp hpair
  exact X509Bundle.trustDomain_of_parse (X509SvidEntry.toSvidAndBundle_eq_ok_iff.mp hentry).2

/-- The trust domains of a context are those of its identities and those that
the message names. -/
theorem mem_names_iff (h : ofResponse response = .ok context) (td : TrustDomain) :
    td.name ∈ context.bundles.names ↔
      (∃ svid ∈ context.svids, svid.spiffeId.trustDomain = td) ∨
        ∃ entry ∈ response.federatedBundles, NamesBundleOf entry td := by
  obtain ⟨-, issued, federated, hissued, hfederated, rfl⟩ := ofResponse_eq_ok_iff.mp h
  rw [BundleSet.mem_names_ofList]
  constructor
  · rintro ⟨bundle, hmem, rfl⟩
    rcases List.mem_append.mp hmem with hmem | hmem
    · obtain ⟨pair, hpair, rfl⟩ := List.mem_map.mp hmem
      exact .inl ⟨pair.1, List.mem_map_of_mem hpair, (trustDomain_of_issued hissued hpair).symm⟩
    · obtain ⟨entry, hentry, hread⟩ := (mem_of_each hfederated bundle).mp hmem
      exact .inr ⟨entry, hentry, (isNamedReader_x509.read_iff.mp hread).1⟩
  · rintro (⟨svid, hmem, rfl⟩ | ⟨entry, hentry, hname⟩)
    · obtain ⟨pair, hpair, rfl⟩ := List.mem_map.mp hmem
      exact ⟨pair.2, List.mem_append_left _ (List.mem_map_of_mem hpair),
        trustDomain_of_issued hissued hpair⟩
    · obtain ⟨bundle, hread⟩ := exists_ok_of_each.mp ⟨_, hfederated⟩ entry hentry
      have hname' := (isNamedReader_x509.read_iff.mp hread).1
      exact ⟨bundle, List.mem_append_right _ ((mem_of_each hfederated bundle).mpr
        ⟨entry, hentry, hread⟩), Except.ok.inj (hname'.symm.trans hname)⟩

/-- **An identity of a context has its bundle.** -/
theorem find?_of_mem (h : ofResponse response = .ok context) {svid : X509Svid}
    (hsvid : svid ∈ context.svids) :
    ∃ bundle, context.bundles.find? svid.spiffeId.trustDomain = some bundle :=
  Keyed.mem_keys_iff_find?.mp ((mem_names_iff h _).mpr (.inl ⟨svid, hsvid, rfl⟩))

/-- A bundle that the message names takes the place of those that come with
identities. -/
theorem find?_of_named (h : ofResponse response = .ok context)
    (hdifferent : response.federatedBundles.Pairwise fun a b =>
      ∀ td, NamesBundleOf a td → ¬ NamesBundleOf b td)
    {entry : String × Bytes} (hentry : entry ∈ response.federatedBundles) {td : TrustDomain}
    (htd : NamesBundleOf entry td) :
    ∃ bundle, X509Bundle.parse td entry.2 = .ok bundle ∧
      context.bundles.find? td = some bundle := by
  obtain ⟨-, issued, federated, -, hfederated, rfl⟩ := ofResponse_eq_ok_iff.mp h
  obtain ⟨bundle, hbundle, hlast⟩ :=
    isNamedReader_x509.lastOf_of_named hdifferent hfederated hentry htd
  refine ⟨bundle, hbundle, ?_⟩
  rw [BundleSet.find?_ofList, BundleSet.lastOf_append, hlast, Option.some_or]

/-- Where the message names none, the bundle of a trust domain is the one that
came with its last identity. -/
theorem find?_of_last (h : ofResponse response = .ok context) {td : TrustDomain}
    (hunnamed : ∀ entry ∈ response.federatedBundles, ¬ NamesBundleOf entry td)
    {front back : List X509SvidEntry} {entry : X509SvidEntry}
    (hsplit : response.svids = front ++ entry :: back) (hentry : entry.IsOf td)
    (hback : ∀ later ∈ back, ¬ later.IsOf td) :
    ∃ bundle, X509Bundle.parse td entry.bundle = .ok bundle ∧
      context.bundles.find? td = some bundle := by
  obtain ⟨-, issued, federated, hissued, hfederated, rfl⟩ := ofResponse_eq_ok_iff.mp h
  rw [hsplit] at hissued
  obtain ⟨fronts, ⟨svid, bundle⟩, backs, rfl, hread, hbacks⟩ := split_of_each hissued
  obtain ⟨hmakes, hbundle⟩ := X509SvidEntry.toSvidAndBundle_eq_ok_iff.mp hread
  obtain rfl := hmakes.trustDomain_eq hentry
  have hnone : BundleSet.lastOf svid.spiffeId.trustDomain federated = none := by
    refine BundleSet.lastOf_eq_none_iff.mpr fun named hnamed htd => ?_
    obtain ⟨entry', hentry', hread'⟩ := (mem_of_each hfederated named).mp hnamed
    have hname := (isNamedReader_x509.read_iff.mp hread').1
    exact hunnamed entry' hentry' (htd ▸ hname)
  have hlast : BundleSet.lastOf svid.spiffeId.trustDomain
      ((fronts ++ (svid, bundle) :: backs).map (·.2)) = some bundle := by
    refine BundleSet.lastOf_eq_some_iff.mpr ⟨X509Bundle.trustDomain_of_parse hbundle,
      fronts.map (·.2), backs.map (·.2), by rw [List.map_append, List.map_cons], ?_⟩
    intro later hlater htd
    obtain ⟨pair, hpair, rfl⟩ := List.mem_map.mp hlater
    obtain ⟨entry', hentry', hread'⟩ := (mem_of_each hbacks pair).mp hpair
    have hmakes' := (X509SvidEntry.toSvidAndBundle_eq_ok_iff.mp hread').1
    have hsame := (trustDomain_of_issued hbacks hpair).symm.trans htd
    exact hback entry' hentry' (hsame ▸ hmakes'.isOf)
  refine ⟨bundle, hbundle, ?_⟩
  rw [BundleSet.find?_ofList, BundleSet.lastOf_append, hnone, Option.none_or, hlast]

/-- The order of the named bundles makes no difference. -/
theorem ofResponse_perm (h : ofResponse response = .ok context)
    (hdifferent : response.federatedBundles.Pairwise fun a b =>
      ∀ td, NamesBundleOf a td → ¬ NamesBundleOf b td)
    {order : List (String × Bytes)} (horder : order.Perm response.federatedBundles) :
    ofResponse { response with federatedBundles := order } = .ok context := by
  obtain ⟨hsome, issued, federated, hissued, hfederated, rfl⟩ := ofResponse_eq_ok_iff.mp h
  obtain ⟨federated', hfederated', hperm⟩ := perm_of_each horder hfederated
  refine ofResponse_eq_ok_iff.mpr ⟨hsome, issued, federated', hissued, hfederated', ?_⟩
  rw [BundleSet.ofList_append_perm _ hperm.symm (isNamedReader_x509.different hdifferent hfederated)]

/-- **Contexts are whole.** The source makes a context of a message piece by
piece, adding to one set the bundles that come with identities and then those
that the message names, in whatever order these happen to stand. For every
message whose named bundles are of different trust domains, however they are
spelt: there is a context if and only if there is an identity in the message and
all of it reads. The context has one identity for each entry, in order, made of
the entry's chain and key, with no hint exactly if the entry's is empty. It has
bundles of its identities' trust domains, of those that the message names, and
of no others. The bundle of a trust domain is the named one if there is one, and
else the one that came with the last identity of that trust domain. And another
order of the named bundles makes the same context. -/
theorem ofResponse_whole (response : X509SvidResponse)
    (hdifferent : response.federatedBundles.Pairwise fun a b =>
      ∀ td, NamesBundleOf a td → ¬ NamesBundleOf b td) :
    ((∃ context, ofResponse response = .ok context) ↔ response.Reads) ∧
    ∀ context, ofResponse response = .ok context →
      List.Forall₂ (fun entry svid => entry.Makes svid ∧ (svid.hint = none ↔ entry.hint = ""))
        response.svids context.svids ∧
      (∀ td : TrustDomain, td.name ∈ context.bundles.names ↔
        (∃ svid ∈ context.svids, svid.spiffeId.trustDomain = td) ∨
          ∃ entry ∈ response.federatedBundles, NamesBundleOf entry td) ∧
      (∀ entry ∈ response.federatedBundles, ∀ td, NamesBundleOf entry td →
        ∃ bundle, X509Bundle.parse td entry.2 = .ok bundle ∧
          context.bundles.find? td = some bundle) ∧
      (∀ td, (∀ entry ∈ response.federatedBundles, ¬ NamesBundleOf entry td) →
        ∀ front entry back, response.svids = front ++ entry :: back → entry.IsOf td →
          (∀ later ∈ back, ¬ later.IsOf td) →
          ∃ bundle, X509Bundle.parse td entry.bundle = .ok bundle ∧
            context.bundles.find? td = some bundle) ∧
      ∀ order, order.Perm response.federatedBundles →
        ofResponse { response with federatedBundles := order } = .ok context := by
  refine ⟨exists_ofResponse_iff, fun context h => ⟨?_, mem_names_iff h, ?_, ?_, ?_⟩⟩
  · exact (forall₂_makes h).imp fun entry svid hmakes => ⟨hmakes, hmakes.hint_eq_none_iff⟩
  · intro entry hentry td htd
    exact find?_of_named h hdifferent hentry htd
  · intro td hunnamed front entry back hsplit hentry hback
    exact find?_of_last h hunnamed hsplit hentry hback
  · intro order horder
    exact ofResponse_perm h hdifferent horder

/-- The identity of `acme.io` with some bundle and hint. -/
def webEntry (bundle : Bytes) (hint : String) : X509SvidEntry :=
  ⟨"spiffe://acme.io/web", X509Svid.webChain, X509Svid.webKey, bundle, hint⟩

/-- One identity under two hints, with two bundles, and two more trust domains
in either spelling. -/
def rotation : X509SvidResponse where
  svids := [webEntry [] "", webEntry X509Svid.webChain "edge"]
  revocationLists := []
  federatedBundles := [("spiffe://beta.io", X509Svid.webChain), ("gamma.io", [])]

/-- The context of two identities of one trust domain keeps the bundle of the
second, and is the same if the named bundles change places. -/
theorem ofResponse_whole_rotation :
    rotation.federatedBundles.Pairwise (fun a b =>
      ∀ td, NamesBundleOf a td → ¬ NamesBundleOf b td) ∧
    ∃ context, ofResponse rotation = .ok context ∧
      context.svids.map (·.hint) = [none, some "edge"] ∧
      "gamma.io" ∈ context.bundles.names ∧
      (∃ bundle, X509Bundle.parse ⟨"beta.io"⟩ X509Svid.webChain = .ok bundle ∧
        context.bundles.find? ⟨"beta.io"⟩ = some bundle) ∧
      (∃ bundle, X509Bundle.parse ⟨"acme.io"⟩ X509Svid.webChain = .ok bundle ∧
        context.bundles.find? ⟨"acme.io"⟩ = some bundle) ∧
      ofResponse { rotation with federatedBundles :=
        [("gamma.io", []), ("spiffe://beta.io", X509Svid.webChain)] } = .ok context := by
  have hbeta : NamesBundleOf ("spiffe://beta.io", X509Svid.webChain) ⟨"beta.io"⟩ :=
    ok_of_result.mp (by decide +kernel)
  have hgamma : NamesBundleOf ("gamma.io", []) ⟨"gamma.io"⟩ := ok_of_result.mp (by decide +kernel)
  have hdifferent : rotation.federatedBundles.Pairwise fun a b =>
      ∀ td, NamesBundleOf a td → ¬ NamesBundleOf b td := by
    refine List.pairwise_pair.mpr fun td htd htd' => ?_
    have h := Except.ok.inj (hbeta.symm.trans htd)
    have h' := Except.ok.inj (hgamma.symm.trans htd')
    exact absurd (h.trans h'.symm) (by decide)
  have hmade : ((ofResponse rotation).toOption.map fun c => c.svids.map (·.hint)) =
      some [none, some "edge"] := by decide +kernel
  obtain ⟨context, hmade, hhints⟩ := Option.map_eq_some_iff.mp hmade
  have hmade := ok_of_result.mp hmade
  obtain ⟨-, hwhole⟩ := ofResponse_whole rotation hdifferent
  obtain ⟨-, hnames, hnamed, hissued, horder⟩ := hwhole context hmade
  refine ⟨hdifferent, context, hmade, hhints, ?_, ?_, ?_, horder _ (List.Perm.swap _ _ _)⟩
  · exact (hnames ⟨"gamma.io"⟩).mpr (.inr ⟨_, .tail _ (.head _), hgamma⟩)
  · exact hnamed _ (.head _) _ hbeta
  · have hacme : (webEntry X509Svid.webChain "edge").IsOf ⟨"acme.io"⟩ := by
      have hparse : ((X509Svid.parse X509Svid.webChain X509Svid.webKey).toOption.map
          (·.spiffeId.trustDomain)) = some ⟨"acme.io"⟩ := by decide +kernel
      obtain ⟨svid, hparse, htd⟩ := Option.map_eq_some_iff.mp hparse
      exact ⟨svid, ok_of_result.mp hparse, htd⟩
    refine hissued _ ?_ [webEntry [] ""] (webEntry X509Svid.webChain "edge") [] rfl hacme nofun
    rintro entry (_ | ⟨_, _ | ⟨_, ⟨⟩⟩⟩) hname
    · exact absurd (Except.ok.inj (hbeta.symm.trans hname)) (by decide)
    · exact absurd (Except.ok.inj (hgamma.symm.trans hname)) (by decide)

end X509Context
end WorkloadIdentity
