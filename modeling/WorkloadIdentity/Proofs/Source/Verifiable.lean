/-
# A served identity has its bundle

What a source keeps of an update is one snapshot: the context of a message and the
identity picked from it, put in together and taken out together. A context has the
bundle of each of its identities, so whoever gets an identity from a source gets its
bundle too, and verifying the identity with the source comes to an answer
(`X509Source.Cache.IsSound`). Every step of an install and of a disposal keeps this, so
it holds in the middle of any of them.

Key definitions: `Picker.IsHonest`, `X509Source.Snapshot.IsSound`,
`X509Source.Cache.IsSound`, `X509Source.Vouches`.
Key theorems: `X509Svid.checkLeafShape_of_parse`, `SourceKind.Later.keeps`,
`X509Source.vouches_of_isSound`, `X509Source.served_verifiable`.
-/
import WorkloadIdentity.Proofs.Agent.Context
import WorkloadIdentity.Proofs.Isolation
import WorkloadIdentity.Proofs.Source.Creation

namespace WorkloadIdentity

/-- The picker returns one of the identities that it is given, or none. -/
def Picker.IsHonest (pick : Picker) : Prop := ∀ svids svid, pick svids = some svid → svid ∈ svids

/-- The leaf of an identity that has been read passes the verifier's checks. -/
theorem X509Svid.checkLeafShape_of_parse {chain key : Bytes} {svid : X509Svid}
    (h : X509Svid.parse chain key = .ok svid) : checkLeafShape svid.leaf = .ok svid.spiffeId := by
  obtain ⟨hread, hleaf, -⟩ := X509Svid.parse_eq_ok h
  obtain ⟨-, hparse, -⟩ := Certificate.readList_eq_ok hread
  exact checkLeafShape_of_checkLeaf (hparse _ List.mem_cons_self) hleaf

/-- The leaf of each identity of a context passes the verifier's checks. -/
theorem X509Context.checkLeafShape_of_mem {response : X509SvidResponse} {context : X509Context}
    (h : ofResponse response = .ok context) {svid : X509Svid} (hsvid : svid ∈ context.svids) :
    checkLeafShape svid.leaf = .ok svid.spiffeId := by
  obtain ⟨-, issued, federated, hissued, -, rfl⟩ := ofResponse_eq_ok_iff.mp h
  obtain ⟨pair, hpair, rfl⟩ := List.mem_map.mp hsvid
  obtain ⟨entry, -, hentry⟩ := (mem_of_each hissued pair).mp hpair
  have hmakes := (X509SvidEntry.toSvidAndBundle_eq_ok_iff.mp hentry).1
  have hplain := X509Svid.checkLeafShape_of_parse hmakes.parse
  exact hplain

/-! ### What every step keeps -/

namespace SourceKind

variable {C : Type} {kind : SourceKind C}

/-- What the steps of installs and disposals keep is kept whatever a source comes to. -/
theorem Later.keeps {P : C → Prop}
    (hinstall : ∀ (message : Message) update, message.toUpdate = .ok update →
      (kind.install update).Keeps P)
    (hdispose : kind.dispose.Keeps P) {s s' : LiveSource C} (h : kind.Later s s')
    (hs : P s.world.keep.cache) : P s'.world.keep.cache := by
  have hinstalled : ∀ (updates : List Update) (held : Held C),
      (∀ update ∈ updates, (kind.install update).Keeps P) → P held.cache →
      P (updates.foldl kind.installed held).cache := by
    intro updates
    induction updates with
    | nil => exact fun held _ hheld => hheld
    | cons update rest ih =>
      intro held hkeeps hheld
      obtain ⟨hupdate, hrest⟩ := List.forall_mem_cons.mp hkeeps
      exact ih _ hrest (hupdate.run hheld)
  induction h with
  | refl => exact hs
  | turns _ hreaches ih =>
    refine hreaches.inv_of_step (P := fun w => P w.keep.cache) ih (fun w r move hw hmove => ?_)
      (fun _ _ => id) fun _ => id
    rw [kind.keep_afterMove, (Watch.taken_of_step hmove).values]
    refine hinstalled _ _ (fun update hupdate => ?_) hw
    obtain ⟨message, -, hmessage⟩ := Option.bind_eq_some_iff.mp (Option.mem_toList.mp hupdate)
    exact hinstall message update (ok_of_result.mp hmessage)
  | @dispose s' _ ih =>
    obtain ⟨logs, hlogs⟩ := perform_eq kind.dispose s'.world
    have hkeep : (kind.disposeOf s').world.keep = performed kind.dispose s'.world.keep :=
      congrArg Watch.World.keep hlogs
    rw [hkeep]
    exact hdispose.run ih

/-- A source that is handed out is what it has come to, with a record of it. -/
theorem exists_later_of_create {session : Session} {cancelled : Bool} {fireAt : Option Nat}
    {timeout : Option Duration} {answer : Except SourceError Unit} {s : LiveSource C}
    (h : kind.create session cancelled fireAt timeout = some (answer, s)) :
    ∃ polled, kind.Later (kind.outset session cancelled fireAt) polled ∧
      s.world.keep = polled.world.keep := by
  obtain ⟨polled, hawait, -, hkeep⟩ := kind.create_same h
  exact ⟨polled, .turns (.refl _) (reaches_of_await hawait), hkeep⟩

end SourceKind

/-! ### Sources of identities -/

namespace X509Source

/-- The context is that of a message, and the identity is one of it. -/
structure Snapshot.IsSound (snapshot : Snapshot) : Prop where
  context : ∃ response, X509Context.ofResponse response = .ok snapshot.context
  svid : ∀ svid, snapshot.svid = some svid → svid ∈ snapshot.context.svids

/-- What the source keeps is sound. -/
def Cache.IsSound (c : Cache) : Prop := ∀ snapshot, c.slot = some snapshot → snapshot.IsSound

theorem clear_keeps : clear.Keeps Cache.IsSound :=
  fun _ _ => ⟨nofun, release_of trivial (fun _ => .tell trivial) _ _⟩

theorem announce_keeps : announce.Keeps Cache.IsSound :=
  .change (fun _ => id) (.change (fun _ => id) (.look fun _ _ => .ite clear_keeps trivial))

theorem store_keeps {snapshot : Snapshot} (h : snapshot.IsSound) :
    (store snapshot).Keeps Cache.IsSound := by
  refine fun c _ => ⟨fun stored hstored => ?_,
    release_of announce_keeps (fun _ => .tell announce_keeps) _ _⟩
  obtain rfl := Option.some.inj hstored
  exact h

theorem install_keeps {pick : Picker} (hpick : pick.IsHonest) {response : X509SvidResponse}
    {context : X509Context} (h : X509Context.ofResponse response = .ok context) :
    (install pick context).Keeps Cache.IsSound :=
  .look fun _ _ => .ite trivial (store_keeps ⟨⟨response, h⟩, hpick context.svids⟩)

theorem dispose_keeps : dispose.Keeps Cache.IsSound :=
  fun _ hc => ⟨hc, .ite trivial clear_keeps⟩

/-- What can be relied on when a source is asked in one state: an identity that it serves
has its bundle there, and verifying the identity with the source comes to the answer of
that bundle; and the source verifies whatever there is as the set of bundles does that it
serves. -/
structure Vouches (c : Cache) : Prop where
  served : ∀ s, svid c = .ok s → ∃ bundle,
    X509Source.bundle c s.spiffeId.trustDomain = .ok bundle ∧
      ∀ now, s.verify (source c) now = .ok (chainVerifies bundle s.leaf s.intermediates now)
  alike : ∀ set, bundles c = .ok set → ∀ leaf intermediates now,
    verifyChain leaf intermediates (source c) now = verifyChain leaf intermediates set.source now

/-- As one that identities are verified with, the source fails for every leaf whose shape
is in order. -/
def Refuses (c : Cache) : Prop :=
  ∀ leaf id, checkLeafShape leaf = .ok id → ∀ intermediates now,
    verifyChain leaf intermediates (source c) now =
      .error (.bundleSource SourceError.disposed.message)

theorem bundles_of_snapshot {c : Cache} {snapshot : Snapshot}
    (h : X509Source.snapshot c = .ok snapshot) : bundles c = .ok snapshot.context.bundles := by
  unfold bundles context
  rw [h]
  rfl

/-- The source answers with what stands in the set of bundles that it serves. -/
theorem source_of_bundles {c : Cache} {set : X509BundleSet} (h : bundles c = .ok set) :
    source c = set.source := by
  funext td
  unfold source bundle? BundleSet.source
  rw [h]
  rfl

/-- A source that keeps what is sound vouches for what it serves. -/
theorem vouches_of_isSound {c : Cache} (h : c.IsSound) : Vouches c where
  served s hs := by
    obtain ⟨snapshot, hsnapshot, hsvid⟩ := ok_of_steps.mp hs
    obtain ⟨⟨response, hresponse⟩, hmem⟩ := h snapshot (Lifecycle.read_eq_ok_iff.mp hsnapshot).2
    have hs : s ∈ snapshot.context.svids := by
      refine hmem s ?_
      split at hsvid
      · rename_i svid hsome
        rw [hsome, ok_of_pure.mp hsvid]
      · cases hsvid
    have hbundles := bundles_of_snapshot hsnapshot
    obtain ⟨bundle, hbundle⟩ := X509Context.find?_of_mem hresponse hs
    refine ⟨bundle, ?_, fun now => ?_⟩
    · unfold X509Source.bundle
      simp only [hbundles, bind, Except.bind, hbundle]
      rfl
    · have hshape := X509Context.checkLeafShape_of_mem hresponse hs
      rw [source_of_bundles hbundles]
      rcases X509Svid.verify_of_shape hshape snapshot.context.bundles.source now with
        ⟨found, hfound, hverify⟩ | ⟨hnone, -⟩ | ⟨reason, hreason, -⟩
      · have hsame := Except.ok.inj hfound
        rw [hbundle] at hsame
        obtain rfl := Option.some.inj hsame
        exact hverify
      · have hsame := Except.ok.inj hnone
        rw [hbundle] at hsame
        cases hsame
      · cases hreason
  alike set hset leaf intermediates now := by rw [source_of_bundles hset]

theorem refuses_of_disposed {c : Cache} (h : Disposed Cache.lifecycle c) : Refuses c := by
  intro leaf id hid intermediates now
  have hsnapshot : X509Source.snapshot c = .error .disposed := Lifecycle.read_of_disposed h c.slot
  have hsource : source c id.trustDomain = .error SourceError.disposed.message := by
    unfold source bundle? bundles context
    rw [hsnapshot]
    rfl
  unfold verifyChain
  simp only [hid, bind, Except.bind, hsource]
  rfl

/-! ### Whatever happens -/

/-- What is installed of an agent's message keeps the source sound. -/
theorem kind_install_keeps {pick : Picker} (hpick : pick.IsHonest) {message : Message}
    {update : Update} (h : message.toUpdate = .ok update) :
    ((SourceKind.x509 pick).install update).Keeps Cache.IsSound := by
  cases update with
  | x509Context context =>
    cases message with
    | x509Svids response =>
      rw [Message.toUpdate] at h
      cases hresponse : X509Context.ofResponse response with
      | error e => rw [hresponse] at h; cases h
      | ok context' =>
        rw [hresponse] at h
        obtain rfl := Update.x509Context.inj (Except.ok.inj h)
        exact install_keeps hpick hresponse
    | x509Bundles response =>
      rw [Message.toUpdate] at h
      cases hresponse : response.toSet <;> rw [hresponse] at h <;> cases h
    | jwtBundles response =>
      rw [Message.toUpdate] at h
      cases hresponse : response.toSet <;> rw [hresponse] at h <;> cases h
  | x509Bundles | jwtBundles => trivial

/-- A live source that has been disposed of stays so. -/
theorem disposed_of_later {pick : Picker} {s s' : LiveSource Cache}
    (h : (SourceKind.x509 pick).Later ((SourceKind.x509 pick).disposeOf s) s') :
    Disposed Cache.lifecycle s'.world.keep.cache := by
  have hinstall : ∀ update, ((SourceKind.x509 pick).install update).Heralds Cache.lifecycle := by
    intro update
    cases update with
    | x509Context context => exact heralds pick (.install context)
    | x509Bundles | jwtBundles => trivial
  refine h.keeps (fun _ update _ => (hinstall update).keeps_disposed)
    (heralds pick .dispose).keeps_disposed ?_
  obtain ⟨logs, hlogs⟩ := SourceKind.perform_eq dispose s.world
  have hcache : ((SourceKind.x509 pick).disposeOf s).world.keep.cache =
      (dispose.run s.world.keep.cache).2 :=
    congrArg (fun w : Watch.World (Held Cache) => w.keep.cache) hlogs
  rw [hcache]
  -- the first step of the disposal marks the source
  exact (heralds pick .dispose s.world.keep.cache).2.2.keeps_disposed.run rfl

/-- **A served identity can be verified.** Installs of what messages hold and disposals may
take their steps in any order, and a live source may have come to anything, whatever the
agent has in store, with a picker that returns one of the identities it is given or none:
the source vouches for what it serves. From the first step of a disposal on it fails for
every leaf whose shape is in order. -/
theorem served_verifiable (pick : Picker) (hpick : pick.IsHonest) :
    (∀ (A : Type) (moves : List (Move Call Cache A)),
      (∀ context, .call (.install context) ∈ moves →
        ∃ response, X509Context.ofResponse response = .ok context) →
      let calls := (Crowd.run (Call.program pick) Cache.lifecycle .fresh moves).calls
      Vouches calls.state ∧ ((∃ h ∈ calls.history, h.call = .dispose) → Refuses calls.state)) ∧
    ∀ (session : Session) (cancelled : Bool) (fireAt : Option Nat) (timeout : Option Duration)
      (answer : Except SourceError Unit) (s s' : LiveSource Cache),
      (SourceKind.x509 pick).create session cancelled fireAt timeout = some (answer, s) →
      (SourceKind.x509 pick).Later s s' →
      Vouches s'.world.keep.cache ∧
        ∀ s'', (SourceKind.x509 pick).Later ((SourceKind.x509 pick).disposeOf s') s'' →
          Refuses s''.world.keep.cache := by
  have hfresh : ¬ Disposed Cache.lifecycle .fresh := nofun
  have hsound : Cache.IsSound .fresh := fun _ h => nomatch h
  refine ⟨fun A moves hmoves => ⟨?_, fun hdisposal => ?_⟩, ?_⟩
  · refine vouches_of_isSound (Crowd.keeps (Q := fun call => ∀ context,
      call = .install context → ∃ response, X509Context.ofResponse response = .ok context)
      hsound (fun call hcall => ?_) moves fun call hcall context hinstall => ?_).1
    · cases call with
      | install context =>
        obtain ⟨response, hresponse⟩ := hcall context rfl
        exact install_keeps hpick hresponse
      | dispose => exact dispose_keeps
    · exact hmoves context (hinstall ▸ hcall)
  · exact refuses_of_disposed
      ((Crowd.orderly (disposable pick) hfresh moves).disposed_iff.mpr hdisposal)
  · intro session cancelled fireAt timeout answer s s' hcreate hlater
    obtain ⟨polled, hpolled, hkeep⟩ := SourceKind.exists_later_of_create hcreate
    have hinstall : ∀ (message : Message) update, message.toUpdate = .ok update →
        ((SourceKind.x509 pick).install update).Keeps Cache.IsSound :=
      fun _ _ => kind_install_keeps hpick
    have hcreated : Cache.IsSound s.world.keep.cache := by
      rw [hkeep]
      exact hpolled.keeps hinstall dispose_keeps hsound
    exact ⟨vouches_of_isSound (hlater.keeps hinstall dispose_keeps hcreated),
      fun _ hlater' => refuses_of_disposed (disposed_of_later hlater')⟩

/-- A live source that picks by a hint serves the second of two identities, with a bundle
to verify it with, and refuses to verify once it has been disposed of. -/
theorem served_verifiable_rotation :
    let kind := SourceKind.x509 (.byHint "edge")
    let agent : Agent := ⟨[.opened [.message X509Context.rotation] false], [], [], [], []⟩
    ∃ s : LiveSource Cache, kind.create (.start agent .standard) false none none =
        some (.ok (), s) ∧
      (∃ svid bundle, X509Source.svid s.world.keep.cache = .ok svid ∧ svid.hint = some "edge" ∧
        X509Source.bundle s.world.keep.cache svid.spiffeId.trustDomain = .ok bundle ∧
        svid.verify (source s.world.keep.cache) 1750000000 =
          .ok (chainVerifies bundle svid.leaf svid.intermediates 1750000000)) ∧
      Refuses (kind.disposeOf s).world.keep.cache := by
  intro kind agent
  have hpick : (Picker.byHint "edge").IsHonest := fun _ _ => List.mem_of_find?_eq_some
  have hcreated : ((kind.create (.start agent .standard) false none none).map fun created =>
      (created.1.toOption, (svid created.2.world.keep.cache).toOption.map (·.hint))) =
      some (some (), some (some "edge")) := by decide +kernel
  obtain ⟨⟨answer, s⟩, hcreate, hserved⟩ := Option.map_eq_some_iff.mp hcreated
  obtain ⟨hanswer, hserved⟩ := Prod.mk.inj hserved
  obtain ⟨svid, hsvid, hhint⟩ := Option.map_eq_some_iff.mp hserved
  have hsvid := ok_of_result.mp hsvid
  obtain ⟨hvouches, hrefuses⟩ := (served_verifiable (.byHint "edge") hpick).2 _ _ _ _ _ _ _
    hcreate (.refl s)
  obtain ⟨bundle, hbundle, hverify⟩ := hvouches.served svid hsvid
  refine ⟨s, ?_, ⟨svid, bundle, hsvid, hhint, hbundle, hverify _⟩, hrefuses _ (.refl _)⟩
  have hanswer : answer = .ok () := ok_of_result.mp hanswer
  rw [hcreate, hanswer]

end X509Source
end WorkloadIdentity
