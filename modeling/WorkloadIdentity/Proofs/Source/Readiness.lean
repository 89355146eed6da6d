/-
# Once ready, always ready

A source goes forward only: it is not initialized, then initialized, then disposed of.
So a getter that looks at the stage of a source that has been initialized never finds
that there has been no update, whoever else is working on it then (`Getter.Trusts`).

The call that makes a source ready goes on to count an update (`Steps.Publishes`), so
that the number of updates is another one when it is through. Whoever waits for the source
sleeps until it is.

Key definitions: `Lifecycle.Precedes`, `Steps.Publishes`, `Steps.Heralds`,
`Getter.Trusts`, `Checked`.
Key theorems: `Crowd.precedes`, `Crowd.updates_lt_or`, `Crowd.getter_trusts`.
-/
import WorkloadIdentity.Proofs.Source.Disposal

namespace WorkloadIdentity

variable {K S E A : Type}

/-! ### Stages -/

/-- How far a stage is. -/
def Stage.rank : Stage → Nat
  | uninitialized => 0
  | initialized => 1
  | disposed => 2

/-- A source may go on from one to the other. -/
structure Lifecycle.Precedes (l l' : Lifecycle) : Prop where
  stage : l.stage.rank ≤ l'.stage.rank
  updates : l.updates ≤ l'.updates

namespace Lifecycle

theorem Precedes.refl {l : Lifecycle} : l.Precedes l := ⟨Nat.le_refl _, Nat.le_refl _⟩

theorem Precedes.trans {l l' l'' : Lifecycle} (h : l.Precedes l') (h' : l'.Precedes l'') :
    l.Precedes l'' :=
  ⟨Nat.le_trans h.stage h'.stage, Nat.le_trans h.updates h'.updates⟩

theorem precedes_makeReady (l : Lifecycle) : l.Precedes l.makeReady := by
  unfold makeReady
  split
  · rename_i h
    exact ⟨by rw [h]; exact Nat.zero_le _, Nat.le_refl _⟩
  · exact .refl

theorem precedes_publish (l : Lifecycle) : l.Precedes l.publish :=
  ⟨Nat.le_refl _, Nat.le_succ _⟩

theorem precedes_dispose (l : Lifecycle) : l.Precedes l.dispose := by
  refine ⟨?_, Nat.le_refl _⟩
  change l.stage.rank ≤ Stage.rank .disposed
  cases l.stage <;> decide

theorem Precedes.ne_uninitialized {l l' : Lifecycle} (h : l.Precedes l')
    (hl : l.stage ≠ .uninitialized) : l'.stage ≠ .uninitialized := by
  intro hl'
  have hstage := h.stage
  rw [hl'] at hstage
  cases hl'' : l.stage with
  | uninitialized => exact hl hl''
  | initialized | disposed => rw [hl''] at hstage; cases hstage

/-- From the last stage there is nowhere to go. -/
theorem Precedes.disposed {l l' : Lifecycle} (h : l.Precedes l') (hl : l.stage = .disposed) :
    l'.stage = .disposed := by
  have hstage := h.stage
  rw [hl] at hstage
  cases hl' : l'.stage with
  | uninitialized | initialized => rw [hl'] at hstage; exact absurd hstage (by decide)
  | disposed => rfl

theorem Precedes.not_initialized {l l' : Lifecycle} (h : l.Precedes l')
    (hl : l.stage = .disposed) : l'.stage ≠ .initialized := by
  rw [h.disposed hl]
  nofun

/-- What a slot holds is read as long as the source is ready. -/
theorem read_eq_ok_iff {l : Lifecycle} {slot : Option A} {a : A} :
    l.read slot = .ok a ↔ l.stage = .initialized ∧ slot = some a := by
  unfold read check
  cases l.stage with
  | uninitialized | disposed => exact ⟨nofun, nofun⟩
  | initialized =>
    cases slot with
    | none => exact ⟨nofun, nofun⟩
    | some b =>
      rw [Option.some.injEq]
      exact ⟨fun h => ⟨rfl, Except.ok.inj h⟩, fun h => congrArg Except.ok h.2⟩

theorem read_of_disposed {l : Lifecycle} (h : l.stage = .disposed) (slot : Option A) :
    l.read slot = .error .disposed := by
  unfold read check
  rw [h]
  rfl

end Lifecycle

/-! ### Programs -/

namespace Steps

variable (lifecycle : S → Lifecycle)

/-- The program will count an update. -/
def Publishes : Steps S E → Prop
  | done => False
  | act _ change next => ∀ s,
    (lifecycle s).updates < (lifecycle (change s)).updates ∨ (next s).Publishes

/-- The program only takes the source forward, and if it makes the source ready, goes
on to count an update. -/
def Heralds : Steps S E → Prop
  | done => True
  | act _ change next => ∀ s, (lifecycle s).Precedes (lifecycle (change s)) ∧
    ((lifecycle s).stage = .uninitialized → (lifecycle (change s)).stage = .initialized →
      (next s).Publishes lifecycle) ∧
    (next s).Heralds

variable {lifecycle} {p q : Steps S E} {next : S → Steps S E} {tells : S → List E} {f : S → S}

/-- A step that leaves the lifecycle alone. -/
theorem Heralds.act_same (hf : ∀ s, lifecycle (f s) = lifecycle s)
    (h : ∀ s, (next s).Heralds lifecycle) : (act tells f next).Heralds lifecycle := by
  intro s
  rw [hf]
  refine ⟨.refl, fun hstage hstage' => ?_, h s⟩
  rw [hstage] at hstage'
  cases hstage'

theorem Heralds.look (h : ∀ s, (next s).Heralds lifecycle) :
    (Steps.look next).Heralds lifecycle :=
  .act_same (fun _ => rfl) h

theorem Heralds.tell {e : E} (h : p.Heralds lifecycle) : (Steps.tell e p).Heralds lifecycle :=
  .act_same (fun _ => rfl) fun _ => h

theorem Heralds.ite {c : Prop} [Decidable c] (hp : p.Heralds lifecycle)
    (hq : q.Heralds lifecycle) : (if c then p else q).Heralds lifecycle := by
  split
  · exact hp
  · exact hq

theorem Publishes.publish (hf : ∀ s, lifecycle (f s) = (lifecycle s).publish) :
    (Steps.change f p).Publishes lifecycle := by
  intro s
  rw [hf]
  exact .inl (Nat.lt_succ_self _)

theorem Heralds.publish (hf : ∀ s, lifecycle (f s) = (lifecycle s).publish)
    (h : p.Heralds lifecycle) : (Steps.change f p).Heralds lifecycle := by
  intro s
  rw [hf]
  refine ⟨Lifecycle.precedes_publish _, fun hstage hstage' => ?_, h⟩
  rw [Lifecycle.publish, hstage] at hstage'
  cases hstage'

theorem Heralds.makeReady (hf : ∀ s, lifecycle (f s) = (lifecycle s).makeReady)
    (hpublishes : p.Publishes lifecycle) (h : p.Heralds lifecycle) :
    (Steps.change f p).Heralds lifecycle := by
  intro s
  rw [hf]
  exact ⟨Lifecycle.precedes_makeReady _, fun _ _ => hpublishes, h⟩

theorem Heralds.dispose (hf : ∀ s, lifecycle (f s) = (lifecycle s).dispose)
    (h : ∀ s, (next s).Heralds lifecycle) : (act tells f next).Heralds lifecycle := by
  intro s
  rw [hf]
  exact ⟨Lifecycle.precedes_dispose _, fun _ hstage => (nomatch hstage), h s⟩

/-- A program by itself takes the source forward. -/
theorem Heralds.run (h : p.Heralds lifecycle) (s : S) :
    (lifecycle s).Precedes (lifecycle (p.run s).2) := by
  induction p generalizing s with
  | done => exact .refl
  | act tells change next ih => exact (h s).1.trans (ih s (h s).2.2 (change s))

/-- Every step of a program leaves a source disposed of that has been. -/
theorem Heralds.keeps_disposed (h : p.Heralds lifecycle) : p.Keeps (Disposed lifecycle) := by
  induction p with
  | done => trivial
  | act tells change next ih => exact fun s hs => ⟨(h s).1.disposed hs, ih s (h s).2.2⟩

end Steps

/-! ### Getters -/

namespace Getter

/-- The getter does not say that there has been no update unless the stage does. -/
def Trusts : Getter S A → Prop
  | checking load | loading load => ∀ s, load s ≠ .error .invalidState
  | answered answer => answer ≠ .error .invalidState

end Getter

/-- The answers of a getter that looks at the stage first, and then does not say that
there has been no update. -/
def Checked (lifecycle : S → Lifecycle) (get : S → Except SourceError A) : Prop :=
  ∃ load : S → Except SourceError A, (Getter.checking load).Trusts ∧
    ∀ s, get s = ((lifecycle s).check >>= fun _ => load s)

namespace Checked

variable {lifecycle : S → Lifecycle} {get : S → Except SourceError A}

/-- What a slot holds. -/
theorem read {B : Type} (slot : S → Option B) :
    Checked lifecycle fun s => (lifecycle s).read (slot s) := by
  refine ⟨fun s => (slot s).elim (.error .disposed) .ok, fun s => ?_, fun s => ?_⟩
  · dsimp only
    cases slot s <;> nofun
  · dsimp only
    unfold Lifecycle.read
    cases slot s <;> rfl

/-- A getter that goes on from the answer of another one. -/
theorem bind {B : Type} (h : Checked lifecycle get) (more : A → Except SourceError B)
    (hmore : ∀ a, more a ≠ .error .invalidState) : Checked lifecycle fun s => get s >>= more := by
  obtain ⟨load, hload, hget⟩ := h
  refine ⟨fun s => load s >>= more, fun s => ?_, fun s => ?_⟩
  · have hload := hload s
    dsimp only
    cases hanswer : load s with
    | error cause =>
      intro heq
      exact hload (hanswer.trans (congrArg Except.error (Except.error.inj heq)))
    | ok a => exact hmore a
  · dsimp only
    rw [hget]
    cases (lifecycle s).check <;> rfl

/-- There is no answer before the first update. -/
theorem of_uninitialized (h : Checked lifecycle get) {s : S}
    (hs : (lifecycle s).stage = .uninitialized) : get s = .error .invalidState := by
  obtain ⟨load, -, hget⟩ := h
  have hcheck : (lifecycle s).check = .error .invalidState := by rw [Lifecycle.check, hs]
  rw [hget, hcheck]
  rfl

end Checked

/-! ### Crowds -/

/-- Whoever makes the source ready is about to count an update, until it is counted. -/
theorem Calls.updates_lt_or_step {lifecycle : S → Lifecycle} {c : Calls K S E} {n caller : Nat}
    {call : K} {tells : S → List E} {change : S → S} {next : S → Steps S E}
    (hcaller : c.working[caller]? = some (call, .act tells change next))
    (hheralds : (Steps.act tells change next).Heralds lifecycle)
    (hn : n ≤ (lifecycle c.state).updates)
    (ih : (lifecycle c.state).stage = .initialized → n < (lifecycle c.state).updates ∨
      ∃ (i : Nat) (call : K) (p : Steps S E),
        c.working[i]? = some (call, p) ∧ p.Publishes lifecycle) :
    let c' := c.step caller call tells change next
    (lifecycle c'.state).stage = .initialized → n < (lifecycle c'.state).updates ∨
      ∃ (i : Nat) (call : K) (p : Steps S E),
        c'.working[i]? = some (call, p) ∧ p.Publishes lifecycle := by
  intro c' hready
  obtain ⟨hstep, hpublishes, -⟩ := hheralds c.state
  have hself : c'.working[caller]? = some (call, next c.state) :=
    List.getElem?_set_self (List.getElem?_eq_some_iff.mp hcaller).1
  cases hstage : (lifecycle c.state).stage with
  | uninitialized => exact .inr ⟨caller, call, _, hself, hpublishes hstage hready⟩
  | disposed => exact absurd hready (hstep.not_initialized hstage)
  | initialized =>
    rcases ih hstage with hlt | ⟨i, call', p, hi, hp⟩
    · exact .inl (Nat.lt_of_lt_of_le hlt hstep.updates)
    · by_cases hic : caller = i
      · -- the call that takes the step is the one that is about to count
        subst hic
        obtain ⟨-, rfl⟩ := Prod.mk.inj (Option.some.inj (hcaller.symm.trans hi))
        rcases hp c.state with hlt | hp
        · exact .inl (Nat.lt_of_le_of_lt hn hlt)
        · exact .inr ⟨caller, call, _, hself, hp⟩
      · exact .inr ⟨i, call', p, (List.getElem?_set_ne hic).trans hi, hp⟩

namespace Crowd

variable {program : K → Steps S E} {lifecycle : S → Lifecycle} {s : S}
  (hheralds : ∀ call, (program call).Heralds lifecycle)
include hheralds

/-- What is left of a call is as careful as the call. -/
theorem heralds (moves : List (Move K S A)) :
    ∀ call p, (call, p) ∈ (run program lifecycle s moves).calls.working → p.Heralds lifecycle := by
  refine calls_inv (P := fun c => ∀ call p, (call, p) ∈ c.working → p.Heralds lifecycle)
    (fun _ _ h => nomatch h) (fun c call h call' p hmem => ?_)
    (fun c caller call tells change next h hcaller call' p hmem => ?_) moves
  · rcases Calls.mem_begin hmem with hmem | ⟨-, rfl⟩
    · exact h call' p hmem
    · exact hheralds call
  · rcases Calls.mem_step hmem with hmem | ⟨-, rfl⟩
    · exact h call' p hmem
    · exact (h call _ (List.mem_of_getElem? hcaller) c.state).2.2

/-- A source goes forward only. -/
theorem precedes (moves more : List (Move K S A)) :
    (lifecycle (run program lifecycle s moves).calls.state).Precedes
      (lifecycle (run program lifecycle s (moves ++ more)).calls.state) := by
  induction more using List.reverseRecOn with
  | nil =>
    rw [List.append_nil]
    exact .refl
  | append_singleton more move ih =>
    have hworking := heralds hheralds (s := s) (moves ++ more)
    rw [← List.append_assoc, run_append]
    refine ih.trans ?_
    cases move with
    | call | get | look => exact .refl
    | work caller =>
      simp only [List.foldl_cons, List.foldl_nil, after, Calls.advance]
      split
      · rename_i hcaller
        exact (hworking _ _ (List.mem_of_getElem? hcaller) _).1
      · exact .refl

/-- A source that has become ready has counted an update since, or some call is about
to count one. -/
theorem updates_lt_or (moves more : List (Move K S A))
    (hbefore : (lifecycle (run program lifecycle s moves).calls.state).stage = .uninitialized) :
    let c := (run program lifecycle s (moves ++ more)).calls
    (lifecycle c.state).stage = .initialized →
    (lifecycle (run program lifecycle s moves).calls.state).updates < (lifecycle c.state).updates ∨
      ∃ (i : Nat) (call : K) (p : Steps S E),
        c.working[i]? = some (call, p) ∧ p.Publishes lifecycle := by
  induction more using List.reverseRecOn with
  | nil =>
    rw [List.append_nil]
    dsimp only
    rw [hbefore]
    nofun
  | append_singleton more move ih =>
    have hworking := heralds hheralds (s := s) (moves ++ more)
    have hprecedes := precedes hheralds (s := s) moves more
    rw [← List.append_assoc, run_append]
    generalize run program lifecycle s (moves ++ more) = c at ih hworking hprecedes
    cases move with
    | get | look => exact ih
    | call call =>
      refine fun hready => (ih hready).imp_right fun ⟨i, call', p, hi, hp⟩ => ?_
      exact ⟨i, call', p, List.getElem?_append_left (List.getElem?_eq_some_iff.mp hi).1 ▸ hi, hp⟩
    | work caller =>
      simp only [List.foldl_cons, List.foldl_nil, after, Calls.advance]
      split
      · rename_i hcaller
        exact Calls.updates_lt_or_step hcaller (hworking _ _ (List.mem_of_getElem? hcaller))
          hprecedes.updates ih
      · exact ih

end Crowd

/-! ### The sources -/

namespace X509Source

theorem clear_heralds : clear.Heralds Cache.lifecycle :=
  .act_same (fun _ => rfl) fun _ => release_of trivial (fun _ => .tell trivial) _ _

theorem announce_heralds : announce.Heralds Cache.lifecycle :=
  .makeReady (fun _ => rfl) (.publish fun _ => rfl)
    (.publish (fun _ => rfl) (.look fun _ => .ite clear_heralds trivial))

theorem heralds (pick : Picker) : ∀ call : Call, (call.program pick).Heralds Cache.lifecycle
  | .install _ => .look fun _ => .ite trivial (.act_same (fun _ => rfl) fun _ =>
      release_of announce_heralds (fun _ => .tell announce_heralds) _ _)
  | .dispose => .dispose (fun _ => rfl) fun _ => .ite trivial clear_heralds

/-- The getters. -/
inductive IsGetter : {A : Type} → (Cache → Except SourceError A) → Prop
  | svid : IsGetter svid
  | context : IsGetter context
  | bundles : IsGetter bundles
  | bundle (trustDomain : TrustDomain) : IsGetter (bundle · trustDomain)
  | bundle? (trustDomain : TrustDomain) : IsGetter (bundle? · trustDomain)

theorem checked_of_isGetter {get : Cache → Except SourceError A} (h : IsGetter get) :
    Checked Cache.lifecycle get := by
  have hsnapshot : Checked Cache.lifecycle snapshot := .read Cache.slot
  have hcontext : Checked Cache.lifecycle context := hsnapshot.bind _ fun _ => by nofun
  have hbundles : Checked Cache.lifecycle bundles := hcontext.bind _ nofun
  cases h with
  | svid => exact hsnapshot.bind _ fun snapshot => by split <;> nofun
  | context => exact hcontext
  | bundles => exact hbundles
  | bundle trustDomain => exact hbundles.bind _ fun bundles => by split <;> nofun
  | bundle? trustDomain => exact hbundles.bind _ nofun

end X509Source

namespace JwtSource

theorem clear_heralds : clear.Heralds Cache.lifecycle := .act_same (fun _ => rfl) fun _ => trivial

theorem heralds : ∀ call : Call, call.program.Heralds Cache.lifecycle
  | .install _ => .look fun _ => .ite trivial (.act_same (fun _ => rfl) fun _ =>
      .makeReady (fun _ => rfl) (.publish fun _ => rfl)
        (.publish (fun _ => rfl) (.look fun _ => .ite clear_heralds trivial)))
  | .dispose => .dispose (fun _ => rfl) fun _ => .ite trivial clear_heralds

/-- The getters, with the calls to the agent that wait for the source. -/
inductive IsGetter : {A : Type} → (Cache → Except SourceError A) → Prop
  | bundles : IsGetter bundles
  | bundle (trustDomain : TrustDomain) : IsGetter (bundle · trustDomain)
  | bundle? (trustDomain : TrustDomain) : IsGetter (bundle? · trustDomain)
  | whenReady {A : Type} (call : Session → Except ApiError A × Session) (s : Session) :
    IsGetter fun c => (whenReady c call s).1

theorem checked_of_isGetter {get : Cache → Except SourceError A} (h : IsGetter get) :
    Checked Cache.lifecycle get := by
  have hbundles : Checked Cache.lifecycle bundles := .read Cache.slot
  cases h with
  | bundles => exact hbundles
  | bundle trustDomain => exact hbundles.bind _ fun bundles => by split <;> nofun
  | bundle? trustDomain => exact hbundles.bind _ nofun
  | whenReady call s =>
    refine ⟨fun _ => (call s).1.mapError .workloadApi, fun c => ?_, fun c => ?_⟩
    · cases (call s).1 <;> nofun
    · dsimp only
      unfold whenReady
      cases c.lifecycle.check <;> rfl

end JwtSource

namespace BundlesSource

theorem clear_heralds : clear.Heralds Cache.lifecycle :=
  .act_same (fun _ => rfl) fun _ => .act_same (fun _ => rfl) fun _ => trivial

theorem publish_heralds : publish.Heralds Cache.lifecycle :=
  .publish (fun _ => rfl) (.look fun _ => .ite clear_heralds trivial)

theorem announce_heralds : announce.Heralds Cache.lifecycle :=
  .look fun _ => .ite
    (.look fun _ => .ite (.makeReady (fun _ => rfl) (.publish fun _ => rfl) publish_heralds)
      publish_heralds)
    publish_heralds

theorem install_heralds (kind : String) {store : Cache → Cache}
    (hstore : ∀ c, (store c).lifecycle = c.lifecycle) :
    (install kind store).Heralds Cache.lifecycle :=
  .look fun _ => .ite trivial (.act_same hstore fun _ => announce_heralds)

theorem heralds : ∀ call : Call, call.program.Heralds Cache.lifecycle
  | .installX509 _ => install_heralds _ fun _ => rfl
  | .installJwt _ => install_heralds _ fun _ => rfl
  | .dispose => .dispose (fun _ => rfl) fun _ => .ite trivial clear_heralds

/-- The getters. -/
inductive IsGetter : {A : Type} → (Cache → Except SourceError A) → Prop
  | x509Bundles : IsGetter x509Bundles
  | jwtBundles : IsGetter jwtBundles
  | x509Bundle (trustDomain : TrustDomain) : IsGetter (x509Bundle · trustDomain)
  | jwtBundle (trustDomain : TrustDomain) : IsGetter (jwtBundle · trustDomain)

theorem checked_of_isGetter {get : Cache → Except SourceError A} (h : IsGetter get) :
    Checked Cache.lifecycle get := by
  have hx509 : Checked Cache.lifecycle x509Bundles := .read Cache.x509
  have hjwt : Checked Cache.lifecycle jwtBundles := .read Cache.jwt
  cases h with
  | x509Bundles => exact hx509
  | jwtBundles => exact hjwt
  | x509Bundle trustDomain => exact hx509.bind _ fun bundles => by split <;> nofun
  | jwtBundle trustDomain => exact hjwt.bind _ fun bundles => by split <;> nofun

end BundlesSource

end WorkloadIdentity
