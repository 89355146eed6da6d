/-
# Disposal leaves nothing behind

An install looks at the stage before it fills a slot, so what it has seen may be
out of date by then. It looks again once the slot is full. Whoever comes in
between, a full slot of a source that has been disposed of is therefore in the
care of some call that will empty it: the install that filled it, or the
disposal if the install was over before that. `Steps.Cleans` says that a program
will empty a slot, and `Steps.Careful` that each step of it either leaves empty
slots empty or is followed by a program that will. A source with several slots
has this for each of them; no call empties them all at once.

Key definitions: `Disposed`, `Steps.Cleans`, `Steps.Careful`, `Disposable`,
`Calls.Orderly`, `LeavesNothing`.
Key theorems: `Disposable.of_clear`, `Calls.Orderly.step`,
`LeavesNothing.of_disposable`, `sources_leave_nothing`.
-/
import WorkloadIdentity.Proofs.Source.Crowd

namespace WorkloadIdentity

variable {K S E A ι : Type}

/-- The source has been disposed of. -/
def Disposed (lifecycle : S → Lifecycle) (s : S) : Prop := (lifecycle s).stage = .disposed

/-! ### Programs -/

namespace Steps

variable (gone : S → Prop)

/-- The program will empty a slot, if the source has been disposed of. -/
def Cleans (empty : S → Prop) : Steps S E → Prop
  | done => False
  | act _ change next => ∀ s, gone s → empty (change s) ∨ (next s).Cleans empty

/-- The program does not dispose of the source, and whenever it fills a slot it
goes on to empty it in case somebody else does. -/
def Careful (empty : ι → S → Prop) : Steps S E → Prop
  | done => True
  | act _ change next => ∀ s, (gone (change s) ↔ gone s) ∧
    (∀ slot, (empty slot s → empty slot (change s)) ∨ (next s).Cleans gone (empty slot)) ∧
    (next s).Careful empty

variable {gone} {empty : S → Prop} {empties : ι → S → Prop} {p q : Steps S E}
  {next : S → Steps S E} {f : S → S}

theorem Cleans.look (h : ∀ s, gone s → (next s).Cleans gone empty) :
    (Steps.look next).Cleans gone empty :=
  fun s hs => .inr (h s hs)

theorem Cleans.tell {e : E} (h : p.Cleans gone empty) : (Steps.tell e p).Cleans gone empty :=
  fun _ _ => .inr h

theorem Cleans.change (h : p.Cleans gone empty) : (Steps.change f p).Cleans gone empty :=
  fun _ _ => .inr h

theorem Cleans.ite {c : Prop} [Decidable c] (hc : c) (h : p.Cleans gone empty) :
    (if c then p else q).Cleans gone empty := by
  rwa [if_pos hc]

theorem Careful.look (h : ∀ s, (next s).Careful gone empties) :
    (Steps.look next).Careful gone empties :=
  fun s => ⟨Iff.rfl, fun _ => .inl id, h s⟩

theorem Careful.tell {e : E} (h : p.Careful gone empties) :
    (Steps.tell e p).Careful gone empties :=
  fun _ => ⟨Iff.rfl, fun _ => .inl id, h⟩

theorem Careful.change (hgone : ∀ s, gone (f s) ↔ gone s)
    (hempty : ∀ slot s, empties slot s → empties slot (f s)) (h : p.Careful gone empties) :
    (Steps.change f p).Careful gone empties :=
  fun s => ⟨hgone s, fun slot => .inl (hempty slot s), h⟩

theorem Careful.ite {c : Prop} [Decidable c] (hp : p.Careful gone empties)
    (hq : q.Careful gone empties) : (if c then p else q).Careful gone empties := by
  split
  · exact hp
  · exact hq

/-- A careful program does not dispose of the source. -/
theorem Careful.keeps (h : p.Careful gone empties) : p.Keeps fun s => ¬ gone s := by
  induction p with
  | done => trivial
  | act tells change next ih =>
    exact fun s hs => ⟨mt (h s).1.mp hs, ih s (h s).2.2⟩

end Steps

/-- One kind of calls disposes of the source, in its first step, and empties the
slots unless that has been done before; all others are careful. -/
structure Disposable (gone : S → Prop) (empties : ι → S → Prop) (program : K → Steps S E)
    (disposal : K) : Prop where
  careful : ∀ call, call ≠ disposal → (program call).Careful gone empties
  disposes : ∃ tells change next, program disposal = .act tells change next ∧
    ∀ s, gone (change s) ∧ (next s).Careful gone empties ∧
      ∀ slot, (gone s ∧ (empties slot s → empties slot (change s))) ∨
        (next s).Cleans gone (empties slot)

/-- A disposal marks the source, and clears it unless that has been done
before. -/
theorem Disposable.of_clear {lifecycle : S → Lifecycle} {empties : ι → S → Prop}
    {program : K → Steps S E} {disposal : K} {tells : S → List E} {change : S → S}
    {clear : Steps S E}
    (hothers : ∀ call, call ≠ disposal → (program call).Careful (Disposed lifecycle) empties)
    (hprogram : program disposal = .act tells change fun s =>
      if (lifecycle s).stage = .disposed then .done else clear)
    (hgone : ∀ s, Disposed lifecycle (change s))
    (hempty : ∀ slot s, empties slot s → empties slot (change s))
    (hclear : clear.Careful (Disposed lifecycle) empties)
    (hcleans : ∀ slot, clear.Cleans (Disposed lifecycle) (empties slot)) :
    Disposable (Disposed lifecycle) empties program disposal where
  careful := hothers
  disposes := by
    refine ⟨tells, change, _, hprogram, fun s => ⟨hgone s, .ite trivial hclear, fun slot => ?_⟩⟩
    split
    · rename_i hbefore
      exact .inl ⟨hbefore, hempty slot s⟩
    · exact .inr (hcleans slot)

/-! ### Callers -/

/-- What holds of the calls on a source at all times. -/
structure Calls.Orderly (gone : S → Prop) (empties : ι → S → Prop) (program : K → Steps S E)
    (disposal : K) (c : Calls K S E) : Prop where
  /-- A disposal that has not begun is the whole program. -/
  programs : ∀ call p, (call, p) ∈ c.working → (call = disposal ∧ p = program disposal) ∨
    (p.Careful gone empties ∧ (call = disposal → gone c.state))
  disposed_iff : gone c.state ↔ ∃ h ∈ c.history, h.call = disposal
  /-- A full slot of a source that has been disposed of is in somebody's care. -/
  care : ∀ slot, gone c.state → empties slot c.state ∨
    ∃ (i : Nat) (call : K) (p : Steps S E),
      c.working[i]? = some (call, p) ∧ p.Cleans gone (empties slot)

namespace Calls.Orderly

variable {gone : S → Prop} {empties : ι → S → Prop} {program : K → Steps S E} {disposal : K}
  {c : Calls K S E}

theorem start {s : S} (hs : ¬ gone s) : (Calls.start s).Orderly gone empties program disposal where
  programs _ _ := nofun
  disposed_iff := ⟨fun h => absurd h hs, nofun⟩
  care _ h := absurd h hs

theorem begin (hdisposable : Disposable gone empties program disposal)
    (h : c.Orderly gone empties program disposal) (call : K) :
    (c.begin call (program call)).Orderly gone empties program disposal where
  programs call' p hmem := by
    rcases Calls.mem_begin hmem with hmem | ⟨rfl, rfl⟩
    · exact h.programs call' p hmem
    · by_cases hcall : call' = disposal
      · exact .inl ⟨hcall, hcall ▸ rfl⟩
      · exact .inr ⟨hdisposable.careful _ hcall, fun h => absurd h hcall⟩
  disposed_iff := h.disposed_iff
  care slot hgone := (h.care slot hgone).imp_right fun ⟨i, call', p, hi, hp⟩ =>
    ⟨i, call', p, List.getElem?_append_left (List.getElem?_eq_some_iff.mp hi).1 ▸ hi, hp⟩

variable {caller : Nat} {call : K} {tells : S → List E} {change : S → S} {next : S → Steps S E}

/-- The slots are still in somebody's care after a step, if it leaves them empty
or is followed by a program that empties them. -/
theorem care_step (h : c.Orderly gone empties program disposal)
    (hcaller : c.working[caller]? = some (call, .act tells change next)) {slot : ι}
    (hstep : (gone c.state ∧ (empties slot c.state → empties slot (change c.state))) ∨
      (next c.state).Cleans gone (empties slot)) :
    empties slot (change c.state) ∨ ∃ (i : Nat) (call' : K) (p : Steps S E),
      (c.working.set caller (call, next c.state))[i]? = some (call', p) ∧
      p.Cleans gone (empties slot) := by
  have hself (hcleans : (next c.state).Cleans gone (empties slot)) :
      ∃ (i : Nat) (call' : K) (p : Steps S E),
        (c.working.set caller (call, next c.state))[i]? = some (call', p) ∧
        p.Cleans gone (empties slot) :=
    ⟨caller, call, next c.state,
      List.getElem?_set_self (List.getElem?_eq_some_iff.mp hcaller).1, hcleans⟩
  rcases hstep with ⟨hgone, hkeeps⟩ | hcleans
  · rcases h.care slot hgone with hempty | ⟨i, call', p, hi, hcleans⟩
    · exact .inl (hkeeps hempty)
    · by_cases hic : caller = i
      · -- the call that takes the step is the one that cares
        subst hic
        obtain ⟨-, rfl⟩ := Prod.mk.inj (Option.some.inj (hcaller.symm.trans hi))
        exact (hcleans c.state hgone).imp_right hself
      · exact .inr ⟨i, call', p, (List.getElem?_set_ne hic).trans hi, hcleans⟩
  · exact .inr (hself hcleans)

/-- Every step of a call keeps the order. -/
theorem step (hdisposable : Disposable gone empties program disposal)
    (h : c.Orderly gone empties program disposal)
    (hcaller : c.working[caller]? = some (call, .act tells change next)) :
    (c.step caller call tells change next).Orderly gone empties program disposal := by
  rcases h.programs _ _ (List.mem_of_getElem? hcaller) with ⟨rfl, hp⟩ | ⟨hp, hcall⟩
  · -- the disposal begins
    obtain ⟨tells', change', next', hprogram, hdisposes⟩ := hdisposable.disposes
    rw [hprogram] at hp
    obtain ⟨rfl, rfl, rfl⟩ := Steps.act.inj hp
    obtain ⟨hgone, hcareful, hslots⟩ := hdisposes c.state
    refine ⟨fun call' p hmem => ?_, ⟨fun _ => ⟨_, List.mem_cons_self, rfl⟩, fun _ => hgone⟩,
      fun slot _ => h.care_step hcaller (hslots slot)⟩
    rcases Calls.mem_step hmem with hmem | ⟨rfl, rfl⟩
    · exact (h.programs _ _ hmem).imp_right fun h => ⟨h.1, fun _ => hgone⟩
    · exact .inr ⟨hcareful, fun _ => hgone⟩
  · obtain ⟨hsame, hslots, hcareful⟩ := hp c.state
    refine ⟨fun call' p hmem => ?_, hsame.trans (h.disposed_iff.trans ⟨?_, ?_⟩),
      fun slot hgone => h.care_step hcaller ((hslots slot).imp_left (⟨hsame.mp hgone, ·⟩))⟩
    · rcases Calls.mem_step hmem with hmem | ⟨rfl, rfl⟩
      · exact (h.programs _ _ hmem).imp_right fun h => ⟨h.1, fun h' => hsame.mpr (h.2 h')⟩
      · exact .inr ⟨hcareful, fun h => hsame.mpr (hcall h)⟩
    · exact fun ⟨happening, hmem, hh⟩ => ⟨happening, .tail _ hmem, hh⟩
    · rintro ⟨happening, hmem, hh⟩
      rcases List.mem_cons.mp hmem with rfl | hmem
      · exact h.disposed_iff.mp (hcall hh)
      · exact ⟨happening, hmem, hh⟩

/-- When no call is in progress, nobody has to care. -/
theorem empties_of_isIdle (h : c.Orderly gone empties program disposal) (hgone : gone c.state)
    (hidle : c.IsIdle) (slot : ι) : empties slot c.state := by
  refine (h.care slot hgone).resolve_right ?_
  rintro ⟨i, call, p, hi, hcleans⟩
  obtain rfl := hidle call p (List.mem_of_getElem? hi)
  exact hcleans

end Calls.Orderly

/-- A getter that comes too late: it has yet to look at the stage, or has been
told that there are no answers any more. -/
def Getter.IsLate (g : Getter S A) : Prop := g.IsChecking ∨ g = .answered (.error .disposed)

theorem Getter.isLate_after {lifecycle : S → Lifecycle} {s : S} {g : Getter S A} (h : g.IsLate)
    (hs : Disposed lifecycle s) : (g.after lifecycle s).IsLate := by
  cases g with
  | checking load =>
    have hcheck : (lifecycle s).check = .error .disposed := by rw [Lifecycle.check, hs]
    exact .inr (by rw [after, hcheck])
  | loading load => rcases h with h | h <;> cases h
  | answered answer => exact h

/-! ### Crowds -/

namespace Crowd

variable {lifecycle : S → Lifecycle} {empties : ι → S → Prop} {program : K → Steps S E}
  {disposal : K} {s : S}
  (hdisposable : Disposable (Disposed lifecycle) empties program disposal)
  (hs : ¬ Disposed lifecycle s) (moves more : List (Move K S A))
include hdisposable hs

theorem orderly :
    (run program lifecycle s moves).calls.Orderly (Disposed lifecycle) empties program disposal :=
  calls_inv (.start hs) (fun _ call h => h.begin hdisposable call)
    (fun _ _ _ _ _ _ h hcaller => h.step hdisposable hcaller) moves

/-- A source that has been disposed of stays so. -/
theorem disposed_mono (h : Disposed lifecycle (run program lifecycle s moves).calls.state) :
    Disposed lifecycle (run program lifecycle s (moves ++ more)).calls.state := by
  rw [(orderly hdisposable hs _).disposed_iff] at h ⊢
  obtain ⟨happening, hmem, hcall⟩ := h
  exact ⟨happening, (history_suffix moves more).subset hmem, hcall⟩

/-- A getter that looks at the stage after a disposal is too late. -/
theorem getter_isLate (hgone : Disposed lifecycle (run program lifecycle s moves).calls.state)
    {i : Nat}
    (hchecking : ∀ g, (run program lifecycle s moves).getters[i]? = some g → g.IsChecking) :
    ∀ g, (run program lifecycle s (moves ++ more)).getters[i]? = some g → g.IsLate :=
  getter_inv moves more (fun g hg => .inl (hchecking g hg)) (fun _ _ => .inl trivial)
    fun next _ h => Getter.isLate_after h (disposed_mono hdisposable hs moves next hgone)

end Crowd

/-- What the callers of a source can rely on, in whatever order they take their
steps: it has been disposed of once some disposal has begun, and stays so; a
getter that has yet to look at the stage then gets no answer; and the slots are
empty when no call is in progress. -/
structure LeavesNothing (program : K → Steps S E) (lifecycle : S → Lifecycle) (disposal : K)
    (fresh : S) (empty : S → Prop) : Prop where
  disposed_iff : ∀ (A : Type) (moves : List (Move K S A)),
    Disposed lifecycle (Crowd.run program lifecycle fresh moves).calls.state ↔
      ∃ h ∈ (Crowd.run program lifecycle fresh moves).calls.history, h.call = disposal
  stays : ∀ (A : Type) (moves more : List (Move K S A)),
    Disposed lifecycle (Crowd.run program lifecycle fresh moves).calls.state →
    Disposed lifecycle (Crowd.run program lifecycle fresh (moves ++ more)).calls.state
  getters : ∀ (A : Type) (moves more : List (Move K S A)) (i : Nat),
    Disposed lifecycle (Crowd.run program lifecycle fresh moves).calls.state →
    (∀ g, (Crowd.run program lifecycle fresh moves).getters[i]? = some g → g.IsChecking) →
    ∀ g, (Crowd.run program lifecycle fresh (moves ++ more)).getters[i]? = some g →
      g.IsChecking ∨ g = .answered (.error .disposed)
  empties : ∀ (A : Type) (moves : List (Move K S A)),
    Disposed lifecycle (Crowd.run program lifecycle fresh moves).calls.state →
    (Crowd.run program lifecycle fresh moves).calls.IsIdle →
    empty (Crowd.run program lifecycle fresh moves).calls.state

/-- It is enough to look at the programs by themselves. -/
theorem LeavesNothing.of_disposable {lifecycle : S → Lifecycle} {empties : ι → S → Prop}
    {program : K → Steps S E} {disposal : K} {fresh : S} {empty : S → Prop}
    (hdisposable : Disposable (Disposed lifecycle) empties program disposal)
    (hfresh : ¬ Disposed lifecycle fresh) (hempty : ∀ s, (∀ slot, empties slot s) → empty s) :
    LeavesNothing program lifecycle disposal fresh empty where
  disposed_iff _ moves := (Crowd.orderly hdisposable hfresh moves).disposed_iff
  stays _ := Crowd.disposed_mono hdisposable hfresh
  getters _ moves more _ hgone := Crowd.getter_isLate hdisposable hfresh moves more hgone
  empties _ moves hgone hidle :=
    hempty _ ((Crowd.orderly hdisposable hfresh moves).empties_of_isIdle hgone hidle)

/-! ### The sources -/

theorem Lifecycle.makeReady_disposed (l : Lifecycle) :
    l.makeReady.stage = .disposed ↔ l.stage = .disposed := by
  unfold makeReady
  split
  · rename_i h
    simp [h]
  · exact Iff.rfl

namespace X509Source

/-- Nothing is kept in the only slot. -/
def Empties (_ : Unit) (c : Cache) : Prop := c.slot = none

/-- Whether or not it is told that an identity is let go of, the program goes
on. -/
theorem release_of {P : Steps Cache SourceEvent → Prop} {next : Steps Cache SourceEvent}
    (hnext : P next) (htell : ∀ e, P (.tell e next)) (old : Option Snapshot)
    (current : Option X509Svid) : P (release old current next) := by
  unfold release
  split
  · split
    · exact hnext
    · exact htell _
  · exact hnext

theorem clear_cleans : clear.Cleans (Disposed Cache.lifecycle) (Empties ()) := fun _ _ => .inl rfl

theorem clear_careful : clear.Careful (Disposed Cache.lifecycle) Empties :=
  fun _ => ⟨Iff.rfl, fun _ => .inl fun _ => rfl, release_of trivial (fun _ => .tell trivial) _ _⟩

theorem announce_cleans : announce.Cleans (Disposed Cache.lifecycle) (Empties ()) :=
  .change (.change (.look fun _ hgone => .ite hgone clear_cleans))

theorem announce_careful : announce.Careful (Disposed Cache.lifecycle) Empties :=
  .change (fun c => c.lifecycle.makeReady_disposed) (fun _ _ => id)
    (.change (fun _ => Iff.rfl) (fun _ _ => id) (.look fun _ => .ite clear_careful trivial))

theorem store_careful (snapshot : Snapshot) :
    (store snapshot).Careful (Disposed Cache.lifecycle) Empties :=
  fun _ => ⟨Iff.rfl,
    fun _ => .inr (release_of announce_cleans (fun _ => .tell announce_cleans) _ _),
    release_of announce_careful (fun _ => .tell announce_careful) _ _⟩

theorem disposable (pick : Picker) :
    Disposable (Disposed Cache.lifecycle) Empties (Call.program pick) .dispose :=
  .of_clear
    (fun
      | .install _, _ => .look fun _ => .ite trivial (store_careful _)
      | .dispose, h => absurd rfl h)
    rfl (fun _ => rfl) (fun _ _ => id) clear_careful fun _ => clear_cleans

end X509Source

namespace JwtSource

/-- Nothing is kept in the only slot. -/
def Empties (_ : Unit) (c : Cache) : Prop := c.slot = none

theorem clear_cleans : clear.Cleans (Disposed Cache.lifecycle) (Empties ()) := fun _ _ => .inl rfl

theorem clear_careful : clear.Careful (Disposed Cache.lifecycle) Empties :=
  .change (fun _ => Iff.rfl) (fun _ _ _ => rfl) trivial

theorem announce_cleans : announce.Cleans (Disposed Cache.lifecycle) (Empties ()) :=
  .change (.change (.look fun _ hgone => .ite hgone clear_cleans))

theorem announce_careful : announce.Careful (Disposed Cache.lifecycle) Empties :=
  .change (fun c => c.lifecycle.makeReady_disposed) (fun _ _ => id)
    (.change (fun _ => Iff.rfl) (fun _ _ => id) (.look fun _ => .ite clear_careful trivial))

theorem store_careful (bundles : JwtBundleSet) :
    (store bundles).Careful (Disposed Cache.lifecycle) Empties :=
  fun _ => ⟨Iff.rfl, fun _ => .inr announce_cleans, announce_careful⟩

theorem disposable : Disposable (Disposed Cache.lifecycle) Empties Call.program .dispose :=
  .of_clear
    (fun
      | .install _, _ => .look fun _ => .ite trivial (store_careful _)
      | .dispose, h => absurd rfl h)
    rfl (fun _ => rfl) (fun _ _ => id) clear_careful fun _ => clear_cleans

end JwtSource

namespace BundlesSource

/-- The slots. -/
inductive Slot where
  | x509
  | jwt

/-- Nothing is kept in a slot. -/
def Empties : Slot → Cache → Prop
  | .x509, c => c.x509 = none
  | .jwt, c => c.jwt = none

theorem clear_cleans (slot : Slot) : clear.Cleans (Disposed Cache.lifecycle) (Empties slot) := by
  cases slot with
  | x509 => exact fun _ _ => .inl rfl
  | jwt => exact .change fun _ _ => .inl rfl

theorem clear_careful : clear.Careful (Disposed Cache.lifecycle) Empties := by
  refine .change (fun _ => Iff.rfl) ?_ (.change (fun _ => Iff.rfl) ?_ trivial)
  · rintro (_ | _) c h
    · rfl
    · exact h
  · rintro (_ | _) c h
    · exact h
    · rfl

theorem publish_cleans (slot : Slot) : publish.Cleans (Disposed Cache.lifecycle) (Empties slot) :=
  .change (.look fun _ hgone => .ite hgone (clear_cleans slot))

theorem publish_careful : publish.Careful (Disposed Cache.lifecycle) Empties :=
  .change (fun _ => Iff.rfl) (by rintro (_ | _) c <;> exact id)
    (.look fun _ => .ite clear_careful trivial)

theorem announce_cleans (slot : Slot) :
    announce.Cleans (Disposed Cache.lifecycle) (Empties slot) := by
  refine .look fun c _ => ?_
  split
  · refine .look fun c _ => ?_
    split
    · exact .change (publish_cleans slot)
    · exact publish_cleans slot
  · exact publish_cleans slot

theorem makeReady_careful : makeReady.Careful (Disposed Cache.lifecycle) Empties :=
  .change (fun c => c.lifecycle.makeReady_disposed) (by rintro (_ | _) c <;> exact id)
    publish_careful

theorem announce_careful : announce.Careful (Disposed Cache.lifecycle) Empties :=
  .look fun _ => .ite (.look fun _ => .ite makeReady_careful publish_careful) publish_careful

theorem install_careful (kind : String) {store : Cache → Cache}
    (hstore : ∀ c, (store c).lifecycle = c.lifecycle) :
    (install kind store).Careful (Disposed Cache.lifecycle) Empties :=
  .look fun _ => .ite trivial fun c =>
    ⟨by rw [Disposed, Disposed, hstore], fun slot => .inr (announce_cleans slot), announce_careful⟩

theorem disposable : Disposable (Disposed Cache.lifecycle) Empties Call.program .dispose :=
  .of_clear
    (fun
      | .installX509 _, _ => install_careful _ fun _ => rfl
      | .installJwt _, _ => install_careful _ fun _ => rfl
      | .dispose, h => absurd rfl h)
    rfl (fun _ => rfl) (by rintro (_ | _) c <;> exact id) clear_careful clear_cleans

end BundlesSource

/-- **A disposal leaves nothing behind.** Any number of installs, disposals and
getters of a source may take their steps in any order: from the first step of a
disposal on the source stays disposed of, and a getter that looks at the stage
later is told so; and whenever none of the installs and disposals is in progress
after that, all slots are empty. -/
theorem sources_leave_nothing :
    (∀ pick, LeavesNothing (X509Source.Call.program pick) X509Source.Cache.lifecycle .dispose
      .fresh fun c => c.slot = none) ∧
    LeavesNothing JwtSource.Call.program JwtSource.Cache.lifecycle .dispose .fresh
      (fun c => c.slot = none) ∧
    LeavesNothing BundlesSource.Call.program BundlesSource.Cache.lifecycle .dispose .fresh
      (fun c => c.x509 = none ∧ c.jwt = none) :=
  ⟨fun pick => .of_disposable (X509Source.disposable pick) nofun fun _ h => h (),
    .of_disposable JwtSource.disposable nofun fun _ h => h (),
    .of_disposable BundlesSource.disposable nofun fun _ h => ⟨h .x509, h .jwt⟩⟩

/-- There may be something in the slot of a source that has been disposed of, as
long as the install that put it there goes on. -/
example (bundles : JwtBundleSet) :
    let moves : List (Move JwtSource.Call JwtSource.Cache Unit) :=
      [.call (.install bundles), .work 0, .call .dispose, .work 1, .work 1, .work 0]
    (Crowd.run JwtSource.Call.program JwtSource.Cache.lifecycle .fresh moves).calls.state =
      ⟨⟨.disposed, 0⟩, some bundles⟩ :=
  rfl

end WorkloadIdentity
