/-
# Many callers of one source

A source is shared by any number of callers. Calls that change it are programs in
atomic steps, and a getter takes two steps: it looks at the stage, and if it may
answer it loads a slot. `Crowd.run` lets all of them go on in any order that a
list of moves says: a call or a getter begins, or the one at a position takes its
next step. The history says of every step which call took it, what the state was
before and after, and what was told.

What holds of all calls side by side is proved from what holds of a program by
itself (`Crowd.calls_inv`): for one, what every step of a program keeps holds at all
times (`Crowd.keeps`).

Key definitions: `Steps.Keeps`, `Calls`, `Calls.step`, `Calls.IsIdle`, `Getter`,
`Getter.after`, `Crowd.run`, `X509Source.Call`, `JwtSource.Call`,
`BundlesSource.Call`.
Key theorems: `Getter.ofSlot_alone`, `Crowd.calls_inv`, `Crowd.keeps`,
`Crowd.history_suffix`, `Crowd.getter_inv`.
-/
import Mathlib.Data.List.Induction
import WorkloadIdentity.Source.Bundle
import WorkloadIdentity.Source.Jwt
import WorkloadIdentity.Source.X509

namespace WorkloadIdentity

variable {K S E A : Type}

/-! ### Programs -/

namespace Steps

/-- Every step of the program keeps a property of the state. -/
def Keeps (P : S → Prop) : Steps S E → Prop
  | done => True
  | act _ change next => ∀ s, P s → P (change s) ∧ (next s).Keeps P

variable {P : S → Prop} {p q : Steps S E} {next : S → Steps S E} {f : S → S}

theorem Keeps.look (h : ∀ s, P s → (next s).Keeps P) : (Steps.look next).Keeps P :=
  fun s hs => ⟨hs, h s hs⟩

theorem Keeps.tell {e : E} (h : p.Keeps P) : (Steps.tell e p).Keeps P := fun _ hs => ⟨hs, h⟩

theorem Keeps.change (hf : ∀ s, P s → P (f s)) (h : p.Keeps P) : (Steps.change f p).Keeps P :=
  fun s hs => ⟨hf s hs, h⟩

theorem Keeps.ite {c : Prop} [Decidable c] (hp : p.Keeps P) (hq : q.Keeps P) :
    (if c then p else q).Keeps P := by
  split
  · exact hp
  · exact hq

/-- A program left alone keeps what its steps keep. -/
theorem Keeps.run (h : p.Keeps P) {s : S} (hs : P s) : P (p.run s).2 := by
  induction p generalizing s with
  | done => exact hs
  | act tells change next ih => exact ih s (h s hs).2 (h s hs).1

end Steps

/-! ### Calls -/

/-- A step that a call has taken. -/
structure Happening (K S E : Type) where
  /-- The position of the call. -/
  caller : Nat
  call : K
  before : S
  told : List E
  after : S

/-- The calls on a state, which are of several kinds. -/
structure Calls (K S E : Type) where
  state : S
  /-- All calls that have begun, and what each has left to do. -/
  working : List (K × Steps S E)
  /-- The steps taken, the last one first. -/
  history : List (Happening K S E)

namespace Calls

/-- No call has begun. -/
def start (s : S) : Calls K S E := ⟨s, [], []⟩

/-- A call begins. -/
def begin (c : Calls K S E) (call : K) (program : Steps S E) : Calls K S E :=
  { c with working := c.working ++ [(call, program)] }

/-- The call at a position takes a step. -/
def step (c : Calls K S E) (caller : Nat) (call : K) (tells : S → List E) (change : S → S)
    (next : S → Steps S E) : Calls K S E where
  state := change c.state
  working := c.working.set caller (call, next c.state)
  history := ⟨caller, call, c.state, tells c.state, change c.state⟩ :: c.history

/-- The call at a position takes its next step, if it has one. -/
def advance (c : Calls K S E) (caller : Nat) : Calls K S E :=
  match c.working[caller]? with
  | some (call, .act tells change next) => c.step caller call tells change next
  | _ => c

/-- No call is in progress. -/
def IsIdle (c : Calls K S E) : Prop :=
  ∀ call program, (call, program) ∈ c.working → program = .done

theorem mem_begin {c : Calls K S E} {call call' : K} {program program' : Steps S E}
    (h : (call', program') ∈ (c.begin call program).working) :
    (call', program') ∈ c.working ∨ call' = call ∧ program' = program := by
  rcases List.mem_append.mp h with h | h
  · exact .inl h
  · exact .inr (Prod.mk.inj (List.mem_singleton.mp h))

theorem mem_step {c : Calls K S E} {caller : Nat} {call call' : K} {tells : S → List E}
    {change : S → S} {next : S → Steps S E} {program : Steps S E}
    (h : (call', program) ∈ (c.step caller call tells change next).working) :
    (call', program) ∈ c.working ∨ call' = call ∧ program = next c.state := by
  rcases List.mem_or_eq_of_mem_set h with h | h
  · exact .inl h
  · exact .inr (Prod.mk.inj h)

end Calls

/-! ### Getters -/

/-- A getter: `load` is what it answers from the state, once it may. -/
inductive Getter (S A : Type) where
  /-- About to look at the stage. -/
  | checking (load : S → Except SourceError A)
  /-- About to load a slot. -/
  | loading (load : S → Except SourceError A)
  | answered (answer : Except SourceError A)

namespace Getter

/-- Has it yet to look at the stage? -/
def IsChecking : Getter S A → Prop
  | checking _ => True
  | _ => False

variable (lifecycle : S → Lifecycle)

/-- A getter after its next step. -/
def after (s : S) : Getter S A → Getter S A
  | checking load =>
    match (lifecycle s).check with
    | .ok () => loading load
    | .error cause => answered (.error cause)
  | loading load => answered (load s)
  | answered answer => answered answer

/-- A getter that goes on from what a slot holds, as all getters of the sources
do. -/
def ofSlot {B : Type} (slot : S → Option B) (answer : B → Except SourceError A) : Getter S A :=
  checking fun s =>
    match slot s with
    | some b => answer b
    | none => .error .disposed

/-- A getter that nobody comes in between answers from what it reads at once. -/
theorem ofSlot_alone {B : Type} (slot : S → Option B) (answer : B → Except SourceError A) (s : S) :
    (ofSlot slot answer |>.after lifecycle s).after lifecycle s =
      answered ((lifecycle s).read (slot s) >>= answer) := by
  unfold ofSlot Lifecycle.read
  rw [after]
  cases (lifecycle s).check with
  | error cause => rfl
  | ok =>
    cases hslot : slot s with
    | none => simp only [after, hslot]; rfl
    | some b => simp only [after, hslot]; rfl

/-- For one, the getter of the identity. -/
example (c : X509Source.Cache) :
    (ofSlot X509Source.Cache.slot (fun snapshot =>
        match snapshot.svid with
        | some svid => .ok svid
        | none => .error .noSuitableSvid)
      |>.after X509Source.Cache.lifecycle c).after X509Source.Cache.lifecycle c =
      answered (X509Source.svid c) :=
  ofSlot_alone _ _ _ _

end Getter

/-! ### Crowds -/

/-- Calls and getters on one state. -/
structure Crowd (K S E A : Type) where
  calls : Calls K S E
  getters : List (Getter S A)

/-- What happens next. -/
inductive Move (K S A : Type) where
  | call (call : K)
  | get (load : S → Except SourceError A)
  | work (caller : Nat)
  | look (getter : Nat)

namespace Crowd

variable (program : K → Steps S E) (lifecycle : S → Lifecycle)

/-- After a move. -/
def after (c : Crowd K S E A) : Move K S A → Crowd K S E A
  | .call call => { c with calls := c.calls.begin call (program call) }
  | .get load => { c with getters := c.getters ++ [.checking load] }
  | .work caller => { c with calls := c.calls.advance caller }
  | .look getter => { c with getters := c.getters.modify getter (·.after lifecycle c.calls.state) }

/-- After so many moves, with nobody there at first. -/
def run (s : S) (moves : List (Move K S A)) : Crowd K S E A :=
  moves.foldl (after program lifecycle) ⟨.start s, []⟩

variable {program lifecycle} {s : S}

theorem run_append (moves more : List (Move K S A)) :
    run program lifecycle s (moves ++ more) =
      more.foldl (after program lifecycle) (run program lifecycle s moves) :=
  List.foldl_append

/-- What one step of a call keeps holds of the calls at all times, if only calls of a
certain kind begin. -/
theorem calls_inv_of {P : Calls K S E → Prop} {Q : K → Prop} (hstart : P (.start s))
    (hbegin : ∀ c call, Q call → P c → P (c.begin call (program call)))
    (hstep : ∀ c caller call tells change next, P c →
      c.working[caller]? = some (call, .act tells change next) →
      P (c.step caller call tells change next)) (moves : List (Move K S A))
    (hmoves : ∀ call, .call call ∈ moves → Q call) :
    P (run program lifecycle s moves).calls := by
  induction moves using List.reverseRecOn with
  | nil => exact hstart
  | append_singleton moves move ih =>
    have ih := ih fun call hcall => hmoves call (List.mem_append_left _ hcall)
    rw [run_append]
    cases move with
    | call call => exact hbegin _ call (hmoves call (List.mem_append_right _ (.head _))) ih
    | get load => exact ih
    | look getter => exact ih
    | work caller =>
      simp only [List.foldl_cons, List.foldl_nil, after, Calls.advance]
      split
      · rename_i hworking
        exact hstep _ _ _ _ _ _ ih hworking
      · exact ih

/-- What one step of a call keeps holds of the calls at all times. -/
theorem calls_inv {P : Calls K S E → Prop} (hstart : P (.start s))
    (hbegin : ∀ c call, P c → P (c.begin call (program call)))
    (hstep : ∀ c caller call tells change next, P c →
      c.working[caller]? = some (call, .act tells change next) →
      P (c.step caller call tells change next)) (moves : List (Move K S A)) :
    P (run program lifecycle s moves).calls :=
  calls_inv_of (Q := fun _ => True) hstart (fun c call _ => hbegin c call) hstep moves
    fun _ _ => trivial

/-- What every step of every program keeps holds of the state at all times, and is kept by
what is left of each call. -/
theorem keeps {P : S → Prop} {Q : K → Prop} (hs : P s)
    (hprogram : ∀ call, Q call → (program call).Keeps P) (moves : List (Move K S A))
    (hmoves : ∀ call, .call call ∈ moves → Q call) :
    P (run program lifecycle s moves).calls.state ∧
      ∀ call p, (call, p) ∈ (run program lifecycle s moves).calls.working → p.Keeps P := by
  refine calls_inv_of (P := fun c => P c.state ∧ ∀ call p, (call, p) ∈ c.working → p.Keeps P)
    ⟨hs, fun _ _ h => nomatch h⟩ (fun c call hcall h => ⟨h.1, fun call' p hmem => ?_⟩)
    (fun c caller call tells change next h hcaller => ?_) moves hmoves
  · rcases Calls.mem_begin hmem with hmem | ⟨-, rfl⟩
    · exact h.2 call' p hmem
    · exact hprogram call hcall
  · obtain ⟨hchange, hnext⟩ := h.2 call _ (List.mem_of_getElem? hcaller) c.state h.1
    refine ⟨hchange, fun call' p hmem => ?_⟩
    rcases Calls.mem_step hmem with hmem | ⟨-, rfl⟩
    · exact h.2 call' p hmem
    · exact hnext

/-- The history is only added to. -/
theorem history_suffix (moves more : List (Move K S A)) :
    (run program lifecycle s moves).calls.history <:+
      (run program lifecycle s (moves ++ more)).calls.history := by
  induction more using List.reverseRecOn with
  | nil => exact (List.append_nil moves).symm ▸ List.suffix_refl _
  | append_singleton more move ih =>
    rw [← List.append_assoc, run_append]
    refine ih.trans ?_
    cases move with
    | call | get | look => exact List.suffix_refl _
    | work caller =>
      simp only [List.foldl_cons, List.foldl_nil, after, Calls.advance]
      split
      · exact List.suffix_cons _ _
      · exact List.suffix_refl _

/-- What a getter keeps when it takes a step holds of it from then on. -/
theorem getter_inv {P : Getter S A → Prop} (moves more : List (Move K S A)) {i : Nat}
    (hbefore : ∀ g, (run program lifecycle s moves).getters[i]? = some g → P g)
    (hbegin : ∀ load, .get load ∈ more → P (.checking load))
    (hlook : ∀ (next : List (Move K S A)) (g : Getter S A), P g →
      P (g.after lifecycle (run program lifecycle s (moves ++ next)).calls.state)) :
    ∀ g, (run program lifecycle s (moves ++ more)).getters[i]? = some g → P g := by
  induction more using List.reverseRecOn with
  | nil =>
    rw [List.append_nil]
    exact hbefore
  | append_singleton more move ih =>
    have ih := ih fun load hload => hbegin load (List.mem_append_left _ hload)
    have hlook := hlook more
    rw [← List.append_assoc, run_append]
    generalize run program lifecycle s (moves ++ more) = c at ih hlook
    intro g hg
    cases move with
    | call | work => exact ih g hg
    | get load =>
      change (c.getters ++ [.checking load])[i]? = some g at hg
      rw [List.getElem?_append] at hg
      split at hg
      · exact ih g hg
      · obtain rfl := List.mem_singleton.mp (List.mem_of_getElem? hg)
        exact hbegin load (List.mem_append_right _ (List.mem_singleton_self _))
    | look j =>
      change (c.getters.modify j (·.after lifecycle c.calls.state))[i]? = some g at hg
      rw [List.getElem?_modify] at hg
      split at hg
      · obtain ⟨g', hg', rfl⟩ := Option.map_eq_some_iff.mp hg
        exact hlook g' (ih g' hg')
      · obtain ⟨g', hg', rfl⟩ := Option.map_eq_some_iff.mp hg
        exact ih g' hg'

end Crowd

/-! ### Calls of the sources -/

/-- What changes a source of X.509 identities. -/
inductive X509Source.Call where
  | install (context : X509Context)
  | dispose

/-- The program of a call, with the source's picker. -/
def X509Source.Call.program (pick : Picker) : X509Source.Call → Steps X509Source.Cache SourceEvent
  | install context => X509Source.install pick context
  | dispose => X509Source.dispose

/-- What changes a source of JWT bundles. -/
inductive JwtSource.Call where
  | install (bundles : JwtBundleSet)
  | dispose

/-- The program of a call. -/
def JwtSource.Call.program : JwtSource.Call → Steps JwtSource.Cache SourceEvent
  | install bundles => JwtSource.install bundles
  | dispose => JwtSource.dispose

/-- What changes a source of all bundles. -/
inductive BundlesSource.Call where
  | installX509 (bundles : X509BundleSet)
  | installJwt (bundles : JwtBundleSet)
  | dispose

/-- The program of a call. -/
def BundlesSource.Call.program : BundlesSource.Call → Steps BundlesSource.Cache SourceEvent
  | installX509 bundles => BundlesSource.installX509 bundles
  | installJwt bundles => BundlesSource.installJwt bundles
  | dispose => BundlesSource.dispose

end WorkloadIdentity
