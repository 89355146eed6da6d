/-
# Bundles of both kinds

A source of all bundles is ready once it has bundles of both kinds. Installs of either
kind may come in any order and take their steps side by side. Each of them stands at one
of a few places (`Place`), and what it has found out on its way there stays true, because
slots are only filled (`Consistent`): an install that is about to make the source ready
has seen both slots full. An install that has gone past without making the source ready
has seen the slot of the other kind empty, so that installs of both kinds cannot have done
so (`Consistent.decided`).

When no install is in progress, the source is as if the installs had been made one after
the other, in the order in which they filled their slots.

Key definitions: `BundlesSource.Place`, `BundlesSource.Consistent`,
`BundlesSource.put`, `BundlesSource.InPlace`.
Key theorems: `BundlesSource.Consistent.step`, `BundlesSource.InPlace.step`,
`BundlesSource.installs_serve_both`.
-/
import WorkloadIdentity.Proofs.Source.Readiness
import WorkloadIdentity.Proofs.Source.Serving

namespace WorkloadIdentity
namespace BundlesSource

/-- Bundles of one kind or the other. -/
abbrev Bundles := X509BundleSet ⊕ JwtBundleSet

/-! ### Places -/

/-- The call that installs bundles. -/
def Call.ofBundles : Bundles → Call
  | .inl bundles => .installX509 bundles
  | .inr bundles => .installJwt bundles

/-- What bundles are told under. -/
def title : Bundles → String
  | .inl _ => "X.509"
  | .inr _ => "JWT"

/-- Puts bundles in the slot of their kind. -/
def store (c : Cache) : Bundles → Cache
  | .inl bundles => { c with x509 := some bundles }
  | .inr bundles => { c with jwt := some bundles }

/-- The slot of the bundles' kind is full. -/
def Holds (c : Cache) : Bundles → Prop
  | .inl _ => c.x509.isSome
  | .inr _ => c.jwt.isSome

/-- Where an install stands. -/
inductive Place where
  | begun
  /-- About to fill the slot. -/
  | storing
  /-- About to look into the first slot. -/
  | announcing
  /-- About to look into the second slot. -/
  | looking
  /-- About to make the source ready. -/
  | readying
  | publishing
  | rechecking
  | through
  deriving DecidableEq

namespace Place

/-- What is left of an install. -/
def program (set : Bundles) : Place → Steps Cache SourceEvent
  | begun => install (title set) (store · set)
  | storing => .act (fun _ => [.log .debug ("Installing " ++ title set ++ " bundle set")])
      (store · set) fun _ => announce
  | announcing => announce
  | looking => .look fun c => if c.jwt.isSome then makeReady else publish
  | readying => makeReady
  | publishing => publish
  | rechecking => recheck
  | through => .done

/-- What the next step leaves. -/
def change (set : Bundles) (c : Cache) : Place → Cache
  | storing => store c set
  | readying => { c with lifecycle := c.lifecycle.makeReady }
  | publishing => { c with lifecycle := c.lifecycle.publish }
  | _ => c

/-- Where the install stands after its next step, if the source is not disposed of. -/
def next (c : Cache) : Place → Place
  | begun => storing
  | storing => announcing
  | announcing => if c.x509.isSome then looking else publishing
  | looking => if c.jwt.isSome then readying else publishing
  | readying => publishing
  | publishing => rechecking
  | rechecking | through => through

/-- The slot has been filled. -/
def hasStored : Place → Bool
  | begun | storing => false
  | _ => true

/-- The install has looked into the slots, and is past making the source ready. -/
def hasLooked : Place → Bool
  | publishing | rechecking | through => true
  | _ => false

/-- The update has been counted. -/
def hasPublished : Place → Bool
  | rechecking | through => true
  | _ => false

variable {set : Bundles} {c : Cache} {place : Place} {tells : Cache → List SourceEvent}
  {f : Cache → Cache} {more : Cache → Steps Cache SourceEvent}

/-- What is left of an install goes on to the next place. -/
theorem program_eq_act (h : place.program set = .act tells f more)
    (hc : c.lifecycle.stage ≠ .disposed) :
    f c = place.change set c ∧ more c = (place.next c).program set ∧
      ((tells c).isEmpty = decide (place ≠ .storing)) := by
  cases place with
  | begun =>
    obtain ⟨rfl, rfl, rfl⟩ := Steps.act.inj h
    exact ⟨rfl, if_neg hc, rfl⟩
  | announcing =>
    obtain ⟨rfl, rfl, rfl⟩ := Steps.act.inj h
    refine ⟨rfl, ?_, rfl⟩
    dsimp only [next]
    split <;> rfl
  | looking =>
    obtain ⟨rfl, rfl, rfl⟩ := Steps.act.inj h
    refine ⟨rfl, ?_, rfl⟩
    dsimp only [next]
    split <;> rfl
  | rechecking =>
    obtain ⟨rfl, rfl, rfl⟩ := Steps.act.inj h
    exact ⟨rfl, if_neg hc, rfl⟩
  | storing | readying | publishing =>
    obtain ⟨rfl, rfl, rfl⟩ := Steps.act.inj h
    exact ⟨rfl, rfl, rfl⟩
  | through => cases h

theorem program_eq_done : place.program set = .done ↔ place = through := by
  cases place <;> simp [program, install, announce, makeReady, publish, recheck, Steps.look,
    Steps.change]

/-- A step empties no slot. -/
theorem holds_change {other : Bundles} (h : Holds c other) :
    Holds (place.change set c) other := by
  cases place with
  | storing =>
    cases set <;> cases other <;> first | rfl | exact h
  | _ => cases other <;> exact h

theorem isSome_change : (c.x509.isSome → (place.change set c).x509.isSome) ∧
    (c.jwt.isSome → (place.change set c).jwt.isSome) := by
  have hx509 := @holds_change set c place (.inl .empty)
  have hjwt := @holds_change set c place (.inr .empty)
  exact ⟨hx509, hjwt⟩

theorem initialized_change (h : c.lifecycle.stage = .initialized) :
    (place.change set c).lifecycle.stage = .initialized := by
  cases place with
  | storing => cases set <;> exact h
  | readying =>
    have hsame : c.lifecycle.makeReady = c.lifecycle := by rw [Lifecycle.makeReady, h]; rfl
    change c.lifecycle.makeReady.stage = .initialized
    rwa [hsame]
  | _ => exact h

theorem stage_change (h : c.lifecycle.stage ≠ .disposed) :
    (place.change set c).lifecycle.stage ≠ .disposed := by
  cases place with
  | storing => cases set <;> exact h
  | readying => exact mt c.lifecycle.makeReady_disposed.mp h
  | _ => exact h

/-- After the step that fills it the slot is full. -/
theorem holds_next (h : place.hasStored = true → Holds c set)
    (hnext : (place.next c).hasStored = true) : Holds (place.change set c) set := by
  cases place with
  | begun => cases hnext
  | storing => cases set <;> rfl
  | _ => exact holds_change (h rfl)

theorem change_of_ne_storing (h : place ≠ .storing) :
    (place.change set c).x509 = c.x509 ∧ (place.change set c).jwt = c.jwt := by
  cases place with
  | storing => exact absurd rfl h
  | _ => exact ⟨rfl, rfl⟩

/-- No step touches the slot of the other kind. -/
theorem change_other (c : Cache) (place : Place) :
    (∀ bundles, (place.change (.inl bundles) c).jwt = c.jwt) ∧
    (∀ bundles, (place.change (.inr bundles) c).x509 = c.x509) := by
  cases place <;> exact ⟨fun _ => rfl, fun _ => rfl⟩

theorem hasStored_next (h : place ≠ .storing) : (place.next c).hasStored = place.hasStored := by
  cases place with
  | storing => exact absurd rfl h
  | announcing | looking =>
    dsimp only [next]
    split <;> rfl
  | _ => rfl

theorem hasStored_of_hasLooked (h : place.hasLooked = true) : place.hasStored = true := by
  cases place <;> first | rfl | cases h

end Place

/-! ### What installs have found out -/

/-- An install of bundles, and where it stands. -/
abbrev Standing := Bundles × Place

/-- What holds of the source, and of all that installs know of it. -/
structure Consistent (c : Cache) (ats : List Standing) : Prop where
  stage : c.lifecycle.stage ≠ .disposed
  stored : ∀ a ∈ ats, a.2.hasStored = true → Holds c a.1
  looking : ∀ a ∈ ats, a.2 = .looking → c.x509.isSome
  readying : ∀ a ∈ ats, a.2 = .readying → c.x509.isSome ∧ c.jwt.isSome
  ready : c.lifecycle.stage = .initialized → c.x509.isSome ∧ c.jwt.isSome
  /-- As long as the source is not ready, only installs of one kind are past that. -/
  decided : c.lifecycle.stage = .initialized ∨
    (∀ a ∈ ats, a.2.hasLooked = true → a.1.isLeft) ∨
    (∀ a ∈ ats, a.2.hasLooked = true → a.1.isRight)
  updates : c.lifecycle.updates = ats.countP (·.2.hasPublished)

/-- What holds of each of several, when one of them is replaced. -/
theorem forall_replace {α : Type} {P Q : α → Prop} {front back : List α} {x y : α}
    (h : ∀ a ∈ front ++ x :: back, P a) (himp : ∀ a, P a → Q a) (hy : Q y) :
    ∀ a ∈ front ++ y :: back, Q a := by
  intro a ha
  rcases List.mem_append.mp ha with hfront | ha
  · exact himp a (h a (List.mem_append_left _ hfront))
  · rcases List.mem_cons.mp ha with rfl | hback
    · exact hy
    · exact himp a (h a (List.mem_append_right _ (List.mem_cons_of_mem _ hback)))

namespace Consistent

variable {c : Cache} {ats front back : List Standing} {set : Bundles} {place : Place}

theorem fresh : Consistent .fresh [] where
  stage := nofun
  stored := nofun
  looking := nofun
  readying := nofun
  ready := nofun
  decided := .inr (.inl nofun)
  updates := rfl

theorem begin (h : Consistent c ats) (set : Bundles) : Consistent c (ats ++ [(set, .begun)]) := by
  have hmem : ∀ {P : Standing → Prop}, (∀ a ∈ ats, P a) → P (set, .begun) →
      ∀ a ∈ ats ++ [(set, .begun)], P a := by
    intro P hats hbegun a ha
    rcases List.mem_append.mp ha with ha | ha
    · exact hats a ha
    · rw [List.mem_singleton.mp ha]
      exact hbegun
  refine ⟨h.stage, hmem h.stored nofun, hmem h.looking nofun, hmem h.readying nofun, h.ready, ?_, ?_⟩
  · rcases h.decided with hready | hleft | hright
    · exact .inl hready
    · exact .inr (.inl (hmem hleft nofun))
    · exact .inr (.inr (hmem hright nofun))
  · rw [h.updates, List.countP_append]
    rfl

/-- What an install finds out by its next step. -/
theorem finds (h : Consistent c (front ++ (set, place) :: back)) :
    (place.next c = .looking → c.x509.isSome) ∧
    (place.next c = .readying → c.x509.isSome ∧ c.jwt.isSome) := by
  have hself : (set, place) ∈ front ++ (set, place) :: back := by simp
  cases place with
  | announcing =>
    dsimp only [Place.next]
    split
    · rename_i hx509
      exact ⟨fun _ => hx509, nofun⟩
    · exact ⟨nofun, nofun⟩
  | looking =>
    have hx509 := h.looking _ hself rfl
    dsimp only [Place.next]
    split
    · rename_i hjwt
      exact ⟨nofun, fun _ => ⟨hx509, hjwt⟩⟩
    · exact ⟨nofun, nofun⟩
  | _ => exact ⟨nofun, nofun⟩

/-- Installs that are past making the source ready, and have not done so, have seen the
slot of the other kind empty. -/
theorem decided_step (h : Consistent c (front ++ (set, place) :: back)) :
    (place.change set c).lifecycle.stage = .initialized ∨
      (∀ a ∈ front ++ (set, place.next c) :: back, a.2.hasLooked = true → a.1.isLeft) ∨
      (∀ a ∈ front ++ (set, place.next c) :: back, a.2.hasLooked = true → a.1.isRight) := by
  have hself : (set, place) ∈ front ++ (set, place) :: back := by simp
  rcases h.decided with hready | hkinds
  · exact .inl (Place.initialized_change hready)
  by_cases hlooked : (place.next c).hasLooked = true → place.hasLooked = true
  · -- the install does not get past that in this step
    right
    rcases hkinds with hleft | hright
    · exact .inl (forall_replace hleft (fun _ => id) fun hnext =>
        hleft (set, place) hself (hlooked hnext))
    · exact .inr (forall_replace hright (fun _ => id) fun hnext =>
        hright (set, place) hself (hlooked hnext))
  cases place with
  | announcing =>
    -- the slot in which the install looks first is empty, so nobody has filled it
    have hempty : c.x509.isSome = false := by
      refine Bool.eq_false_iff.mpr fun hfull => ?_
      simp [Place.next, hfull, Place.hasLooked] at hlooked
    have hright : ∀ other, Holds c other → other.isRight := by
      rintro (bundles | bundles) hholds
      · rw [Holds, hempty] at hholds
        cases hholds
      · rfl
    refine .inr (.inr (forall_replace h.stored (fun a hstored hlooked => ?_) fun _ => ?_))
    · exact hright _ (hstored (Place.hasStored_of_hasLooked hlooked))
    · exact hright set (h.stored (set, .announcing) hself rfl)
  | looking =>
    have hempty : c.jwt.isSome = false := by
      refine Bool.eq_false_iff.mpr fun hfull => ?_
      simp [Place.next, hfull, Place.hasLooked] at hlooked
    have hleft : ∀ other, Holds c other → other.isLeft := by
      rintro (bundles | bundles) hholds
      · rfl
      · rw [Holds, hempty] at hholds
        cases hholds
    refine .inr (.inl (forall_replace h.stored (fun a hstored hlooked => ?_) fun _ => ?_))
    · exact hleft _ (hstored (Place.hasStored_of_hasLooked hlooked))
    · exact hleft set (h.stored (set, .looking) hself rfl)
  | readying =>
    left
    have hstage := h.stage
    change c.lifecycle.makeReady.stage = .initialized
    unfold Lifecycle.makeReady
    split
    · rfl
    · rename_i hother
      cases hnow : c.lifecycle.stage with
      | uninitialized => exact absurd hnow hother
      | initialized => rfl
      | disposed => exact absurd hnow hstage
  | begun | storing => exact absurd (fun hnext => nomatch hnext) hlooked
  | publishing | rechecking | through => exact absurd (fun _ => rfl) hlooked

/-- An update is counted when an install says so. -/
theorem updates_step (h : Consistent c (front ++ (set, place) :: back)) :
    (place.change set c).lifecycle.updates =
      (front ++ (set, place.next c) :: back).countP (·.2.hasPublished) := by
  have hbefore := h.updates
  rw [List.countP_append, List.countP_cons] at hbefore ⊢
  cases place with
  | begun => exact hbefore
  | storing => cases set <;> exact hbefore
  | announcing | looking =>
    dsimp only [Place.next]
    split <;> exact hbefore
  | readying =>
    have hsame : c.lifecycle.makeReady.updates = c.lifecycle.updates := by
      unfold Lifecycle.makeReady
      split <;> rfl
    exact hsame.trans hbefore
  | publishing =>
    change c.lifecycle.updates + 1 = _
    simp only [Place.next, Place.hasPublished] at hbefore ⊢
    simp only [Bool.false_eq_true, if_false, if_true] at hbefore ⊢
    omega
  | rechecking | through => exact hbefore

/-- **Every step of an install keeps things consistent.** -/
theorem step (h : Consistent c (front ++ (set, place) :: back)) :
    Consistent (place.change set c) (front ++ (set, place.next c) :: back) := by
  have hself : (set, place) ∈ front ++ (set, place) :: back := by simp
  obtain ⟨hx509, hjwt⟩ := @Place.isSome_change set c place
  obtain ⟨hlooking, hreadying⟩ := h.finds
  refine ⟨Place.stage_change h.stage, ?_, ?_, ?_, ?_, h.decided_step, h.updates_step⟩
  · exact forall_replace h.stored (fun a hstored ha => Place.holds_change (hstored ha))
      (Place.holds_next (h.stored _ hself))
  · exact forall_replace h.looking (fun a hlooks ha => hx509 (hlooks ha))
      fun hnext => hx509 (hlooking hnext)
  · exact forall_replace h.readying (fun a hfull ha => (hfull ha).imp hx509 hjwt)
      fun hnext => (hreadying hnext).imp hx509 hjwt
  · intro hready
    by_cases hbefore : c.lifecycle.stage = .initialized
    · exact (h.ready hbefore).imp hx509 hjwt
    · cases place with
      | readying => exact h.readying _ hself rfl
      | storing => cases set <;> exact absurd hready hbefore
      | _ => exact absurd hready hbefore

end Consistent

/-! ### What has been put in -/

theorem Cache.eq_of_fields {c c' : Cache} (hstage : c.lifecycle.stage = c'.lifecycle.stage)
    (hupdates : c.lifecycle.updates = c'.lifecycle.updates) (hx509 : c.x509 = c'.x509)
    (hjwt : c.jwt = c'.jwt) : c = c' := by
  obtain ⟨⟨stage, updates⟩, x509, jwt⟩ := c
  obtain ⟨⟨stage', updates'⟩, x509', jwt'⟩ := c'
  obtain rfl : stage = stage' := hstage
  obtain rfl : updates = updates' := hupdates
  obtain rfl : x509 = x509' := hx509
  obtain rfl : jwt = jwt' := hjwt
  rfl

/-- The bundles that a call installs. -/
def Call.bundles? : Call → Option Bundles
  | .installX509 bundles => some (.inl bundles)
  | .installJwt bundles => some (.inr bundles)
  | .dispose => none

theorem Call.bundles?_ofBundles (set : Bundles) : (Call.ofBundles set).bundles? = some set := by
  cases set <;> rfl

theorem Call.exists_ofBundles {call : Call} (h : call ≠ .dispose) :
    ∃ set, call = Call.ofBundles set := by
  cases call with
  | installX509 bundles => exact ⟨.inl bundles, rfl⟩
  | installJwt bundles => exact ⟨.inr bundles, rfl⟩
  | dispose => exact absurd rfl h

/-- The bundles that a step of an install puts in their slot, which it tells. -/
def puts? (h : Happening Call Cache SourceEvent) : Option Bundles :=
  if h.told.isEmpty then none else h.call.bundles?

/-- The bundles that have been put in by some steps of installs, of which the last one
comes first. -/
def put (history : List (Happening Call Cache SourceEvent)) : List Bundles :=
  history.reverse.filterMap puts?

theorem put_cons (h : Happening Call Cache SourceEvent)
    (history : List (Happening Call Cache SourceEvent)) :
    put (h :: history) = put history ++ (puts? h).toList := by
  unfold put
  rw [List.reverse_cons, List.filterMap_append]
  cases hputs : puts? h <;> simp [hputs]

theorem serving_slots (sets : List Bundles) (set : Bundles) {c : Cache}
    (hx509 : c.x509 = (serving sets).x509) (hjwt : c.jwt = (serving sets).jwt) :
    (store c set).x509 = (serving (sets ++ [set])).x509 ∧
      (store c set).jwt = (serving (sets ++ [set])).jwt := by
  cases set with
  | inl bundles =>
    refine ⟨?_, ?_⟩
    · simp [serving, store]
    · simpa [serving, store] using hjwt
  | inr bundles =>
    refine ⟨?_, ?_⟩
    · simpa [serving, store] using hx509
    · simp [serving, store]

/-- A call for each install, and what is left of it. -/
def left (ats : List Standing) : List (Call × Steps Cache SourceEvent) :=
  ats.map fun a => (Call.ofBundles a.1, a.2.program a.1)

/-- The calls are installs that stand at these places, and the slots hold what they have
put in last. -/
structure InPlace (calls : Calls Call Cache SourceEvent) (ats : List Standing) : Prop where
  working : calls.working = left ats
  consistent : Consistent calls.state ats
  x509 : calls.state.x509 = (serving (put calls.history)).x509
  jwt : calls.state.jwt = (serving (put calls.history)).jwt
  /-- Every install that has filled its slot has done so once. -/
  puts : (put calls.history).Perm ((ats.filter (·.2.hasStored)).map (·.1))
  steps : ∀ h ∈ calls.history, ∃ (set : Bundles) (place : Place),
    h.call = Call.ofBundles set ∧ h.after = place.change set h.before

namespace InPlace

variable {calls : Calls Call Cache SourceEvent} {ats : List Standing}

theorem start : InPlace (.start .fresh) [] where
  working := rfl
  consistent := .fresh
  x509 := rfl
  jwt := rfl
  puts := .nil
  steps := nofun

theorem begin (h : InPlace calls ats) (set : Bundles) :
    InPlace (calls.begin (Call.ofBundles set) (Call.ofBundles set).program)
      (ats ++ [(set, .begun)]) where
  working := by
    have hprogram : (Call.ofBundles set).program = Place.begun.program set := by cases set <;> rfl
    rw [Calls.begin, h.working, left, left, List.map_append, hprogram]
    rfl
  consistent := h.consistent.begin set
  x509 := h.x509
  jwt := h.jwt
  puts := by
    have hbegun : (ats ++ [(set, Place.begun)]).filter (·.2.hasStored) =
        ats.filter (·.2.hasStored) := by simp [Place.hasStored]
    rw [hbegun]
    exact h.puts
  steps := h.steps

theorem step (h : InPlace calls ats) {caller : Nat} {call : Call}
    {tells : Cache → List SourceEvent} {change : Cache → Cache}
    {next : Cache → Steps Cache SourceEvent}
    (hcaller : calls.working[caller]? = some (call, .act tells change next)) :
    ∃ ats', InPlace (calls.step caller call tells change next) ats' := by
  have hleft := hcaller
  rw [h.working, left, List.getElem?_map] at hleft
  obtain ⟨⟨set, place⟩, hplace, hentry⟩ := Option.map_eq_some_iff.mp hleft
  obtain ⟨rfl, hprogram⟩ := Prod.mk.inj hentry
  obtain ⟨hchange, hnext, htells⟩ := Place.program_eq_act hprogram h.consistent.stage
  obtain ⟨hlt, hget⟩ := List.getElem?_eq_some_iff.mp hplace
  obtain ⟨front, back, hsplit, -, hset⟩ :=
    @List.exists_of_set _ caller (set, place.next calls.state) _ hlt
  rw [hget] at hsplit
  have hconsistent := h.consistent
  have hpermuted := h.puts
  rw [hsplit] at hconsistent hpermuted
  have hputs : put (calls.step caller (Call.ofBundles set) tells change next).history =
      put calls.history ++ if place = .storing then [set] else [] := by
    rw [Calls.step, put_cons, puts?, htells, Call.bundles?_ofBundles]
    by_cases hstoring : place = .storing <;> simp [hstoring]
  have hslots : (change calls.state).x509 = (serving (put (calls.step caller
        (Call.ofBundles set) tells change next).history)).x509 ∧
      (change calls.state).jwt = (serving (put (calls.step caller
        (Call.ofBundles set) tells change next).history)).jwt := by
    rw [hputs, hchange]
    by_cases hstoring : place = .storing
    · subst hstoring
      exact serving_slots _ set h.x509 h.jwt
    · obtain ⟨hx509, hjwt⟩ := @Place.change_of_ne_storing set calls.state place hstoring
      rw [if_neg hstoring, List.append_nil, hx509, hjwt]
      exact ⟨h.x509, h.jwt⟩
  refine ⟨front ++ (set, place.next calls.state) :: back, ?_, ?_, hslots.1, hslots.2, ?_, ?_⟩
  · rw [Calls.step, h.working, hnext, ← hset, left, left, List.map_set]
  · change Consistent (change calls.state) _
    rw [hchange]
    exact hconsistent.step
  · rw [hputs]
    by_cases hstoring : place = .storing
    · subst hstoring
      have hafter := (hpermuted.append_right [set]).trans (List.perm_append_singleton set _)
      refine hafter.trans ?_
      simpa [Place.next, Place.hasStored] using List.perm_middle.symm
    · have hsame := @Place.hasStored_next calls.state place hstoring
      rw [if_neg hstoring, List.append_nil]
      cases hkept : place.hasStored <;>
        simpa [List.filter_append, List.filter_cons, hsame, hkept] using hpermuted
  · intro happening hmem
    rcases List.mem_cons.mp hmem with rfl | hmem
    · exact ⟨set, place, rfl, hchange⟩
    · exact h.steps happening hmem

end InPlace

/-! ### What is answered -/

/-- What can be relied on of the answers after bundles have been put in: there are none
as long as those of one kind are missing, and a source that is ready answers with those
of each kind that have been put in last. -/
structure Answers (c : Cache) (sets : List Bundles) : Prop where
  missing : (serving sets).x509 = none ∨ (serving sets).jwt = none →
    ∀ {B : Type} {get : Cache → Except SourceError B}, IsGetter get → get c = .error .invalidState
  ready : c.lifecycle.stage = .initialized → ∃ x509 jwt, (serving sets).x509 = some x509 ∧
    (serving sets).jwt = some jwt ∧ x509Bundles c = .ok x509 ∧ jwtBundles c = .ok jwt

theorem Answers.of_slots {c : Cache} {sets : List Bundles} (hstage : c.lifecycle.stage ≠ .disposed)
    (hready : c.lifecycle.stage = .initialized → c.x509.isSome ∧ c.jwt.isSome)
    (hx509 : c.x509 = (serving sets).x509) (hjwt : c.jwt = (serving sets).jwt) :
    Answers c sets where
  missing hmissing B get hget := by
    have hnot : c.lifecycle.stage = .uninitialized := by
      cases hnow : c.lifecycle.stage with
      | uninitialized => rfl
      | disposed => exact absurd hnow hstage
      | initialized =>
        obtain ⟨hfull, hfull'⟩ := hready hnow
        rw [hx509] at hfull
        rw [hjwt] at hfull'
        rcases hmissing with hmissing | hmissing
        · rw [hmissing] at hfull
          cases hfull
        · rw [hmissing] at hfull'
          cases hfull'
    exact (checked_of_isGetter hget).of_uninitialized hnot
  ready hnow := by
    obtain ⟨hfull, hfull'⟩ := hready hnow
    obtain ⟨x509, hsome⟩ := Option.isSome_iff_exists.mp hfull
    obtain ⟨jwt, hsome'⟩ := Option.isSome_iff_exists.mp hfull'
    refine ⟨x509, jwt, by rw [← hx509, hsome], by rw [← hjwt, hsome'], ?_, ?_⟩
    · exact Lifecycle.read_eq_ok_iff.mpr ⟨hnow, hsome⟩
    · exact Lifecycle.read_eq_ok_iff.mpr ⟨hnow, hsome'⟩

/-! ### One install after the other -/

/-- The source after these bundles have been installed, one after the other. -/
def inTurn (sets : List Bundles) : Cache :=
  sets.foldl (fun c set => ((Call.ofBundles set).program.run c).2) .fresh

theorem inTurn_eq_serving (sets : List Bundles) : inTurn sets = serving sets := by
  induction sets using List.reverseRecOn with
  | nil => rfl
  | append_singleton sets set ih =>
    have hstep : inTurn (sets ++ [set]) = ((Call.ofBundles set).program.run (inTurn sets)).2 := by
      unfold inTurn
      rw [List.foldl_append, List.foldl_cons, List.foldl_nil]
    rw [hstep, ih]
    cases set with
    | inl bundles => exact serves.install (.x509Bundles bundles) sets
    | inr bundles => exact serves.install (.jwtBundles bundles) sets

/-- The source is ready when bundles of both kinds have been installed. -/
theorem serving_initialized_iff (sets : List Bundles) :
    (serving sets).lifecycle.stage = .initialized ↔
      (serving sets).x509.isSome ∧ (serving sets).jwt.isSome := by
  dsimp only [serving]
  rw [← Bool.and_eq_true]
  split
  · rename_i hboth
    exact iff_of_true rfl hboth
  · rename_i hmissing
    exact iff_of_false nofun hmissing

theorem isSome_serving (sets : List Bundles) :
    ((serving sets).x509.isSome ↔ ∃ bundles, .inl bundles ∈ sets) ∧
    ((serving sets).jwt.isSome ↔ ∃ bundles, .inr bundles ∈ sets) := by
  refine ⟨?_, ?_⟩
  · simp [serving, Sum.exists]
  · simp [serving, Sum.exists]

theorem answers_inTurn (sets : List Bundles) : Answers (inTurn sets) sets := by
  rw [inTurn_eq_serving]
  exact .of_slots (serving_stage sets) (serving_initialized_iff sets).mp rfl rfl

/-- An install leaves the bundles of the other kind alone. -/
theorem inTurn_concat (sets : List Bundles) :
    (∀ bundles, (inTurn (sets ++ [.inl bundles])).jwt = (inTurn sets).jwt) ∧
    (∀ bundles, (inTurn (sets ++ [.inr bundles])).x509 = (inTurn sets).x509) := by
  simp only [inTurn_eq_serving]
  refine ⟨fun bundles => ?_, fun bundles => ?_⟩
  · simp [serving]
  · simp [serving]

/-- More installs only take the source forward. -/
theorem inTurn_precedes (sets more : List Bundles) :
    (inTurn sets).lifecycle.Precedes (inTurn (sets ++ more)).lifecycle := by
  induction more using List.reverseRecOn with
  | nil =>
    rw [List.append_nil]
    exact .refl
  | append_singleton more set ih =>
    have hstep : inTurn (sets ++ (more ++ [set])) =
        ((Call.ofBundles set).program.run (inTurn (sets ++ more))).2 := by
      unfold inTurn
      rw [← List.append_assoc, List.foldl_append, List.foldl_cons, List.foldl_nil]
    rw [hstep]
    exact ih.trans ((heralds _).run _)

/-! ### Installs side by side -/

section

variable {A : Type} {moves : List (Move Call Cache A)}

theorem exists_inPlace (h : .call .dispose ∉ moves) :
    ∃ ats, InPlace (Crowd.run Call.program Cache.lifecycle .fresh moves).calls ats := by
  refine Crowd.calls_inv_of (P := fun calls => ∃ ats, InPlace calls ats) (Q := (· ≠ .dispose))
    ⟨[], .start⟩ ?_ ?_ moves fun call hcall hdispose => h (hdispose ▸ hcall)
  · rintro calls call hinstall ⟨ats, hplace⟩
    obtain ⟨set, rfl⟩ := Call.exists_ofBundles hinstall
    exact ⟨_, hplace.begin set⟩
  · rintro calls caller call tells change next ⟨ats, hplace⟩ hcaller
    exact hplace.step hcaller

end

namespace InPlace

variable {calls : Calls Call Cache SourceEvent} {ats : List Standing}

theorem answers (h : InPlace calls ats) : Answers calls.state (put calls.history) :=
  .of_slots h.consistent.stage h.consistent.ready h.x509 h.jwt

/-- The source is ready once an install of either kind is through. -/
theorem initialized_of_mem (h : InPlace calls ats) {x509 : X509BundleSet} {jwt : JwtBundleSet}
    (hx509 : (.inl x509, .through) ∈ ats) (hjwt : (.inr jwt, .through) ∈ ats) :
    calls.state.lifecycle.stage = .initialized := by
  rcases h.consistent.decided with hready | honly | honly
  · exact hready
  · exact absurd (honly _ hjwt rfl) Bool.false_ne_true
  · exact absurd (honly _ hx509 rfl) Bool.false_ne_true

theorem mem_of_through (h : InPlace calls ats) {set : Bundles}
    (hthrough : (Call.ofBundles set, .done) ∈ calls.working) : (set, .through) ∈ ats := by
  rw [h.working, left] at hthrough
  obtain ⟨⟨set', place⟩, hmem, hentry⟩ := List.mem_map.mp hthrough
  obtain ⟨hcall, hdone⟩ := Prod.mk.inj hentry
  obtain rfl := Place.program_eq_done.mp hdone
  have hset := congrArg Call.bundles? hcall
  rw [Call.bundles?_ofBundles, Call.bundles?_ofBundles] at hset
  rwa [← Option.some.inj hset]

variable (h : InPlace calls ats) (hidle : calls.IsIdle)
include h hidle

theorem through_of_isIdle : ∀ a ∈ ats, a.2 = .through := by
  intro a ha
  have hworking : (Call.ofBundles a.1, a.2.program a.1) ∈ calls.working := by
    rw [h.working]
    exact List.mem_map_of_mem ha
  exact Place.program_eq_done.mp (hidle _ _ hworking)

/-- When all installs are through, each has put in its bundles and has been counted. -/
theorem puts_of_isIdle : (put calls.history).Perm (ats.map (·.1)) ∧
    calls.state.lifecycle.updates = ats.length := by
  have hthrough := h.through_of_isIdle hidle
  refine ⟨?_, ?_⟩
  · have hstored : ats.filter (·.2.hasStored) = ats :=
      List.filter_eq_self.mpr fun a ha => by rw [hthrough a ha]; rfl
    have hputs := h.puts
    rwa [hstored] at hputs
  · rw [h.consistent.updates, List.countP_eq_length]
    intro a ha
    rw [hthrough a ha]
    rfl

/-- When all installs are through, the source is ready if both slots are full. -/
theorem initialized_of_isIdle (hx509 : calls.state.x509.isSome) (hjwt : calls.state.jwt.isSome) :
    calls.state.lifecycle.stage = .initialized := by
  obtain ⟨hputs, -⟩ := h.puts_of_isIdle hidle
  have hmem : ∀ set ∈ put calls.history, (set, Place.through) ∈ ats := by
    intro set hset
    obtain ⟨⟨set', place⟩, ha, rfl⟩ := List.mem_map.mp (hputs.mem_iff.mp hset)
    obtain rfl : place = .through := h.through_of_isIdle hidle _ ha
    exact ha
  obtain ⟨x509, hx509⟩ := Option.isSome_iff_exists.mp hx509
  obtain ⟨jwt, hjwt⟩ := Option.isSome_iff_exists.mp hjwt
  obtain ⟨set, hset, hleft⟩ :=
    List.mem_filterMap.mp (List.mem_of_getLast? (h.x509.symm.trans hx509))
  obtain ⟨set', hset', hright⟩ :=
    List.mem_filterMap.mp (List.mem_of_getLast? (h.jwt.symm.trans hjwt))
  obtain rfl := Sum.getLeft?_eq_some_iff.mp hleft
  obtain rfl := Sum.getRight?_eq_some_iff.mp hright
  exact h.initialized_of_mem (hmem _ hset) (hmem _ hset')

/-- When all installs are through, the source is as after the same installs one after the
other, in the order in which they have filled their slots. -/
theorem serving_of_isIdle : calls.state = serving (put calls.history) := by
  obtain ⟨hputs, hupdates⟩ := h.puts_of_isIdle hidle
  have hstage : calls.state.lifecycle.stage = (serving (put calls.history)).lifecycle.stage := by
    by_cases hboth : calls.state.x509.isSome ∧ calls.state.jwt.isSome
    · rw [h.initialized_of_isIdle hidle hboth.1 hboth.2, eq_comm, serving_initialized_iff,
        ← h.x509, ← h.jwt]
      exact hboth
    · have hnot := mt h.consistent.ready hboth
      have hnot' : (serving (put calls.history)).lifecycle.stage ≠ .initialized := by
        rwa [Ne, serving_initialized_iff, ← h.x509, ← h.jwt]
      have hstage := h.consistent.stage
      have hstage' := serving_stage (put calls.history)
      cases hnow : calls.state.lifecycle.stage <;>
        cases hthen : (serving (put calls.history)).lifecycle.stage <;> simp_all
  have hcount : calls.state.lifecycle.updates = (serving (put calls.history)).lifecycle.updates := by
    change _ = (put calls.history).length
    rw [hupdates, hputs.length_eq, List.length_map]
  exact Cache.eq_of_fields hstage hcount h.x509 h.jwt

end InPlace

/-! ### Both kinds -/

/-- **A source of all bundles is ready exactly when bundles of both kinds are there.**
Installed one after the other, bundles of either kind in any order: there are no answers as
long as one kind is missing; then the source is ready and answers with the bundles of each
kind that came last; an install leaves those of the other kind alone and never takes the
source back; and there are as many updates as installs. Any number of installs may also
take their steps side by side. At all times, what holds of the answers holds for the bundles
that have been put in their slots so far. The source is ready once an install of either kind
is through and stays so, no step of an install touches the slot of the other kind, and when
no install is in progress the source is as if the installs had been made one after the
other, in the order in which they have put their bundles in. -/
theorem installs_serve_both :
    (∀ sets : List Bundles, Answers (inTurn sets) sets ∧
      ((inTurn sets).lifecycle.stage = .initialized ↔
        (∃ bundles, .inl bundles ∈ sets) ∧ ∃ bundles, .inr bundles ∈ sets) ∧
      (∀ bundles, (inTurn (sets ++ [.inl bundles])).jwt = (inTurn sets).jwt) ∧
      (∀ bundles, (inTurn (sets ++ [.inr bundles])).x509 = (inTurn sets).x509) ∧
      (∀ more, (inTurn sets).lifecycle.Precedes (inTurn (sets ++ more)).lifecycle) ∧
      (inTurn sets).lifecycle.updates = sets.length) ∧
    ∀ (A : Type) (moves : List (Move Call Cache A)), .call .dispose ∉ moves →
      let calls := (Crowd.run Call.program Cache.lifecycle .fresh moves).calls
      let sets := put calls.history
      Answers calls.state sets ∧
      (∀ x509 jwt, (.installX509 x509, .done) ∈ calls.working →
        (.installJwt jwt, .done) ∈ calls.working →
        calls.state.lifecycle.stage = .initialized) ∧
      (∀ h ∈ calls.history, (∀ bundles, h.call = .installX509 bundles → h.after.jwt = h.before.jwt) ∧
        ∀ bundles, h.call = .installJwt bundles → h.after.x509 = h.before.x509) ∧
      (∀ more, .call .dispose ∉ more →
        let after := (Crowd.run Call.program Cache.lifecycle .fresh (moves ++ more)).calls
        calls.state.lifecycle.Precedes after.state.lifecycle ∧
          (calls.state.lifecycle.stage = .initialized →
            after.state.lifecycle.stage = .initialized)) ∧
      (calls.IsIdle → calls.state = inTurn sets ∧
        sets.Perm (calls.working.filterMap (·.1.bundles?)) ∧
        calls.state.lifecycle.updates = calls.working.length) := by
  refine ⟨fun sets => ⟨answers_inTurn sets, ?_, (inTurn_concat sets).1, (inTurn_concat sets).2,
    inTurn_precedes sets, ?_⟩, fun A moves hmoves => ?_⟩
  · obtain ⟨hx509, hjwt⟩ := isSome_serving sets
    rw [inTurn_eq_serving, serving_initialized_iff, hx509, hjwt]
  · rw [inTurn_eq_serving]
    rfl
  obtain ⟨ats, hplace⟩ := exists_inPlace hmoves
  refine ⟨hplace.answers, fun x509 jwt hx509 hjwt => ?_, fun happening hmem => ?_,
    fun more hmore => ?_, fun hidle => ?_⟩
  · exact hplace.initialized_of_mem (hplace.mem_of_through hx509) (hplace.mem_of_through hjwt)
  · obtain ⟨set, place, hcall, hafter⟩ := hplace.steps happening hmem
    obtain ⟨hjwt, hx509⟩ := Place.change_other happening.before place
    rw [hcall, hafter]
    cases set with
    | inl bundles => exact ⟨fun _ _ => hjwt bundles, nofun⟩
    | inr bundles => exact ⟨nofun, fun _ _ => hx509 bundles⟩
  · have hboth : .call .dispose ∉ moves ++ more := by
      rw [List.mem_append]
      exact not_or.mpr ⟨hmoves, hmore⟩
    obtain ⟨ats', hplace'⟩ := exists_inPlace hboth
    have hforward := Crowd.precedes heralds (s := .fresh) moves more
    refine ⟨hforward, fun hready => ?_⟩
    have hsome := hforward.ne_uninitialized (by rw [hready]; nofun)
    have hundisposed := hplace'.consistent.stage
    cases hnow : (Crowd.run Call.program Cache.lifecycle .fresh
      (moves ++ more)).calls.state.lifecycle.stage with
    | uninitialized => exact absurd hnow hsome
    | initialized => rfl
    | disposed => exact absurd hnow hundisposed
  · obtain ⟨hputs, hupdates⟩ := hplace.puts_of_isIdle hidle
    have hinstalled := hplace.serving_of_isIdle hidle
    have hworking := hplace.working
    rw [inTurn_eq_serving]
    refine ⟨hinstalled, ?_, ?_⟩
    · rw [hworking, left, List.filterMap_map]
      simpa [Function.comp_def, Call.bundles?_ofBundles] using hputs
    · rw [hupdates, hworking, left, List.length_map]

/-- Two installs side by side, until both slots are full. -/
def crossing : List (Move Call Cache Unit) :=
  [.call (.installX509 .empty), .call (.installJwt .empty), .work 0, .work 1, .work 1, .work 0]

/-- The rest of both installs. -/
def crossed : List (Move Call Cache Unit) :=
  [.work 1, .work 0, .work 1, .work 0, .work 1, .work 0, .work 0, .work 1, .work 1, .work 0]

/-- The source is not yet ready when both slots are full, but once both installs are
through. -/
theorem installs_serve_both_crossed :
    let full := (Crowd.run Call.program Cache.lifecycle .fresh crossing).calls
    let after := (Crowd.run Call.program Cache.lifecycle .fresh (crossing ++ crossed)).calls
    (full.state.x509.isSome ∧ full.state.jwt.isSome ∧
      x509Bundles full.state = .error .invalidState) ∧
    x509Bundles after.state = .ok .empty ∧ jwtBundles after.state = .ok .empty ∧
      after.state.lifecycle.updates = 2 := by
  intro full after
  have hfull : full.state.x509.isSome ∧ full.state.jwt.isSome ∧
      x509Bundles full.state = .error .invalidState := ⟨rfl, rfl, rfl⟩
  have hworking : after.working = [(.installX509 .empty, .done), (.installJwt .empty, .done)] := rfl
  have hstate : after.state = ⟨⟨.initialized, 2⟩, some .empty, some .empty⟩ := rfl
  have hmoves : .call .dispose ∉ crossing ++ crossed := by simp [crossing, crossed]
  obtain ⟨hanswers, hready, -, -, hidle⟩ := installs_serve_both.2 Unit _ hmoves
  have hinitialized : after.state.lifecycle.stage = .initialized := by
    refine hready .empty .empty ?_ ?_
    · exact hworking ▸ .head _
    · exact hworking ▸ .tail _ (.head _)
  obtain ⟨x509, jwt, -, -, hx509, hjwt⟩ := hanswers.ready hinitialized
  have hsome := (Lifecycle.read_eq_ok_iff.mp hx509).2
  have hsome' := (Lifecycle.read_eq_ok_iff.mp hjwt).2
  rw [show after.state = _ from hstate] at hsome hsome'
  obtain rfl := Option.some.inj hsome
  obtain rfl := Option.some.inj hsome'
  have hall : after.IsIdle := by
    intro call p hmem
    rw [hworking] at hmem
    rcases List.mem_pair.mp hmem with h | h
    · exact (Prod.mk.inj h).2
    · exact (Prod.mk.inj h).2
  exact ⟨hfull, hx509, hjwt, (hidle hall).2.2⟩

end BundlesSource
end WorkloadIdentity
