/-
# Keys are released exactly once

A step that takes a snapshot out of the slot leaves its call with a debt: the
identity that was held, unless an equal one is held now. The programs pay their
debts in the very next step (`Steps.Pays`), and release nothing else. So the
account balances whatever the others do in between, and whoever takes out what
somebody else has put in.

Key definitions: `X509Source.Cache.held`, `X509Source.taken`,
`X509Source.released`, `X509Source.debt`, `Steps.Pays`, `X509Source.Balanced`.
Key theorems: `X509Source.Balanced.step`, `X509Source.taken_perm`,
`X509Source.exists_released`, `X509Source.releases_once`.
-/
import Mathlib.Data.List.Basic
import WorkloadIdentity.Proofs.Source.Disposal

namespace WorkloadIdentity

namespace X509Source

/-! ### Debts -/

/-- The identity whose key is in use. -/
def Cache.held (c : Cache) : Option X509Svid := c.slot.bind (·.svid)

/-- The identity that is let go of from one state to the next: none if an equal
one is in its place. -/
def letGo (before after : Cache) : Option X509Svid :=
  if before.held = after.held then none else before.held

/-- The identity that an event says is released. -/
def released? : SourceEvent → Option X509Svid
  | .released svid => some svid
  | .log .. => none

/-- The identity that a step takes out. -/
def taken (h : Happening Call Cache SourceEvent) : Option X509Svid := letGo h.before h.after

/-- The identities that a step says are released. -/
def released (h : Happening Call Cache SourceEvent) : List X509Svid := h.told.filterMap released?

/-- What the last step of the call at a position has taken out; the history has
the last step first. -/
def debt (caller : Nat) : List (Happening Call Cache SourceEvent) → Option X509Svid
  | [] => none
  | h :: earlier => if h.caller = caller then taken h else debt caller earlier

theorem letGo_of_held {before after : Cache} (h : before.held = after.held) :
    letGo before after = none := if_pos h

theorem letGo_self (c : Cache) : letGo c c = none := letGo_of_held rfl

theorem letGo_eq_some {before after : Cache} {svid : X509Svid} :
    letGo before after = some svid ↔ before.held = some svid ∧ after.held ≠ some svid := by
  unfold letGo
  split
  · rename_i h
    rw [h]
    exact ⟨nofun, fun h => absurd h.1 h.2⟩
  · rename_i h
    exact ⟨fun hsome => ⟨hsome, fun hafter => h (hsome.trans hafter.symm)⟩, And.left⟩

end X509Source

open X509Source

/-! ### Programs -/

namespace Steps

/-- The first step of the program releases what is owed and nothing else, and every
further one what the step before it has taken out. -/
def Pays : Steps Cache SourceEvent → Option X509Svid → Prop
  | done, owed => owed = none
  | act tells change next, owed => ∀ c, (tells c).filterMap released? = owed.toList ∧
      (next c).Pays (letGo c (change c))

variable {p : Steps Cache SourceEvent} {next : Cache → Steps Cache SourceEvent} {f : Cache → Cache}

theorem Pays.done : Steps.done.Pays none := rfl

theorem Pays.look (h : ∀ c, (next c).Pays none) : (Steps.look next).Pays none :=
  fun c => ⟨rfl, letGo_self c ▸ h c⟩

theorem Pays.change (hf : ∀ c, c.held = (f c).held) (h : p.Pays none) :
    (Steps.change f p).Pays none :=
  fun c => ⟨rfl, (letGo_of_held (hf c)).symm ▸ h⟩

theorem Pays.tell {svid : X509Svid} (h : p.Pays none) :
    (Steps.tell (.released svid) p).Pays (some svid) :=
  fun c => ⟨rfl, letGo_self c ▸ h⟩

end Steps

namespace X509Source

theorem release_pays {next : Steps Cache SourceEvent} (h : next.Pays none) {before after : Cache}
    {current : Option X509Svid} (hafter : after.held = current) :
    (release before.slot current next).Pays (letGo before after) := by
  unfold release letGo
  subst hafter
  change Steps.Pays _ (if before.slot.bind (·.svid) = after.held then none
    else before.slot.bind (·.svid))
  cases before.slot.bind (·.svid) with
  | none => simpa using h
  | some svid =>
    by_cases hsame : some svid = after.held
    · rw [if_pos hsame, ← hsame]
      simpa using h
    · rw [if_neg hsame]
      simpa [Ne.symm hsame] using h.tell

theorem clear_pays : clear.Pays none := fun _ => ⟨rfl, release_pays .done rfl⟩

theorem announce_pays : announce.Pays none := by
  refine .change (fun _ => rfl) (.change (fun _ => rfl) (.look fun c => ?_))
  split
  · exact clear_pays
  · exact .done

theorem store_pays (snapshot : Snapshot) : (store snapshot).Pays none := by
  refine fun c => ⟨?_, release_pays announce_pays rfl⟩
  unfold told
  split <;> rfl

theorem program_pays (pick : Picker) : ∀ call, (Call.program pick call).Pays none
  | .install context => by
    refine .look fun c => ?_
    split
    · exact .done
    · exact store_pays _
  | .dispose => by
    refine fun c => ⟨?_, ?_⟩
    · dsimp only
      split <;> rfl
    · have hnone : letGo c { c with lifecycle := c.lifecycle.dispose } = none := letGo_of_held rfl
      dsimp only
      rw [hnone]
      split
      · exact .done
      · exact clear_pays

/-! ### The account -/

/-- Each happening leads to the state of the next, and the last one to this. -/
def Leads : List (Happening Call Cache SourceEvent) → Cache → Prop
  | [], _ => True
  | h :: earlier, c => h.after = c ∧ Leads earlier h.before

/-- Every call has released what it has taken out, but for what its next step
will. -/
structure Balanced (calls : Calls Call Cache SourceEvent) : Prop where
  pays : ∀ (i : Nat) (call : Call) (p : Steps Cache SourceEvent),
    calls.working[i]? = some (call, p) → p.Pays (debt i calls.history)
  paid : ∀ h earlier, h :: earlier <:+ calls.history →
    released h = (debt h.caller earlier).toList
  callers : ∀ h ∈ calls.history, h.caller < calls.working.length
  leads : Leads calls.history calls.state

theorem debt_eq_some {caller : Nat} {svid : X509Svid} :
    ∀ {history : List (Happening Call Cache SourceEvent)}, debt caller history = some svid →
      ∃ h ∈ history, h.caller = caller ∧ taken h = some svid
  | h :: earlier, hdebt => by
    unfold debt at hdebt
    split at hdebt
    · rename_i hcaller
      exact ⟨h, List.mem_cons_self, hcaller, hdebt⟩
    · obtain ⟨h', hmem, hh'⟩ := debt_eq_some hdebt
      exact ⟨h', .tail _ hmem, hh'⟩

namespace Balanced

variable {calls : Calls Call Cache SourceEvent}

theorem start : Balanced (.start .fresh) where
  pays _ _ _ := nofun
  paid _ _ h := by cases List.suffix_nil.mp h
  callers _ := nofun
  leads := trivial

/-- A call that has not begun owes nothing. -/
theorem debt_eq_none (h : Balanced calls) {i : Nat} (hi : calls.working.length ≤ i) :
    debt i calls.history = none := by
  rw [Option.eq_none_iff_forall_ne_some]
  intro svid hdebt
  obtain ⟨happening, hmem, rfl, -⟩ := debt_eq_some hdebt
  exact absurd (h.callers _ hmem) (Nat.not_lt.mpr hi)

theorem begin (h : Balanced calls) {call : Call} {program : Steps Cache SourceEvent}
    (hprogram : program.Pays none) : Balanced (calls.begin call program) where
  pays i call' p hi := by
    change (calls.working ++ [(call, program)])[i]? = some (call', p) at hi
    change p.Pays (debt i calls.history)
    rw [List.getElem?_append] at hi
    split at hi
    · exact h.pays i call' p hi
    · rename_i hlength
      obtain ⟨-, rfl⟩ := Prod.mk.inj (List.mem_singleton.mp (List.mem_of_getElem? hi))
      rwa [h.debt_eq_none (Nat.not_lt.mp hlength)]
  paid := h.paid
  callers happening hmem := by
    have hlt := h.callers happening hmem
    simp only [Calls.begin, List.length_append]
    omega
  leads := h.leads

theorem step (h : Balanced calls) {caller : Nat} {call : Call}
    {tells : Cache → List SourceEvent} {change : Cache → Cache}
    {next : Cache → Steps Cache SourceEvent}
    (hcaller : calls.working[caller]? = some (call, .act tells change next)) :
    Balanced (calls.step caller call tells change next) := by
  obtain ⟨htells, hnext⟩ := h.pays _ _ _ hcaller calls.state
  have hlength := (List.getElem?_eq_some_iff.mp hcaller).1
  refine ⟨fun i call' p hi => ?_, fun happening earlier hsuffix => ?_, fun happening hmem => ?_,
    rfl, h.leads⟩
  · change (calls.working.set caller (call, next calls.state))[i]? = some (call', p) at hi
    by_cases hic : caller = i
    · subst hic
      rw [List.getElem?_set_self hlength] at hi
      obtain ⟨-, rfl⟩ := Prod.mk.inj (Option.some.inj hi)
      rw [Calls.step, debt, if_pos rfl]
      exact hnext
    · rw [List.getElem?_set_ne hic] at hi
      rw [Calls.step, debt, if_neg hic]
      exact h.pays i call' p hi
  · rcases List.suffix_cons_iff.mp hsuffix with heq | hsuffix
    · obtain ⟨rfl, rfl⟩ := List.cons.inj heq
      exact htells
    · exact h.paid happening earlier hsuffix
  · simp only [Calls.step, List.length_set]
    rcases List.mem_cons.mp hmem with rfl | hmem
    · exact hlength
    · exact h.callers happening hmem

end Balanced

theorem balanced {A : Type} (pick : Picker) (moves : List (Move Call Cache A)) :
    Balanced (Crowd.run (Call.program pick) Cache.lifecycle .fresh moves).calls :=
  Crowd.calls_inv .start (fun _ call h => h.begin (program_pays pick call))
    (fun _ _ _ _ _ _ h hcaller => h.step hcaller) moves

/-! ### What follows from the balance -/

/-- A call that owes something is not over, and its next step releases it. -/
theorem Balanced.exists_next {calls : Calls Call Cache SourceEvent} (h : Balanced calls) {i : Nat}
    {svid : X509Svid} (hdebt : debt i calls.history = some svid) :
    ∃ call tells change next, calls.working[i]? = some (call, .act tells change next) ∧
      ∀ c, (tells c).filterMap released? = [svid] := by
  obtain ⟨happening, hmem, rfl, -⟩ := debt_eq_some hdebt
  have hlength := h.callers happening hmem
  obtain ⟨⟨call, p⟩, hworking⟩ :=
    Option.ne_none_iff_exists'.mp (mt List.getElem?_eq_none_iff.mp (Nat.not_le.mpr hlength))
  have hpays := h.pays _ _ _ hworking
  rw [hdebt] at hpays
  cases p with
  | done => cases hpays
  | act tells change next => exact ⟨call, tells, change, next, hworking, fun c => (hpays c).1⟩

theorem Balanced.debt_of_isIdle {calls : Calls Call Cache SourceEvent} (h : Balanced calls)
    (hidle : calls.IsIdle) (i : Nat) : debt i calls.history = none := by
  rw [Option.eq_none_iff_forall_ne_some]
  intro svid hdebt
  obtain ⟨call, tells, change, next, hworking, -⟩ := h.exists_next hdebt
  cases hidle _ _ (List.mem_of_getElem? hworking)

/-- What the calls before a position owe. -/
def owed (n : Nat) (history : List (Happening Call Cache SourceEvent)) : List X509Svid :=
  (List.range n).filterMap (debt · history)

/-- A step changes what its own call owes. -/
theorem owed_cons_perm {n : Nat} {h : Happening Call Cache SourceEvent}
    (earlier : List (Happening Call Cache SourceEvent)) (hcaller : h.caller < n) :
    (owed n (h :: earlier) ++ (debt h.caller earlier).toList).Perm
      ((taken h).toList ++ owed n earlier) := by
  obtain ⟨before, behind, hrange⟩ := List.append_of_mem (List.mem_range.mpr hcaller)
  have hnodup : (before ++ h.caller :: behind).Nodup := hrange ▸ List.nodup_range
  have hothers : ∀ l : List Nat, h.caller ∉ l →
      l.filterMap (debt · (h :: earlier)) = l.filterMap (debt · earlier) := by
    intro l hl
    refine List.filterMap_congr fun i hi => if_neg ?_
    rintro rfl
    exact hl hi
  have hself : debt h.caller (h :: earlier) = taken h := if_pos rfl
  obtain ⟨hbefore, hbehind⟩ : h.caller ∉ before ∧ h.caller ∉ behind := by
    rw [List.nodup_append] at hnodup
    obtain ⟨-, hbehind, hdisjoint⟩ := hnodup
    exact ⟨fun hmem => hdisjoint _ hmem _ List.mem_cons_self rfl, (List.nodup_cons.mp hbehind).1⟩
  have hsplit : ∀ history, owed n history =
      before.filterMap (debt · history) ++ (debt h.caller history).toList ++
        behind.filterMap (debt · history) := by
    intro history
    rw [owed, hrange, List.filterMap_append, List.filterMap_cons]
    cases debt h.caller history <;> simp
  rw [hsplit, hsplit, hothers before hbefore, hothers behind hbehind, hself]
  rw [List.perm_iff_count]
  intro svid
  simp only [List.count_append]
  omega

/-- What has been taken out has been released or is owed. -/
theorem taken_perm {n : Nat} : ∀ {history : List (Happening Call Cache SourceEvent)},
    (∀ h earlier, h :: earlier <:+ history → released h = (debt h.caller earlier).toList) →
    (∀ h ∈ history, h.caller < n) →
    (history.filterMap taken).Perm (owed n history ++ history.flatMap released)
  | [], _, _ => by simp [owed, debt]
  | h :: earlier, hpaid, hcallers => by
    have ih := taken_perm (n := n) (fun h' earlier' hsuffix =>
      hpaid h' earlier' (hsuffix.trans (List.suffix_cons _ _))) fun h' hmem =>
        hcallers h' (.tail _ hmem)
    have hcons := owed_cons_perm earlier (hcallers h List.mem_cons_self)
    rw [← hpaid h earlier (List.suffix_refl _)] at hcons
    have htaken : (h :: earlier).filterMap taken =
        (taken h).toList ++ earlier.filterMap taken := by
      rw [List.filterMap_cons]
      cases taken h <;> rfl
    rw [htaken, List.flatMap_cons, ← List.append_assoc]
    refine (ih.append_left _).trans ?_
    rw [← List.append_assoc]
    exact (hcons.symm.append_right _)

/-- An identity that was held and is held no more has been taken out. -/
theorem exists_taken {svid : X509Svid} {h : Happening Call Cache SourceEvent}
    {earlier : List (Happening Call Cache SourceEvent)} (hheld : h.after.held = some svid) :
    ∀ {later : List (Happening Call Cache SourceEvent)} {c : Cache},
      Leads (later ++ h :: earlier) c → c.held ≠ some svid →
      ∃ latest h' between, later = latest ++ h' :: between ∧ taken h' = some svid
  | [], c, hleads, hnot => absurd (hleads.1 ▸ hheld) hnot
  | h' :: later, c, ⟨hafter, hleads⟩, hnot => by
    by_cases hbefore : h'.before.held = some svid
    · exact ⟨[], h', later, rfl, letGo_eq_some.mpr ⟨hbefore, hafter ▸ hnot⟩⟩
    · obtain ⟨latest, h'', between, rfl, htaken⟩ := exists_taken hheld hleads hbefore
      exact ⟨h' :: latest, h'', between, rfl, htaken⟩

/-- What has been taken out is owed or has been released since. -/
theorem debt_or_released {svid : X509Svid} {h : Happening Call Cache SourceEvent}
    {earlier : List (Happening Call Cache SourceEvent)} (htaken : taken h = some svid) :
    ∀ {later : List (Happening Call Cache SourceEvent)},
      (∀ h' earlier', h' :: earlier' <:+ later ++ h :: earlier →
        released h' = (debt h'.caller earlier').toList) →
      debt h.caller (later ++ h :: earlier) = some svid ∨ ∃ h' ∈ later, svid ∈ released h'
  | [], _ => .inl ((if_pos rfl).trans htaken)
  | h' :: later, hpaid => by
    rcases debt_or_released htaken fun h'' earlier' hsuffix =>
      hpaid h'' earlier' (hsuffix.trans (List.suffix_cons _ _)) with hdebt | ⟨h'', hmem, hh''⟩
    · by_cases hcaller : h'.caller = h.caller
      · have hreleased := hpaid h' (later ++ h :: earlier) (List.suffix_refl _)
        rw [hcaller, hdebt] at hreleased
        exact .inr ⟨h', List.mem_cons_self, hreleased ▸ List.mem_singleton_self _⟩
      · exact .inl ((if_neg hcaller).trans hdebt)
    · exact .inr ⟨h'', .tail _ hmem, hh''⟩

/-- An identity that was held has been released since, if none is held and no call
is in progress. -/
theorem Balanced.exists_released {calls : Calls Call Cache SourceEvent} (h : Balanced calls)
    (hidle : calls.IsIdle) {later earlier : List (Happening Call Cache SourceEvent)}
    {happening : Happening Call Cache SourceEvent}
    (hhistory : calls.history = later ++ happening :: earlier) {svid : X509Svid}
    (hheld : happening.after.held = some svid) (hnot : calls.state.held ≠ some svid) :
    ∃ h' ∈ later, svid ∈ released h' := by
  have hleads := h.leads
  have hpaid := h.paid
  have hnone := h.debt_of_isIdle hidle
  rw [hhistory] at hleads hpaid hnone
  obtain ⟨latest, h', between, rfl, htaken⟩ := exists_taken hheld hleads hnot
  rw [List.append_assoc, List.cons_append] at hpaid hnone
  rcases debt_or_released htaken hpaid with hdebt | ⟨h'', hmem, hh''⟩
  · cases (hnone _).symm.trans hdebt
  · exact ⟨h'', List.mem_append_left _ hmem, hh''⟩

/-- **Keys are released exactly once.** Any number of installs, disposals and
getters may take their steps in any order. A step releases exactly what the step
before it of the same call took out, which is what was held before that step and no
equal of it after; a call that owes a release is not over, and makes it in its next
step. So whenever no call is in progress, what has been released is what has been
taken out, each as often as the other. What is released was held and taken out
earlier, and what was ever held is released later if the source is disposed of in
the end and no call is in progress. -/
theorem releases_once {A : Type} (pick : Picker) (moves : List (Move Call Cache A)) :
    let calls := (Crowd.run (Call.program pick) Cache.lifecycle .fresh moves).calls
    (∀ h earlier, h :: earlier <:+ calls.history →
      released h = (debt h.caller earlier).toList) ∧
    (∀ i svid, debt i calls.history = some svid →
      ∃ call tells change next, calls.working[i]? = some (call, .act tells change next) ∧
        ∀ c, (tells c).filterMap released? = [svid]) ∧
    (calls.IsIdle → (calls.history.filterMap taken).Perm (calls.history.flatMap released)) ∧
    (∀ h earlier svid, h :: earlier <:+ calls.history → svid ∈ released h →
      ∃ h' ∈ earlier, h'.caller = h.caller ∧ taken h' = some svid) ∧
    (Disposed Cache.lifecycle calls.state → calls.IsIdle →
      ∀ later h earlier svid, calls.history = later ++ h :: earlier →
        h.after.held = some svid → ∃ h' ∈ later, svid ∈ released h') := by
  intro calls
  have h : Balanced calls := balanced pick moves
  refine ⟨h.paid, fun i svid => h.exists_next, fun hidle => ?_,
    fun happening earlier svid hsuffix hmem => ?_,
    fun hgone hidle later happening earlier svid hhistory hheld => ?_⟩
  · have hperm := taken_perm h.paid h.callers
    have hnone : owed calls.working.length calls.history = [] :=
      List.filterMap_eq_nil_iff.mpr fun i _ => h.debt_of_isIdle hidle i
    rwa [hnone, List.nil_append] at hperm
  · rw [h.paid happening earlier hsuffix, Option.mem_toList] at hmem
    exact debt_eq_some hmem
  · have hfresh : ¬ Disposed Cache.lifecycle Cache.fresh := nofun
    have hempty : calls.state.slot = none :=
      (Crowd.orderly (disposable pick) hfresh moves).empties_of_isIdle hgone hidle ()
    refine h.exists_released hidle hhistory hheld ?_
    rw [Cache.held, hempty]
    nofun

/-- A disposal that comes between the steps of an install: the install takes its
own identity out again. -/
example (svid : X509Svid) (bundles : X509BundleSet) :
    let moves : List (Move Call Cache Unit) :=
      [.call (.install ⟨[svid], bundles⟩), .work 0, .call .dispose, .work 1, .work 1, .work 0,
        .work 0, .work 0, .work 0, .work 0, .work 0]
    let calls := (Crowd.run (Call.program .first) Cache.lifecycle .fresh moves).calls
    calls.history.flatMap released = [svid] ∧ calls.state.slot.isNone = true := by
  cbv

end X509Source
end WorkloadIdentity
