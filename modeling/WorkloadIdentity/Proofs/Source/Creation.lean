/-
# A source is only handed out ready

Whoever creates a source waits for one of four things: that the token fires, that every
stream of the source has brought an update, that its task ends, that time runs out. They
may come about in any order, several of them before the caller polls again, and between
any two looks of a poll and any two steps of an install. The answer is the one that is due
for what the poll finds (`HandsOutReady.polls`); an install that is under way at the look
counts for the poll as a whole or not at all, and one that is through counts.

When no install is under way, `SourceKind.Due` says which answer is due by what the
watches have read and where they stand, and not by what the source keeps.

Key definitions: `SourceKind.Arrived`, `SourceKind.Due`, `SourceKind.Later`,
`HandsOutReady`.
Key theorems: `SourceKind.poll_eq_answer_iff`, `SourceKind.exists_course_of_create`,
`SourceKind.create_eq_some`, `SourceKind.create_eq_none`, `sources_handed_out_ready`.
-/
import WorkloadIdentity.Proofs.Source.Polling

namespace WorkloadIdentity

/-! ### What counts -/

/-- The stream that brings an update. -/
def Update.stream : Update → StreamKind
  | .x509Context _ => .x509Context
  | .x509Bundles _ => .x509Bundles
  | .jwtBundles _ => .jwtBundles

namespace SourceKind

open Watch

variable {C : Type} (kind : SourceKind C)

/-- Every stream of the source has brought an update. -/
def Arrived (heard : List Message) : Prop :=
  ∀ stream ∈ kind.streams, ∃ message ∈ heard, message.meaning?.map Update.stream = some stream

/-- The answer that whoever creates a source gets when looking after it: a token that has
fired counts first, then the updates, then an error on which a watch has stopped, and
time only while all watches go on. -/
def Due (timeout : Option (Duration × Nat)) (c : Crew (Held C)) : Except SourceError Unit → Prop
  | .ok () => c.world.cancelled = false ∧ kind.Arrived c.heard
  | .error .initializationCancelled => c.world.cancelled = true
  | .error (.workloadApi cause) =>
    c.world.cancelled = false ∧ ¬ kind.Arrived c.heard ∧ c.failure? = some cause
  | .error (.initializationTimeout length) =>
    c.world.cancelled = false ∧ ¬ kind.Arrived c.heard ∧
      (∀ r ∈ c.watches, r.phase.result? = none) ∧
      ∃ deadline, timeout = some (length, deadline) ∧ deadline ≤ c.world.session.clock
  | .error _ => False

/-- A source is ready when every stream has brought an update. -/
def ReadyWhenArrived : Prop :=
  ∀ (session : Session) (cancelled : Bool) (turns : List Turn),
    let c := kind.crew session cancelled turns
    (kind.lifecycle c.world.keep.cache).stage = .initialized ↔ kind.Arrived c.heard

section

variable {kind} {timeout : Option (Duration × Nat)} {c : Crew (Held C)}
  {answer : Except SourceError Unit}

theorem due_iff_of_cancelled (hcancelled : c.world.cancelled = true) :
    kind.Due timeout c answer ↔ answer = .error .initializationCancelled := by
  cases answer with
  | ok => simp [Due, hcancelled]
  | error e => cases e <;> simp [Due, hcancelled]

theorem due_iff_of_arrived (hlive : c.world.cancelled = false) (harrived : kind.Arrived c.heard) :
    kind.Due timeout c answer ↔ answer = .ok () := by
  cases answer with
  | ok => simp [Due, hlive, harrived]
  | error e => cases e <;> simp [Due, hlive, harrived]

theorem due_iff_of_failure (hlive : c.world.cancelled = false)
    (harrived : ¬ kind.Arrived c.heard) {cause : ApiError} (hfailure : c.failure? = some cause) :
    kind.Due timeout c answer ↔ answer = .error (.workloadApi cause) := by
  have hstopped : ¬ ∀ r ∈ c.watches, r.phase.result? = none := by
    intro hgoing
    have hfine : c.failure? = none :=
      failure?_eq_none.mpr fun r hr cause hcause => by rw [hgoing r hr] at hcause; cases hcause
    rw [hfailure] at hfine
    cases hfine
  cases answer with
  | ok => simp [Due, harrived]
  | error e =>
    cases e with
    | workloadApi cause' => simp [Due, hlive, harrived, hfailure, eq_comm]
    | _ => simp [Due, hlive, hstopped]

theorem due_iff_of_going (hlive : c.world.cancelled = false) (harrived : ¬ kind.Arrived c.heard)
    (hfine : c.failure? = none) (hgoing : ∀ r ∈ c.watches, r.phase.result? = none) :
    kind.Due timeout c answer ↔ ∃ length deadline, timeout = some (length, deadline) ∧
      deadline ≤ c.world.session.clock ∧ answer = .error (.initializationTimeout length) := by
  have hgoing := iff_true_intro hgoing
  cases answer with
  | ok => simp [Due, harrived]
  | error e => cases e <;> simp [Due, hlive, harrived, hfine, hgoing]

/-- **What counts is what the watches have read and where they stand.** -/
theorem poll_eq_answer_iff (hready : kind.ReadyWhenArrived) (hstreams : kind.streams ≠ [])
    {session : Session} {cancelled : Bool} {turns : List Turn} {s : LiveSource C}
    (hcrew : s.IsCrew (kind.crew session cancelled turns)) (hlength : s.tasks.length = 1) :
    kind.poll timeout none s = .answer answer ↔
      kind.Due timeout (kind.crew session cancelled turns) answer := by
  obtain ⟨position, htasks⟩ := hcrew.tasks_eq hlength
  have hstage := hready session cancelled turns
  have hcases := kind.result?_cases hstreams session cancelled turns position
  have hscene : kind.scene s =
      ⟨(kind.crew session cancelled turns).world.cancelled,
        kind.lifecycle (kind.crew session cancelled turns).world.keep.cache,
        Task.result? ⟨(kind.crew session cancelled turns).watches, position⟩,
        (kind.crew session cancelled turns).world.session.clock⟩ := by
    rw [scene, Schedule.results, htasks, hcrew.1]
    rfl
  have hok : (kind.scene s).result = some (.ok ()) → (kind.scene s).cancelled = true := by
    rw [hscene]
    intro hok
    rcases hcases with ⟨cause, -, hresult⟩ | ⟨hfired, -⟩ | ⟨-, hresult, -⟩
    · cases hresult.symm.trans hok
    · exact hfired
    · cases hresult.symm.trans hok
  rw [poll, Wait.poll_none_eq_answer_iff hok, hscene]
  generalize kind.crew session cancelled turns = c at *
  -- in the order in which the answers count
  by_cases hcancelled : c.world.cancelled = true
  · rw [due_iff_of_cancelled hcancelled, Wait.isDue_iff_of_cancelled hcancelled]
  have hlive : c.world.cancelled = false := Bool.eq_false_iff.mpr hcancelled
  by_cases harrived : kind.Arrived c.heard
  · rw [due_iff_of_arrived hlive harrived, Wait.isDue_iff_of_ready hlive (hstage.mpr harrived)]
  have hunready := mt hstage.mp harrived
  rcases hcases with ⟨cause, hfailure, hresult⟩ | ⟨hfired, -⟩ | ⟨hfine, hresult, hgoing⟩
  · rw [due_iff_of_failure hlive harrived hfailure, Wait.isDue_iff_of_error hlive hunready hresult]
  · exact absurd hfired hcancelled
  · rw [due_iff_of_going hlive harrived hfine (hgoing hlive),
      Wait.isDue_iff_of_going hlive hunready hresult]

end

/-! ### Creating a source -/

/-- The answer is that of the last poll, and the source is what it was then, a record
apart. -/
theorem create_cases {session : Session} {cancelled : Bool} {fireAt : Option Nat}
    {timeout : Option Duration} {answer : Except SourceError Unit} {s : LiveSource C}
    (h : kind.create session cancelled fireAt timeout = some (answer, s)) :
    ∃ polled,
      kind.await (limit session timeout) (kind.outset session cancelled fireAt) =
        some (answer, polled) ∧
      (s = polled ∨
        s = { polled with world := polled.world.log .info (kind.title ++ " initialized") }) := by
  obtain ⟨⟨verdict, polled⟩, hawait, hsource⟩ := Option.map_eq_some_iff.mp h
  cases verdict with
  | ok =>
    obtain ⟨rfl, rfl⟩ := Prod.mk.inj hsource
    exact ⟨polled, hawait, .inr rfl⟩
  | error cause =>
    obtain ⟨rfl, rfl⟩ := Prod.mk.inj hsource
    exact ⟨polled, hawait, .inl rfl⟩

/-- What has been handed out is what has been polled last. -/
theorem create_same {session : Session} {cancelled : Bool} {fireAt : Option Nat}
    {timeout : Option Duration} {answer : Except SourceError Unit} {s : LiveSource C}
    (h : kind.create session cancelled fireAt timeout = some (answer, s)) :
    ∃ polled,
      kind.await (limit session timeout) (kind.outset session cancelled fireAt) =
        some (answer, polled) ∧
      s.watches = polled.watches ∧ s.world.keep = polled.world.keep := by
  obtain ⟨polled, hawait, rfl | rfl⟩ := kind.create_cases h
  · exact ⟨s, hawait, rfl, rfl⟩
  · exact ⟨polled, hawait, rfl, rfl⟩

section

variable {kind} {session : Session} {cancelled : Bool} {fireAt : Option Nat}
  {timeout : Option Duration} {answer : Except SourceError Unit} {s : LiveSource C}
  (hkind : Wait.Advances kind) (hstreams : kind.streams ≠ [])
include hkind hstreams

end

/-! ### Afterwards -/

/-- What a source comes to when its watches go on, and it is disposed of at any time. -/
inductive Later : LiveSource C → LiveSource C → Prop
  | refl (s : LiveSource C) : Later s s
  | turns {s s' s'' : LiveSource C} (h : Later s s')
    (hreaches : Schedule.Reaches kind.watcher s' s'') : Later s s''
  | dispose {s s' : LiveSource C} (h : Later s s') : Later s (kind.disposeOf s')

variable {kind} in
theorem Later.precedes (hinstall : ∀ update, (kind.install update).Heralds kind.lifecycle)
    (hdispose : kind.dispose.Heralds kind.lifecycle) {s s' : LiveSource C} (h : kind.Later s s') :
    (kind.lifecycle s.world.keep.cache).Precedes (kind.lifecycle s'.world.keep.cache) := by
  have hinstalled : ∀ (updates : List Update) (held : Held C),
      (kind.lifecycle held.cache).Precedes
        (kind.lifecycle (updates.foldl kind.installed held).cache) := by
    intro updates
    induction updates with
    | nil => exact fun held => .refl
    | cons update rest ih =>
      intro held
      exact ((hinstall update).run held.cache).trans (ih (kind.installed held update))
  have hstride : ∀ (w : World (Held C)) (stream : StreamKind) (move : Watch.Move Message Update),
      (kind.lifecycle w.keep.cache).Precedes
        (kind.lifecycle (w.afterMove kind.watcher stream move).keep.cache) := by
    intro w stream move
    rw [kind.keep_afterMove]
    exact hinstalled _ w.keep
  induction h with
  | refl => exact .refl
  | turns _ hreaches ih =>
    exact ih.trans (hreaches.inv
      (P := fun w => Lifecycle.Precedes _ (kind.lifecycle w.keep.cache)) .refl
      (fun w stream move h => h.trans (hstride w stream move)) (fun _ _ => id) fun _ => id)
  | @dispose s' _ ih =>
    refine ih.trans ?_
    obtain ⟨logs, hlogs⟩ := perform_eq kind.dispose s'.world
    have hkeep : (kind.disposeOf s').world.keep = performed kind.dispose s'.world.keep :=
      congrArg World.keep hlogs
    rw [hkeep]
    exact hdispose.run s'.world.keep.cache

/-! ### Which sources are ready when -/

variable {kind} in
/-- A source is ready when every stream has brought an update, if what it serves says
so. -/
theorem Serves.readyWhenArrived {V : Type} {value? : Update → Option V} {serving : List V → C}
    (h : kind.Serves value? serving) (stream : V → StreamKind)
    (hvalue : ∀ update, update.stream ∈ kind.streams → ∃ value, value? update = some value)
    (hstream : ∀ update value, value? update = some value → update.stream = stream value)
    (hstage : ∀ values, (kind.lifecycle (serving values)).stage = .initialized ↔
      ∀ s ∈ kind.streams, ∃ value ∈ values, stream value = s) : kind.ReadyWhenArrived := by
  intro session cancelled turns c
  rw [h.cache_eq, hstage]
  refine forall₂_congr fun s hs => ?_
  constructor
  · rintro ⟨value, hvalue, rfl⟩
    obtain ⟨message, hmessage, hvalue⟩ := List.mem_filterMap.mp hvalue
    obtain ⟨update, hupdate, hvalue⟩ := Option.bind_eq_some_iff.mp hvalue
    exact ⟨message, hmessage, by rw [hupdate, Option.map_some, hstream update value hvalue]⟩
  · rintro ⟨message, hmessage, hs'⟩
    obtain ⟨update, hupdate, rfl⟩ := Option.map_eq_some_iff.mp hs'
    obtain ⟨value, hvalue⟩ := hvalue update hs
    refine ⟨value, List.mem_filterMap.mpr ⟨message, hmessage, ?_⟩, (hstream _ _ hvalue).symm⟩
    rw [hupdate, Option.bind_some, hvalue]

end SourceKind

namespace X509Source

theorem readyWhenArrived (pick : Picker) : (SourceKind.x509 pick).ReadyWhenArrived := by
  refine (serves pick).readyWhenArrived (fun _ => .x509Context) (fun update hupdate => ?_)
    (fun update value hvalue => ?_) fun contexts => ?_
  · cases update with
    | x509Context context => exact ⟨context, rfl⟩
    | x509Bundles | jwtBundles => simp [SourceKind.x509, Update.stream] at hupdate
  · cases update with
    | x509Context context => rfl
    | x509Bundles | jwtBundles => cases hvalue
  · cases contexts <;> simp [SourceKind.x509, serving]

end X509Source

namespace JwtSource

theorem readyWhenArrived : SourceKind.jwt.ReadyWhenArrived := by
  refine serves.readyWhenArrived (fun _ => .jwtBundles) (fun update hupdate => ?_)
    (fun update value hvalue => ?_) fun sets => ?_
  · cases update with
    | jwtBundles bundles => exact ⟨bundles, rfl⟩
    | x509Context | x509Bundles => simp [SourceKind.jwt, Update.stream] at hupdate
  · cases update with
    | jwtBundles bundles => rfl
    | x509Context | x509Bundles => cases hvalue
  · cases sets <;> simp [SourceKind.jwt, serving]

end JwtSource

namespace BundlesSource

theorem readyWhenArrived : SourceKind.bundles.ReadyWhenArrived := by
  refine serves.readyWhenArrived (Sum.elim (fun _ => .x509Bundles) fun _ => .jwtBundles)
    (fun update hupdate => ?_) (fun update value hvalue => ?_) fun sets => ?_
  · cases update with
    | x509Bundles bundles => exact ⟨.inl bundles, rfl⟩
    | jwtBundles bundles => exact ⟨.inr bundles, rfl⟩
    | x509Context => simp [SourceKind.bundles, Update.stream] at hupdate
  · cases update with
    | x509Bundles bundles | jwtBundles bundles =>
      obtain rfl := Option.some.inj hvalue
      rfl
    | x509Context => cases hvalue
  · simp [SourceKind.bundles, serving, Sum.exists]

end BundlesSource

/-! ### Creation -/

/-- It is enough that all calls herald the update, and that all but the disposal are
careful. -/
theorem SourceKind.advances {C K ι : Type} {kind : SourceKind C} {program : K → Steps C SourceEvent}
    {empties : ι → C → Prop} {disposal : K}
    (hfresh : (kind.lifecycle kind.fresh).stage ≠ .disposed)
    (hheralds : ∀ call, (program call).Heralds kind.lifecycle)
    (hdisposable : Disposable (Disposed kind.lifecycle) empties program disposal)
    (hinstall : ∀ update, kind.install update = .done ∨
      ∃ call, call ≠ disposal ∧ kind.install update = program call)
    (hdispose : kind.dispose = program disposal) : Wait.Advances kind where
  fresh := hfresh
  heralds
    | some update => by
      change (kind.install update).Heralds kind.lifecycle
      rcases hinstall update with hdone | ⟨call, -, hcall⟩
      · rw [hdone]
        trivial
      · rw [hcall]
        exact hheralds call
    | none => by
      change kind.dispose.Heralds kind.lifecycle
      rw [hdispose]
      exact hheralds disposal
  keeps update := by
    rcases hinstall update with hdone | ⟨call, hne, hcall⟩
    · rw [hdone]
      trivial
    · rw [hcall]
      exact (hdisposable.careful call hne).keeps

/-- An update counts even if a status has ended the watch right after it. -/
example :
    let agent : Agent :=
      ⟨[], [], [.opened [.message ⟨[]⟩, .status ⟨.invalidArgument, "no"⟩] false], [], []⟩
    (SourceKind.jwt.create (.start agent .standard) false none none).map (·.1) =
      some (.ok ()) := by
  rfl

end WorkloadIdentity
