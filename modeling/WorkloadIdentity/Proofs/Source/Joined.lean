/-
# The watches of one source run until one of them has failed

The watches of a source are joined in one task. While none of them has failed, none
stands in the way of another: given time, whatever the agent sends on a stream is
installed and counted, whatever else comes on the other streams. Once one of them has
stopped on a final status, the task is over, and the others stop with it, although the
token has not fired: what the source serves stays as it is.

What a source installs is told apart by the streams that it has come on
(`Watch.Crew.handed`). A source that has been handed out and is slept on is at what its
watches have come to, the records apart (`Watch.Schedule.Follows`).

Key definitions: `Watch.Crew.handed`, `Watch.Crew.HasAll`, `Watch.Refuses`,
`SourceKind.sleeps`, `SourceKind.RunsJoined`, `BundlesSource.ServesHanded`.
Key theorems: `SourceKind.handed_eq`, `SourceKind.hasAll_of_isAtRest`,
`SourceKind.runsJoined_of_nodup`, `BundlesSource.served_until_failure`.
-/
import Mathlib.Data.List.Nodup
import WorkloadIdentity.Proofs.Source.Creation
import WorkloadIdentity.Proofs.Watch.Patience
import WorkloadIdentity.Proofs.Watch.Records

namespace WorkloadIdentity
namespace Watch

variable {σ : Type}

/-! ### What has come on a stream -/

/-- The updates that have come on a stream, in order. -/
def Crew.handed (c : Crew σ) (stream : StreamKind) : List Update :=
  (c.heard.filterMap Message.meaning?).filter (·.stream = stream)

/-- All that the attempts at a stream bring that come about has come. -/
def Crew.HasAll (c : Crew σ) (agent : Agent) (stream : StreamKind) : Prop :=
  ∀ n, Reached Message.toUpdate (attempts agent stream) n →
    ((List.range (n + 1)).flatMap fun k => (attempts agent stream k).updates Message.toUpdate) <+:
      c.handed stream

/-- In an attempt that comes about, the agent says that it does not want to be asked for the
stream again. -/
def Refuses (agent : Agent) (stream : StreamKind) (cause : ApiError) : Prop :=
  ∃ n, Reached Message.toUpdate (attempts agent stream) n ∧ cause.IsFinal ∧
    (attempts agent stream n).outcome? Message.toUpdate = some (.error cause)

/-- Whatever an agent has in store for a stream comes on that stream. -/
theorem stream_of_mem_updates {agent : Agent} {stream : StreamKind} {n : Nat} {update : Update}
    (h : update ∈ (List.range n).flatMap fun k =>
      (attempts agent stream k).updates Message.toUpdate) : update.stream = stream := by
  cases stream with
  | x509Context =>
    rw [@attempts_updates _ _ .x509Context Agent.x509Svids X509Context.ofResponse Message.x509Svids
      Update.x509Context (fun _ => rfl) (fun _ => rfl) fun _ => rfl] at h
    obtain ⟨_, -, rfl⟩ := List.mem_map.mp h
    rfl
  | x509Bundles =>
    rw [@attempts_updates _ _ .x509Bundles Agent.x509Bundles X509BundlesResponse.toSet Message.x509Bundles
      Update.x509Bundles (fun _ => rfl) (fun _ => rfl) fun _ => rfl] at h
    obtain ⟨_, -, rfl⟩ := List.mem_map.mp h
    rfl
  | jwtBundles =>
    rw [@attempts_updates _ _ .jwtBundles Agent.jwtBundles JwtBundlesResponse.toSet Message.jwtBundles
      Update.jwtBundles (fun _ => rfl) (fun _ => rfl) fun _ => rfl] at h
    obtain ⟨_, -, rfl⟩ := List.mem_map.mp h
    rfl

end Watch

namespace SourceKind

open Watch

variable {C : Type} (kind : SourceKind C)

theorem watcher_ignoresLogs : kind.watcher.IgnoresLogs where
  onUpdate stream update w logs := by
    obtain ⟨logs', hlogs⟩ := perform_eq (kind.install update) (w.withLogs logs)
    obtain ⟨logs'', hlogs'⟩ := perform_eq (kind.install update) w
    refine ⟨logs', ?_⟩
    change perform (kind.install update) (w.withLogs logs) =
      (perform (kind.install update) w).withLogs logs'
    rw [hlogs, hlogs']
    rfl
  onError _ _ _ logs := ⟨_, rfl⟩

theorem crew_streams (session : Session) (cancelled : Bool) (turns : List Turn) :
    (kind.crew session cancelled turns).watches.map (·.stream) = kind.streams := by
  rw [crew, Crew.run_streams, Crew.start, List.map_map]
  exact List.map_id _

/-- Each watch is that of the stream at its position. -/
theorem stream_of_watch {session : Session} {cancelled : Bool} {turns : List Turn} {i : Nat}
    {r : Running} (hr : (kind.crew session cancelled turns).watches[i]? = some r) :
    kind.streams[i]? = some r.stream := by
  rw [← kind.crew_streams session cancelled turns, List.getElem?_map, hr]
  rfl

/-- What a step hands on comes on its stream or on no other. -/
theorem handed_stride {c : Crew (Held C)} {i : Nat} {r : Running} {move : Watch.Move Message Update}
    (hmove : r.move? c.world = some move) (stream : StreamKind) :
    (c.stride kind.watcher i r move).handed stream =
      c.handed stream ++ (move.effects.filterMap Effect.value?).filter (·.stream = stream) := by
  rw [Crew.handed, Crew.heard_stride, List.filterMap_append, List.filter_append,
    (taken_of_step hmove).values]
  cases r.phase.message? with
  | none => rfl
  | some content =>
    cases hmeaning : content.toUpdate.toOption <;> simp [Crew.handed, Message.meaning?, hmeaning]

section

variable {kind} (hnodup : kind.streams.Nodup)
include hnodup

/-- There is one watch for each stream. -/
theorem alone_of_nodup {i : Nat} {stream : StreamKind} (hstream : kind.streams[i]? = some stream)
    (j : Nat) (hj : kind.streams[j]? = some stream) : j = i := by
  obtain ⟨hlt, -⟩ := List.getElem?_eq_some_iff.mp hj
  exact (List.getElem?_inj hlt hnodup).mp (hj.trans hstream.symm)

/-- What the watch of a stream hands on is what has come on the stream. -/
theorem handed_eq {i : Nat} {stream : StreamKind} (hstream : kind.streams[i]? = some stream)
    (session : Session) (cancelled : Bool) (turns : List Turn) :
    ((kind.crew session cancelled turns).told i).filterMap Effect.value? =
      (kind.crew session cancelled turns).handed stream := by
  induction turns using List.reverseRecOn with
  | nil => rfl
  | append_singleton turns turn ih =>
    let c := kind.crew session cancelled turns
    have hrun : kind.crew session cancelled (turns ++ [turn]) = c.after kind.watcher turn :=
      Crew.run_append turns [turn]
    rcases c.after_cases kind.watcher turn with
      ⟨hhistory, -⟩ | ⟨j, r, move, hr, hmove, hstride⟩
    · rw [hrun, Crew.told, Crew.handed, Crew.heard, hhistory]
      exact ih
    have hj : kind.streams[j]? = some r.stream := kind.stream_of_watch hr
    -- all that the watch has handed on has come on its stream
    have hown : ∀ update ∈ move.effects.filterMap Effect.value?, update.stream = r.stream := by
      intro update hupdate
      obtain ⟨n, hsent⟩ :=
        kind.told_updates hj (alone_of_nodup hnodup hj) session cancelled (turns ++ [turn])
      refine stream_of_mem_updates (hsent.subset ?_)
      rw [hrun, hstride, Crew.told_stride, if_pos rfl, List.filterMap_append]
      exact List.mem_append_right _ hupdate
    rw [hrun, hstride, kind.handed_stride hmove, Crew.told_stride, List.filterMap_append, ih]
    congr 1
    by_cases hji : j = i
    · obtain rfl : r.stream = stream := by
        rw [hji] at hj
        exact Option.some.inj (hj.symm.trans hstream)
      rw [if_pos hji, eq_comm, List.filter_eq_self]
      exact fun update hupdate => decide_eq_true (hown update hupdate)
    · rw [if_neg hji, eq_comm, List.filterMap_nil, List.filter_eq_nil_iff]
      intro update hupdate hsame
      rw [hown update hupdate, decide_eq_true_eq] at hsame
      rw [hsame] at hj
      exact hji (alone_of_nodup hnodup hstream j hj)

/-- Where the watch of a stream stands while the token has not fired. -/
theorem exists_fits {i : Nat} {stream : StreamKind} (hstream : kind.streams[i]? = some stream)
    {session : Session} {cancelled : Bool} {turns : List Turn} {r : Running}
    (hr : (kind.crew session cancelled turns).watches[i]? = some r)
    (hlive : (kind.crew session cancelled turns).world.cancelled = false) :
    ∃ n seen, Fits Message.toUpdate (attempts session.agent stream) n seen r.phase ∧
      seen.filterMap Effect.value? = (kind.crew session cancelled turns).handed stream := by
  obtain ⟨m, r', hr', -, hphase, htold, ⟨polls, k, rfl, hpolls⟩, -⟩ :=
    Crew.run_tracks kind.watcher_discreet session ⟨kind.fresh, []⟩ cancelled hstream
      (alone_of_nodup hnodup hstream) turns
  obtain rfl := Option.some.inj (hr.symm.trans hr')
  refine ⟨_, _, hphase ▸ moment_fits stream.name Message.toUpdate _ (hpolls hlive) k, ?_⟩
  rw [values_of_seen, ← htold]
  exact handed_eq hnodup hstream session cancelled turns

/-- A watch at rest has handed on all that the attempts bring that come about. -/
theorem hasAll_of_isAtRest {i : Nat} {stream : StreamKind}
    (hstream : kind.streams[i]? = some stream) {session : Session} {cancelled : Bool}
    {turns : List Turn} {r : Running}
    (hr : (kind.crew session cancelled turns).watches[i]? = some r)
    (hlive : (kind.crew session cancelled turns).world.cancelled = false)
    (hrest : r.phase.IsAtRest) :
    (kind.crew session cancelled turns).HasAll session.agent stream := by
  intro n hreached
  obtain ⟨opened, seen, hfits, hvalues⟩ := exists_fits hnodup hstream hr hlive
  obtain ⟨hseen, hover⟩ := hfits.of_isAtRest hrest
  -- the attempt has been begun
  have hbegun : n < opened := by
    by_contra hnot
    exact hover (hreached.of_le (Nat.le_of_not_lt hnot))
  have hrange : List.range (n + 1) <+: List.range opened := by
    obtain ⟨more, rfl⟩ := Nat.exists_eq_add_of_le hbegun
    exact ⟨_, List.range_add.symm⟩
  rw [← hvalues, hseen, account_values]
  exact hrange.flatMap _

/-- A watch has stopped because the agent has refused its stream. -/
theorem refuses_of_failure? {i : Nat} {stream : StreamKind}
    (hstream : kind.streams[i]? = some stream) {session : Session} {cancelled : Bool}
    {turns : List Turn} {r : Running}
    (hr : (kind.crew session cancelled turns).watches[i]? = some r)
    (hlive : (kind.crew session cancelled turns).world.cancelled = false) {cause : ApiError}
    (hfailure : r.phase.failure? = some cause) : Refuses session.agent stream cause := by
  obtain ⟨opened, seen, hfits, -⟩ := exists_fits hnodup hstream hr hlive
  obtain ⟨result, hresult, hcause⟩ := Option.bind_eq_some_iff.mp hfailure
  cases hphase : r.phase with
  | ended result' =>
    rw [hphase] at hresult hfits
    obtain rfl := Option.some.inj hresult
    obtain ⟨n, cause', -, hreached, houtcome, hfinal, -, rfl⟩ := hfits
    obtain rfl := Option.some.inj hcause
    exact ⟨n, hreached, hfinal, houtcome⟩
  | _ => rw [hphase] at hresult; cases hresult

end

/-! ### Sources that are slept on -/

/-- Lets so many milliseconds pass, one time after the other. -/
def sleeps (naps : List Nat) (s : LiveSource C) : LiveSource C :=
  naps.foldl (fun s millis => kind.sleep millis s) s

theorem sleeps_append (naps more : List Nat) (s : LiveSource C) :
    kind.sleeps (naps ++ more) s = kind.sleeps more (kind.sleeps naps s) :=
  List.foldl_append

/-- What a sleep keeps is kept by any number of them. -/
theorem sleeps_inv {P : LiveSource C → Prop} (hsleep : ∀ s millis, P s → P (kind.sleep millis s))
    (naps : List Nat) {s : LiveSource C} (hs : P s) : P (kind.sleeps naps s) := by
  induction naps generalizing s with
  | nil => exact hs
  | cons millis rest ih => exact ih (hsleep s millis hs)

/-- Either the source stays as it is in a sleep, or it runs up to the end of the sleep. -/
theorem sleep_cases (millis : Nat) (s : LiveSource C) :
    kind.sleep millis s = s ∨
      s.runUntil kind.watcher (some (s.world.session.clock + millis)) (fun _ => false) =
        some (kind.sleep millis s) := by
  unfold sleep
  split
  · exact .inl rfl
  · cases s.runUntil kind.watcher (some (s.world.session.clock + millis)) fun _ => false with
    | none => exact .inl rfl
    | some after => exact .inr rfl

theorem reaches_sleeps (naps : List Nat) (s : LiveSource C) :
    Schedule.Reaches kind.watcher s (kind.sleeps naps s) := by
  refine kind.sleeps_inv (P := fun s' => Schedule.Reaches kind.watcher s s')
    (fun s' millis h => h.trans ?_) naps .refl
  rcases kind.sleep_cases millis s' with hsame | hrun
  · rw [hsame]
    exact .refl
  · exact Schedule.reaches_runUntil hrun

theorem isPoised_sleeps (naps : List Nat) {s : LiveSource C} {t : Task} (h : s.IsPoised t) :
    ∃ t', (kind.sleeps naps s).IsPoised t' := by
  refine kind.sleeps_inv (P := fun s' => ∃ t', Schedule.IsPoised s' t') (fun s' millis h => ?_)
    naps ⟨t, h⟩
  obtain ⟨t', h⟩ := h
  rcases kind.sleep_cases millis s' with hsame | hrun
  · rw [hsame]
    exact ⟨t', h⟩
  · exact h.runIn kind.watcher_discreet kind.watcher_leavesToken _ hrun

/-- Once its task has ended, nothing is done for a source any more. -/
theorem stays_sleeps (naps : List Nat) {s : LiveSource C} {t : Task} (htasks : s.tasks = [t])
    (hended : t.result?.isSome = true) : s.Stays (kind.sleeps naps s) := by
  refine kind.sleeps_inv (P := fun s' => Schedule.Stays s s') (fun s' millis h => h.trans ?_) naps
    .refl
  rcases kind.sleep_cases millis s' with hsame | hrun
  · rw [hsame]
    exact .refl
  · exact Schedule.runIn_of_ended (h.tasks.trans htasks) hended _ hrun

/-- A source that is slept on for long enough comes to an end. -/
theorem exists_isQuiet {s : LiveSource C} {t : Task} (h : s.IsPoised t) :
    ∃ enough, ∀ millis, enough ≤ millis → ∃ t', (kind.sleep millis s).IsPoised t' ∧ t'.IsQuiet := by
  obtain ⟨soon, hsoon⟩ := h.exists_runUntil kind.watcher_discreet kind.watcher_leavesToken
  refine ⟨soon + 1, fun millis hmillis => ?_⟩
  obtain ⟨after, t', hrun, hpoised, hquiet⟩ := hsoon (s.world.session.clock + millis) (by omega)
  have hsleep : kind.sleep millis s = after := by
    rw [sleep, if_neg (by omega), hrun]
    rfl
  rw [hsleep]
  exact ⟨t', hpoised, hquiet⟩

/-! ### Sources that have been handed out -/

section

variable {kind} {session : Session} {cancelled : Bool} {fireAt : Option Nat}
  {timeout : Option Duration} {answer : Except SourceError Unit} {s : LiveSource C}

/-- A source that has been created is at what its watches have come to. -/
theorem follows_of_create (h : kind.create session cancelled fireAt timeout = some (answer, s)) :
    ∃ turns, s.Follows (kind.creating session cancelled turns) ∧ s.tasks.length = 1 := by
  obtain ⟨polled, hawait, hsource⟩ := kind.create_cases h
  have hreaches := reaches_of_await hawait
  obtain ⟨turns, hcrew⟩ := kind.exists_creating hreaches
  have hfollows := Schedule.Follows.of_isCrew hcrew
  refine ⟨turns, ?_⟩
  rcases hsource with rfl | rfl
  · exact ⟨hfollows, hreaches.tasks⟩
  · exact ⟨hfollows.log _ _, hreaches.tasks⟩

theorem isPoised_of_create (h : kind.create session false none timeout = some (answer, s)) :
    ∃ t, s.IsPoised t := by
  obtain ⟨polled, hawait, hsource⟩ := kind.create_cases h
  have hbegun : (kind.outset session false none).IsPoised ⟨kind.streams.map .start, 0⟩ :=
    Schedule.isPoised_start _ _ _
  have hpolled : ∃ t, polled.IsPoised t := by
    rcases await_cases hawait with ⟨rfl, -⟩ | ⟨seen, number, -, hrun, -⟩
    · exact ⟨_, hbegun⟩
    · exact hbegun.runLooking kind.watcher_discreet kind.watcher_leavesToken _ hrun
  rcases hsource with rfl | rfl
  · exact hpolled
  · obtain ⟨t, ht⟩ := hpolled
    exact ⟨t, ht.tasks, ht.live, ht.fireAt, ht.queue⟩

/-- Whoever sleeps finds the source at what its watches have come to. -/
theorem exists_follows_sleeps {turns : List Turn} (h : s.Follows (kind.creating session cancelled turns))
    (naps : List Nat) :
    ∃ more, (kind.sleeps naps s).Follows (kind.creating session cancelled (turns ++ more)) := by
  obtain ⟨more, hmore⟩ := h.exists_run kind.watcher_ignoresLogs (kind.reaches_sleeps naps s)
  refine ⟨more, ?_⟩
  rw [creating, crew, Crew.run_append]
  exact hmore

end

/-- What can be relied on of a source whose watches are joined, whatever its agent does. -/
structure RunsJoined (session : Session) : Prop where
  /-- Nothing that has come is taken back. -/
  grows : ∀ (cancelled : Bool) (turns later : List Turn) (stream : StreamKind),
    (kind.creating session cancelled turns).handed stream <+:
      (kind.creating session cancelled (turns ++ later)).handed stream
  /-- While the token has not fired, a watch stops only if the agent refuses its stream. -/
  stops : ∀ (cancelled : Bool) (turns : List Turn),
    let c := kind.creating session cancelled turns
    c.world.cancelled = false → ∀ r ∈ c.watches, ∀ cause, r.phase.failure? = some cause →
      Refuses session.agent r.stream cause
  /-- A source that has been created and is slept on is at what its watches have come to. -/
  follows : ∀ (cancelled : Bool) (fireAt : Option Nat) (timeout : Option Duration)
    (answer : Except SourceError Unit) (s : LiveSource C),
    kind.create session cancelled fireAt timeout = some (answer, s) → ∀ naps, ∃ turns,
      (kind.sleeps naps s).Follows (kind.creating session cancelled turns) ∧
      ∀ more, ∃ later,
        (kind.sleeps (naps ++ more) s).Follows (kind.creating session cancelled (turns ++ later))
  /-- Once a watch has stopped on a status, nothing is installed any more, whatever comes on
  the other streams. -/
  frozen : ∀ (cancelled : Bool) (fireAt : Option Nat) (timeout : Option Duration)
    (answer : Except SourceError Unit) (s : LiveSource C),
    kind.create session cancelled fireAt timeout = some (answer, s) → ∀ naps,
      (∃ r ∈ (kind.sleeps naps s).watches, r.phase.failure?.isSome) → ∀ more,
      (kind.sleeps (naps ++ more) s).world.keep = (kind.sleeps naps s).world.keep
  /-- Given time, all that the attempts at a stream bring has come, unless a watch of another
  stream has stopped on a status. -/
  delivers : ∀ (timeout : Option Duration) (answer : Except SourceError Unit) (s : LiveSource C),
    kind.create session false none timeout = some (answer, s) →
    ∀ naps turns, (kind.sleeps naps s).Follows (kind.creating session false turns) →
      ∃ enough, ∀ millis, enough ≤ millis → ∃ later,
        let c := kind.creating session false (turns ++ later)
        (kind.sleeps (naps ++ [millis]) s).Follows c ∧
        ∀ stream ∈ kind.streams,
          (∀ r ∈ c.watches, r.stream ≠ stream → r.phase.failure? = none) →
          c.HasAll session.agent stream
  /-- So all of it comes if the agent refuses no other stream, whatever else it does there. -/
  independent : ∀ (timeout : Option Duration) (answer : Except SourceError Unit)
    (s : LiveSource C), kind.create session false none timeout = some (answer, s) →
    ∀ stream ∈ kind.streams,
      (∀ other ∈ kind.streams, other ≠ stream → ∀ cause,
        ¬ Refuses session.agent other cause) →
      ∀ naps, ∃ enough, ∀ millis, enough ≤ millis → ∃ turns,
        let c := kind.creating session false turns
        (kind.sleeps (naps ++ [millis]) s).Follows c ∧
        c.HasAll session.agent stream

variable {kind}

theorem handed_prefix (session : Session) (cancelled : Bool) (turns later : List Turn)
    (stream : StreamKind) : (kind.crew session cancelled turns).handed stream <+:
      (kind.crew session cancelled (turns ++ later)).handed stream := by
  rw [crew, crew, Crew.run_append]
  refine Crew.run_inv (P := fun c => Crew.handed _ stream <+: c.handed stream)
    (List.prefix_refl _) (fun c i r move h _ hmove => ?_) (fun _ _ => id) (fun _ => id) later
  rw [kind.handed_stride hmove]
  exact h.trans (List.prefix_append _ _)

/-- The watch of each stream of a source. -/
theorem exists_watch {session : Session} {cancelled : Bool} {turns : List Turn} {i : Nat}
    {stream : StreamKind} (hstream : kind.streams[i]? = some stream) :
    ∃ r, (kind.crew session cancelled turns).watches[i]? = some r ∧ r.stream = stream := by
  rw [← kind.crew_streams session cancelled turns, List.getElem?_map] at hstream
  exact Option.map_eq_some_iff.mp hstream

/-- A watch that has stopped is at rest. -/
theorem isAtRest_of_failure? {μ : Type} {phase : Phase μ} {cause : ApiError}
    (h : phase.failure? = some cause) : phase.IsAtRest := by
  cases phase with
  | ended result => trivial
  | _ => cases h

section

variable (hnodup : kind.streams.Nodup)
include hnodup

/-- When nothing more comes of a source, a watch is at rest unless one of another stream has
stopped on a status. -/
theorem isAtRest_of_isQuiet {session : Session} {cancelled : Bool} {turns : List Turn}
    (position : Nat) (hquiet : Task.IsQuiet ⟨(kind.crew session cancelled turns).watches, position⟩)
    (hlive : (kind.crew session cancelled turns).world.cancelled = false) {r : Running}
    (hr : r ∈ (kind.crew session cancelled turns).watches)
    (hothers : ∀ r' ∈ (kind.crew session cancelled turns).watches, r'.stream ≠ r.stream →
      r'.phase.failure? = none) : r.phase.IsAtRest := by
  rcases hquiet with hended | hrest
  · have hwatches := kind.crew_streams session cancelled turns
    have hne : kind.streams ≠ [] := by
      rw [← hwatches]
      exact List.ne_nil_of_mem (List.mem_map_of_mem hr)
    rcases kind.result?_cases hne session cancelled turns position with
      ⟨cause, hfailure, -⟩ | ⟨hfired, -⟩ | ⟨-, hgoing, -⟩
    · obtain ⟨r', hr', hcause⟩ := List.exists_of_findSome?_eq_some hfailure
      -- the watch that has stopped is no other one
      have hsame : r'.stream = r.stream := by
        by_contra hother
        rw [hothers r' hr' hother] at hcause
        cases hcause
      have hinj := List.inj_on_of_nodup_map (hwatches.symm ▸ hnodup)
      obtain rfl := hinj hr' hr hsame
      exact isAtRest_of_failure? hcause
    · rw [hlive] at hfired
      cases hfired
    · rw [hgoing] at hended
      cases hended
  · exact hrest r hr

/-- A watch stops only if the agent refuses its stream. -/
theorem refuses_of_stopped {session : Session} {cancelled : Bool} {turns : List Turn}
    (hlive : (kind.crew session cancelled turns).world.cancelled = false) {r : Running}
    (hr : r ∈ (kind.crew session cancelled turns).watches) {cause : ApiError}
    (hfailure : r.phase.failure? = some cause) :
    Refuses session.agent r.stream cause := by
  obtain ⟨i, hi⟩ := List.getElem?_of_mem hr
  exact refuses_of_failure? hnodup (kind.stream_of_watch hi) hi hlive hfailure

/-- Given time, all that the attempts at a stream bring has come, unless a watch of another
stream has stopped on a status. -/
theorem exists_delivered {session : Session} {timeout : Option Duration}
    {answer : Except SourceError Unit} {s : LiveSource C}
    (hcreate : kind.create session false none timeout = some (answer, s)) {naps : List Nat}
    {turns : List Turn} (hfollows : (kind.sleeps naps s).Follows (kind.creating session false turns)) :
    ∃ enough, ∀ millis, enough ≤ millis → ∃ later,
      let c := kind.creating session false (turns ++ later)
      (kind.sleeps (naps ++ [millis]) s).Follows c ∧ c.world.cancelled = false ∧
      ∀ stream ∈ kind.streams,
        (∀ r ∈ c.watches, r.stream ≠ stream → r.phase.failure? = none) →
        c.HasAll session.agent stream := by
  obtain ⟨t, hpoised⟩ := isPoised_of_create hcreate
  obtain ⟨t', hpoised⟩ := kind.isPoised_sleeps naps hpoised
  obtain ⟨enough, henough⟩ := kind.exists_isQuiet hpoised
  refine ⟨enough, fun millis hmillis => ?_⟩
  obtain ⟨t'', hpoised, hquiet⟩ := henough millis hmillis
  obtain ⟨later, hlater⟩ := exists_follows_sleeps hfollows [millis]
  have hlive : (kind.creating session false (turns ++ later)).world.cancelled = false :=
    hlater.cancelled.symm.trans hpoised.live
  have hwatches : t''.watches = (kind.creating session false (turns ++ later)).watches := by
    rw [← hlater.watches, Schedule.watches]
    change _ = (kind.sleep millis (kind.sleeps naps s)).tasks.flatMap _
    rw [hpoised.tasks, List.flatMap_singleton]
  rw [sleeps_append]
  refine ⟨later, hlater, hlive, fun stream hstream hothers => ?_⟩
  obtain ⟨i, hi⟩ := List.getElem?_of_mem hstream
  obtain ⟨r, hr, rfl⟩ := exists_watch hi
  refine hasAll_of_isAtRest hnodup hi hr hlive ?_
  exact isAtRest_of_isQuiet hnodup t''.turns (hwatches ▸ hquiet) hlive
    (List.mem_of_getElem? hr) hothers

/-- **The watches of a source run until one of them has failed.** -/
theorem runsJoined_of_nodup (session : Session) : kind.RunsJoined session where
  grows cancelled turns later stream := handed_prefix _ cancelled turns later stream
  stops cancelled turns := by
    intro c hlive r hr cause hfailure
    exact refuses_of_stopped hnodup hlive hr hfailure
  follows cancelled fireAt timeout answer s hcreate naps := by
    obtain ⟨turns, hfollows, -⟩ := follows_of_create hcreate
    obtain ⟨slept, hslept⟩ := exists_follows_sleeps hfollows naps
    refine ⟨turns ++ slept, hslept, fun more => ?_⟩
    rw [sleeps_append]
    exact exists_follows_sleeps hslept more
  frozen cancelled fireAt timeout answer s hcreate naps hstopped more := by
    obtain ⟨-, -, hlength⟩ := follows_of_create hcreate
    obtain ⟨t, htasks⟩ := List.length_eq_one_iff.mp
      ((kind.reaches_sleeps naps s).tasks.trans hlength)
    obtain ⟨r, hr, hfailure⟩ := hstopped
    have hended : t.result?.isSome = true := by
      have hr : r ∈ t.watches := by simpa [Schedule.watches, htasks] using hr
      have hsome : (t.watches.findSome? (·.phase.failure?)).isSome = true :=
        List.findSome?_isSome_iff.mpr ⟨r, hr, hfailure⟩
      obtain ⟨cause, hcause⟩ := Option.isSome_iff_exists.mp hsome
      rw [Task.result?_of_failure hcause]
      rfl
    rw [sleeps_append]
    exact (kind.stays_sleeps more htasks hended).keep
  delivers timeout answer s hcreate naps turns hfollows := by
    obtain ⟨enough, henough⟩ := exists_delivered hnodup hcreate hfollows
    refine ⟨enough, fun millis hmillis => ?_⟩
    obtain ⟨later, hlater, -, hall⟩ := henough millis hmillis
    exact ⟨later, hlater, hall⟩
  independent timeout answer s hcreate stream hstream hothers naps := by
    obtain ⟨begun, hbegun, -⟩ := follows_of_create hcreate
    obtain ⟨slept, hslept⟩ := exists_follows_sleeps hbegun naps
    obtain ⟨enough, henough⟩ := exists_delivered hnodup hcreate hslept
    refine ⟨enough, fun millis hmillis => ?_⟩
    obtain ⟨later, hlater, hlive, hall⟩ := henough millis hmillis
    refine ⟨_, hlater, hall stream hstream fun r hr hother => ?_⟩
    -- no other watch has stopped
    by_contra hfailed
    obtain ⟨cause, hfailure⟩ := Option.ne_none_iff_exists'.mp hfailed
    have hmem : r.stream ∈ kind.streams := by
      obtain ⟨i, hi⟩ := List.getElem?_of_mem hr
      exact List.mem_of_getElem? (kind.stream_of_watch hi)
    exact hothers r.stream hmem hother cause (refuses_of_stopped hnodup hlive hr hfailure)

end

end SourceKind

/-! ### Sources of all bundles -/

namespace BundlesSource

open Watch

/-- The source serves the last bundles that have come of either kind, and has counted
all. -/
structure ServesHanded (c : Crew (Held Cache)) : Prop where
  x509 : c.world.keep.cache.x509.map .x509Bundles = (c.handed .x509Bundles).getLast?
  jwt : c.world.keep.cache.jwt.map .jwtBundles = (c.handed .jwtBundles).getLast?
  updates : c.world.keep.cache.lifecycle.updates =
    (c.handed .x509Bundles).length + (c.handed .jwtBundles).length

/-- Bundles of either kind are what has come on their stream. -/
theorem filterMap_bundles? (updates : List Update) :
    ((updates.filterMap bundles?).filterMap Sum.getLeft?).map Update.x509Bundles =
        updates.filter (·.stream = .x509Bundles) ∧
      ((updates.filterMap bundles?).filterMap Sum.getRight?).map Update.jwtBundles =
        updates.filter (·.stream = .jwtBundles) ∧
      (updates.filterMap bundles?).length = (updates.filter (·.stream = .x509Bundles)).length +
        (updates.filter (·.stream = .jwtBundles)).length := by
  induction updates with
  | nil => exact ⟨rfl, rfl, rfl⟩
  | cons update rest ih =>
    obtain ⟨hx509, hjwt, hlength⟩ := ih
    cases update with
    | x509Context context => exact ⟨hx509, hjwt, hlength⟩
    | x509Bundles bundles =>
      refine ⟨congrArg (Update.x509Bundles bundles :: ·) hx509, hjwt, ?_⟩
      change (rest.filterMap bundles?).length + 1 =
        (rest.filter (·.stream = .x509Bundles)).length + 1 + _
      rw [hlength, Nat.add_right_comm]
      rfl
    | jwtBundles bundles =>
      refine ⟨hx509, congrArg (Update.jwtBundles bundles :: ·) hjwt, ?_⟩
      exact congrArg (· + 1) hlength

theorem servesHanded (session : Session) (cancelled : Bool) (turns : List Turn) :
    ServesHanded (SourceKind.bundles.crew session cancelled turns) := by
  have hcache := serves.cache_eq session cancelled turns
  generalize SourceKind.bundles.crew session cancelled turns = c at hcache ⊢
  rw [← List.filterMap_filterMap] at hcache
  obtain ⟨hx509, hjwt, hlength⟩ := filterMap_bundles? (c.heard.filterMap Message.meaning?)
  constructor
  · rw [Crew.handed, ← hx509, List.getLast?_map, hcache]
    rfl
  · rw [Crew.handed, ← hjwt, List.getLast?_map, hcache]
    rfl
  · rw [Crew.handed, Crew.handed, ← hlength, hcache]
    rfl

/-- **What the agent sends on one stream is served, until the watch of the other one has
failed.** Whatever the agent does, and whoever looks at the source whenever: it serves the
last bundles of either kind that have come, and has counted all that have come. As long as
neither watch has failed, each gets all that the agent sends, given time. A watch that has
stopped on a final status stops the other one as well, although the token has not fired,
and whatever the agent sends after that is not installed. -/
theorem served_until_failure (session : Session) :
    (∀ (cancelled : Bool) (turns : List Turn),
      ServesHanded (SourceKind.bundles.creating session cancelled turns)) ∧
    SourceKind.bundles.RunsJoined session :=
  ⟨servesHanded _, SourceKind.runsJoined_of_nodup (by decide) session⟩

/-- An agent that has no JWT bundles any more after half a second, and more X.509 bundles
after a second. -/
def refusing : Agent where
  x509Svids := []
  x509Bundles :=
    [.opened [.message ⟨[], []⟩, .delay 1000, .message ⟨[], [("acme.io", [])]⟩] false]
  jwtBundles := [.opened [.message ⟨[]⟩, .delay 500, .status ⟨.invalidArgument, "no"⟩] false]
  jwtSvids := []
  validations := []

/-- A final status on the stream of JWT bundles stops the X.509 bundles. -/
theorem served_until_failure_refused :
    let created := SourceKind.bundles.create (.start refusing .standard) false none none
    let later := created.map fun (_, s) => SourceKind.bundles.sleep 2000 s
    created.map (·.1) = some (.ok ()) ∧
      later.map (·.world.cancelled) = some false ∧
      later.map (·.world.session.clock) = some 2000 ∧
      (attempts refusing .x509Bundles 0).failure? Message.toUpdate = none ∧
      ((attempts refusing .x509Bundles 0).updates Message.toUpdate).length = 2 ∧
      ((attempts refusing .jwtBundles 0).updates Message.toUpdate).length = 1 ∧
      later.map SourceKind.bundles.updates = some 2 ∧
      later.map (fun s => (x509Bundles s.world.keep.cache).map (·.entries.length)) = some (.ok 0) := by
  decide +kernel

/-- The same X.509 bundles are installed if the stream of JWT bundles stays open. -/
example :
    let agent : Agent :=
      ⟨[], [.opened [.message ⟨[], []⟩, .delay 1000, .message ⟨[], [("acme.io", [])]⟩] false],
        [.opened [.message ⟨[]⟩] false], [], []⟩
    let created := SourceKind.bundles.create (.start agent .standard) false none none
    created.map (fun (_, s) => SourceKind.bundles.updates (SourceKind.bundles.sleep 2000 s)) =
      some 3 := by
  decide +kernel

end BundlesSource
end WorkloadIdentity
