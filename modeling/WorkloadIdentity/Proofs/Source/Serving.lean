/-
# A source serves the last good message

A source installs what its watch hands on, and its watch hands on what a message means
whenever it reads one that means something. What a source keeps is therefore settled
by the messages read so far: `Watch.Crew.heard`. A status, a message that makes no
sense, the end of a stream and another attempt are steps like all others, in which
nothing is handed on, so that they change nothing.

Key definitions: `Watch.Phase.message?`, `Watch.Crew.heard`,
`SourceKind.performed`, `SourceKind.Serves`, `X509Source.serving`,
`JwtSource.serving`, `BundlesSource.serving`, `ServesLast`.
Key theorems: `Watch.Taken.values`, `SourceKind.run_keep`,
`SourceKind.Serves.cache_eq`, `sources_serve_last`.
-/
import Mathlib.Data.List.Infix
import WorkloadIdentity.Proofs.Source.Release
import WorkloadIdentity.Proofs.Watch.Cancellation
import WorkloadIdentity.Proofs.Watch.Scheduled
import WorkloadIdentity.Source.Live

namespace WorkloadIdentity

/-! ### What is read -/

/-- What a message means, if it means something. -/
def Message.meaning? (message : Message) : Option Update := message.toUpdate.toOption

namespace Watch

variable {σ μ ν : Type}

/-- The value that an effect hands on. -/
def Effect.value? : Effect ν → Option ν
  | .update value => some value
  | _ => none

/-- The message that is read next. -/
def Phase.message? : Phase μ → Option μ
  | .reading (.message content :: _) _ => some content
  | _ => none

/-- What is handed on in a step is what the message means that is read in it. -/
theorem Taken.values {name : String} {convert : μ → Except ApiError ν} {around : Surroundings μ}
    {phase : Phase μ} {move : Move μ ν} (h : Taken name convert around phase move) :
    move.effects.filterMap Effect.value? =
      (phase.message?.bind fun content => (convert content).toOption).toList := by
  cases h with
  | handed content value rest closes hconvert =>
    simp [Phase.message?, Effect.value?, hconvert, Except.toOption]
  | unread content cause rest closes hconvert =>
    simp [Phase.message?, goOn, hconvert, Except.toOption]
  | stopped phase hguarded =>
    have hnone : phase.message? = none := by
      cases phase <;> first | rfl | exact hguarded.elim
    rw [hnone]
    rfl
  | _ => rfl

/-- What is no more than a record hands on nothing. -/
theorem values_of_seen (m : Moment μ ν) :
    m.seen.filterMap Effect.value? = m.told.filterMap Effect.value? := by
  rw [Moment.seen, List.filterMap_filter]
  refine List.filterMap_congr fun e _ => ?_
  cases e <;> rfl

/-- The messages that have been read, in order. -/
def Crew.heard (c : Crew σ) : List Message := c.history.reverse.filterMap (·.before.message?)

theorem Crew.heard_stride {watcher : Watcher σ} (c : Crew σ) (i : Nat) (r : Running)
    (move : Move Message Update) :
    (c.stride watcher i r move).heard = c.heard ++ r.phase.message?.toList := by
  unfold heard stride
  rw [List.reverse_cons, List.filterMap_append]
  cases hmessage : r.phase.message? <;> simp [hmessage]

/-- What the watch of a crew of one tells is what it hands on. -/
theorem Crew.run_values (watcher : Watcher σ) (session : Session) (keep : σ) (cancelled : Bool)
    (stream : StreamKind) (turns : List Turn) :
    let c := (start session keep cancelled [stream]).run watcher turns
    (c.told 0).filterMap Effect.value? = c.heard.filterMap Message.meaning? := by
  refine (run_inv (P := fun (c : Crew σ) => c.watches.length = 1 ∧
    (c.told 0).filterMap Effect.value? = c.heard.filterMap Message.meaning?)
    ⟨rfl, rfl⟩ (fun c j r move h hr hmove => ⟨?_, ?_⟩) (fun _ _ => id) (fun _ => id) turns).2
  · rw [stride, List.length_set]
    exact h.1
  · have hj := (List.getElem?_eq_some_iff.mp hr).1
    rw [h.1, Nat.lt_one_iff] at hj
    have hvalues := (taken_of_step hmove).values
    rw [told_stride, if_pos hj, List.filterMap_append, h.2, heard_stride, List.filterMap_append,
      hvalues]
    cases r.phase.message? with
    | none => rfl
    | some content =>
      cases hmeaning : content.toUpdate.toOption <;> simp [Message.meaning?, hmeaning]

/-- What the account of so many attempts hands on. -/
theorem account_values (convert : μ → Except ApiError ν) (script : Nat → Attempt μ) (n : Nat) :
    (account convert script n).filterMap Effect.value? =
      (List.range n).flatMap fun k => (script k).updates convert := by
  induction n with
  | zero => rfl
  | succ n ih =>
    have hcallbacks : ((script n).callbacks convert).filterMap Effect.value? =
        (script n).updates convert := by
      cases hfailure : (script n).failure? convert <;>
        simp [Attempt.callbacks, hfailure, List.filterMap_map, Function.comp_def, Effect.value?]
    rw [account, List.filterMap_append, ih, List.range_succ, List.flatMap_append,
      List.filterMap_cons]
    simp [Effect.value?, hcallbacks]

end Watch

/-! ### What is kept -/

namespace SourceKind

open Watch

variable {C V : Type} (kind : SourceKind C)

/-- What a source keeps after a program on it. -/
def performed (program : Steps C SourceEvent) (held : Held C) : Held C :=
  let (events, cache) := program.run held.cache
  ⟨cache, (events.filterMap X509Source.released?).reverse ++ held.released⟩

/-- What a source keeps after an update. -/
def installed (held : Held C) (update : Update) : Held C := performed (kind.install update) held

/-- A program on a source leaves the session and the token alone, the records
apart. -/
theorem perform_eq (program : Steps C SourceEvent) (w : World (Held C)) :
    ∃ logs, perform program w =
      { w with session := { w.session with logs }, keep := performed program w.keep } := by
  have htell : ∀ (events : List SourceEvent) (w : World (Held C)), ∃ logs,
      events.foldl tell w =
        { w with
          session := { w.session with logs }
          keep := ⟨w.keep.cache,
            (events.filterMap X509Source.released?).reverse ++ w.keep.released⟩ } := by
    intro events
    induction events with
    | nil => exact fun w => ⟨w.session.logs, rfl⟩
    | cons e rest ih =>
      intro w
      obtain ⟨logs, hlogs⟩ := ih (tell w e)
      refine ⟨logs, ?_⟩
      rw [List.foldl_cons, hlogs]
      cases e with
      | log level text =>
        simp [tell, World.log, Session.log, List.filterMap_cons, X509Source.released?]
      | released svid => simp [tell, X509Source.released?]
  exact htell (program.run w.keep.cache).1 { w with keep := { w.keep with
    cache := (program.run w.keep.cache).2 } }

theorem watcher_discreet : kind.watcher.Discreet where
  onUpdate stream update w := by
    obtain ⟨logs, hlogs⟩ := perform_eq (kind.install update) w
    change World.Spares w (perform (kind.install update) w)
    rw [hlogs]
    exact ⟨rfl, rfl, rfl, id⟩
  onError _ _ _ := ⟨rfl, rfl, rfl, id⟩

/-- A step of a watch installs what it hands on. -/
theorem keep_afterMove (stream : StreamKind) (w : World (Held C))
    (move : Watch.Move Message Update) :
    (w.afterMove kind.watcher stream move).keep =
      (move.effects.filterMap Effect.value?).foldl kind.installed w.keep := by
  have hfold : ∀ (effects : List (Effect Update)) (w : World (Held C)),
      (effects.foldl (World.apply kind.watcher stream) w).keep =
        (effects.filterMap Effect.value?).foldl kind.installed w.keep := by
    intro effects
    induction effects with
    | nil => exact fun w => rfl
    | cons e rest ih =>
      intro w
      rw [List.foldl_cons, ih]
      cases e with
      | update value =>
        obtain ⟨logs, hlogs⟩ := perform_eq (kind.install value) w
        have hkeep : (w.apply kind.watcher stream (.update value)).keep =
            kind.installed w.keep value := congrArg World.keep hlogs
        rw [hkeep]
        rfl
      | opened | failed | log => rfl
  exact hfold move.effects _

/-- The watches of a source after so many turns. -/
def crew (session : Session) (cancelled : Bool) (turns : List Turn) : Crew (Held C) :=
  (Crew.start session ⟨kind.fresh, []⟩ cancelled kind.streams).run kind.watcher turns

/-- **A source keeps what has come of installing all that its watches have read.** -/
theorem run_keep (session : Session) (cancelled : Bool) (turns : List Turn) :
    (kind.crew session cancelled turns).world.keep =
      ((kind.crew session cancelled turns).heard.filterMap Message.meaning?).foldl kind.installed
        ⟨kind.fresh, []⟩ := by
  refine Crew.run_inv (P := fun c => c.world.keep =
    (c.heard.filterMap Message.meaning?).foldl kind.installed ⟨kind.fresh, []⟩)
    rfl (fun c i r move h _ hmove => ?_) (fun _ _ => id) (fun _ => id) turns
  have hvalues := (taken_of_step hmove).values
  have hkeep : (c.stride kind.watcher i r move).world.keep =
      (move.effects.filterMap Effect.value?).foldl kind.installed c.world.keep :=
    kind.keep_afterMove _ _ _
  rw [hkeep, h, hvalues, Crew.heard_stride, List.filterMap_append, List.foldl_append]
  cases r.phase.message? with
  | none => rfl
  | some content =>
    cases hmeaning : content.toUpdate.toOption <;> simp [Message.meaning?, hmeaning]

/-- What a source serves is settled by what it has been told in order, which is what it
looks at in updates. -/
structure Serves (value? : Update → Option V) (serving : List V → C) : Prop where
  fresh : kind.fresh = serving []
  install : ∀ update values, ((kind.install update).run (serving values)).2 =
    serving (values ++ (value? update).toList)
  ignores : ∀ update, value? update = none → kind.install update = .done
  updates : ∀ values, (kind.lifecycle (serving values)).updates = values.length

namespace Serves

variable {kind} {value? : Update → Option V} {serving : List V → C} (h : kind.Serves value? serving)
include h

theorem cache_foldl (updates : List Update) : ∀ (held : Held C) (values : List V),
    held.cache = serving values →
      (updates.foldl kind.installed held).cache = serving (values ++ updates.filterMap value?) := by
  induction updates with
  | nil => exact fun held values hheld => by rw [List.filterMap_nil, List.append_nil]; exact hheld
  | cons update rest ih =>
    intro held values hheld
    have hinstalled : (kind.installed held update).cache =
        serving (values ++ (value? update).toList) := by
      rw [← h.install, ← hheld]
      rfl
    rw [List.foldl_cons, ih _ _ hinstalled, List.filterMap_cons]
    cases value? update <;> simp

/-- The cache is what the source serves after all that its watch has read. -/
theorem cache_eq (session : Session) (cancelled : Bool) (turns : List Turn) :
    (kind.crew session cancelled turns).world.keep.cache =
      serving ((kind.crew session cancelled turns).heard.filterMap fun message =>
        message.meaning?.bind value?) := by
  rw [kind.run_keep, h.cache_foldl _ _ [] h.fresh, List.nil_append, List.filterMap_filterMap]

/-- An update that the source does not look at changes nothing. -/
theorem installed_of_none {update : Update} (hnone : value? update = none) (held : Held C) :
    kind.installed held update = held := by
  rw [installed, h.ignores update hnone]
  rfl

/-- In a turn either a message is read that tells the source something, or it keeps
what it has kept. -/
theorem turn_cases (session : Session) (cancelled : Bool) (turns : List Turn) (turn : Turn) :
    let c := kind.crew session cancelled turns
    let c' := kind.crew session cancelled (turns ++ [turn])
    (∃ message value, message.meaning?.bind value? = some value ∧
      c'.heard = c.heard ++ [message]) ∨
    ((c'.heard.filterMap fun message => message.meaning?.bind value?) =
      (c.heard.filterMap fun message => message.meaning?.bind value?) ∧
      c'.world.keep = c.world.keep) := by
  intro c c'
  have hrun : c' = c.after kind.watcher turn := Crew.run_append turns [turn]
  rw [hrun]
  rcases c.after_cases kind.watcher turn with
    ⟨hhistory, hkeep⟩ | ⟨i, r, move, hr, hmove, hstride⟩
  · have hheard : (c.after kind.watcher turn).heard = c.heard := by
      rw [Crew.heard, hhistory]
      rfl
    exact .inr ⟨by rw [hheard], hkeep⟩
  have hkeep : (c.stride kind.watcher i r move).world.keep =
      (move.effects.filterMap Effect.value?).foldl kind.installed c.world.keep :=
    kind.keep_afterMove _ _ _
  rw [hstride, hkeep, (taken_of_step hmove).values, c.heard_stride]
  cases r.phase.message? with
  | none => exact .inr ⟨by simp, rfl⟩
  | some message =>
    cases hvalue : message.meaning?.bind value? with
    | some value => exact .inl ⟨message, value, hvalue, rfl⟩
    | none =>
      refine .inr ⟨by simp [hvalue], ?_⟩
      cases hmeaning : message.meaning? with
      | none =>
        rw [Message.meaning?] at hmeaning
        simp [hmeaning]
      | some update =>
        rw [hmeaning, Option.bind_some] at hvalue
        rw [Message.meaning?] at hmeaning
        simp [hmeaning, h.installed_of_none hvalue]

end Serves

/-- What a watch of a source hands on is what the agent has sent first, if no other watch
asks for the same stream. -/
theorem told_updates {i : Nat} {stream : StreamKind} (hstream : kind.streams[i]? = some stream)
    (halone : ∀ j, kind.streams[j]? = some stream → j = i) (session : Session) (cancelled : Bool)
    (turns : List Turn) :
    ∃ n, ((kind.crew session cancelled turns).told i).filterMap Effect.value? <+:
      (List.range n).flatMap fun k => (attempts session.agent stream k).updates Message.toUpdate := by
  obtain ⟨m, -, -, -, -, htold, ⟨polls, k, rfl, -⟩, -⟩ :=
    Crew.run_tracks kind.watcher_discreet session ⟨kind.fresh, []⟩ cancelled hstream halone turns
  obtain ⟨n, hseen, -⟩ := seen_of_account stream.name Message.toUpdate
    (attempts session.agent stream) polls k
  have hvalues := hseen.filterMap Effect.value?
  rw [values_of_seen, ← htold, account_values] at hvalues
  exact ⟨n, hvalues⟩

/-- What the watch of a source has read is what the agent has sent first. -/
theorem exists_updates {stream : StreamKind} (hstreams : kind.streams = [stream])
    (session : Session) (cancelled : Bool) (turns : List Turn) :
    ∃ n, (kind.crew session cancelled turns).heard.filterMap Message.meaning? <+:
      (List.range n).flatMap fun k => (attempts session.agent stream k).updates Message.toUpdate := by
  have halone : ∀ j, kind.streams[j]? = some stream → j = 0 := by
    rw [hstreams]
    exact fun j hj => by simpa using (List.getElem?_eq_some_iff.mp hj).1
  have hupdates := kind.told_updates (i := 0) (by rw [hstreams]; rfl) halone session cancelled turns
  have hvalues := Crew.run_values kind.watcher session ⟨kind.fresh, []⟩ cancelled stream turns
  unfold crew at hupdates ⊢
  rw [hstreams] at hupdates ⊢
  rwa [← hvalues]

end SourceKind

/-! ### What an agent has in store -/

/-- The same stream with other content means the same. -/
theorem Attempt.updates_map {μ ν μ' ν' : Type} {convert : μ → Except ApiError ν}
    {convert' : μ' → Except ApiError ν'} {wrap : μ → μ'} {meaning : ν → ν'}
    (h : ∀ content, convert' (wrap content) = (convert content).map meaning) :
    ∀ attempt : Attempt μ,
      (attempt.map wrap).updates convert' = (attempt.updates convert).map meaning
  | .rejected cause => rfl
  | .opened items closes => by
    have hfailure : ∀ item : Item μ, ((item.map wrap).failure? convert').isNone =
        (item.failure? convert).isNone := by
      intro item
      cases item with
      | message content => simp only [Item.map, Item.failure?, h]; cases convert content <;> rfl
      | status | delay => rfl
    have hvalue : ∀ item : Item μ, (item.map wrap).value? convert' =
        (item.value? convert).map meaning := by
      intro item
      cases item with
      | message content => simp only [Item.map, Item.value?, h]; cases convert content <;> rfl
      | status | delay => rfl
    simp only [Attempt.map, Attempt.updates, List.takeWhile_map, List.filterMap_map,
      List.map_filterMap, Function.comp_def, hfailure, hvalue]

namespace Watch

/-- All that an agent hands on in so many attempts at a stream, if the streams of that
kind are in a queue of their own. -/
theorem attempts_updates {μ ν : Type} {stream : StreamKind} (queue : Agent → List (Attempt μ))
    {convert : μ → Except ApiError ν} {wrap : μ → Message} {meaning : ν → Update}
    (hconvert : ∀ content, (wrap content).toUpdate = (convert content).map meaning)
    (hnext : ∀ agent, agent.next stream = ((queue agent).headD .silent).map wrap)
    (hadvance : ∀ agent, queue (agent.advance stream) = (queue agent).tail) :
    ∀ (n : Nat) (agent : Agent),
      ((List.range n).flatMap fun k => (attempts agent stream k).updates Message.toUpdate) =
        (((queue agent).take n).flatMap (·.updates convert)).map meaning
  | 0, agent => rfl
  | n + 1, agent => by
    have ih := attempts_updates queue hconvert hnext hadvance n (agent.advance stream)
    have hfirst : (attempts agent stream 0).updates Message.toUpdate =
        (((queue agent).headD .silent).updates convert).map meaning := by
      rw [attempts, hnext]
      exact Attempt.updates_map hconvert _
    have hrest : ((List.range n).map (· + 1)).flatMap
        (fun k => (attempts agent stream k).updates Message.toUpdate) =
        (((queue agent).tail.take n).flatMap (·.updates convert)).map meaning := by
      rw [← hadvance, ← ih, List.flatMap_map]
      rfl
    rw [List.range_succ_eq_map, List.flatMap_cons, hrest, hfirst]
    cases queue agent with
    | nil => simp [Attempt.silent, Attempt.updates]
    | cons attempt rest => simp

end Watch

/-! ### The sources -/

namespace Steps

variable {S E : Type} {tells : S → List E} {change : S → S} {next : S → Steps S E} {s : S}

/-- The state at the end of a program, step by step. -/
theorem run_act_snd : ((act tells change next).run s).2 = ((next s).run (change s)).2 := rfl

end Steps

namespace X509Source

/-- The context that an update has for the source. -/
def context? : Update → Option X509Context
  | .x509Context context => some context
  | _ => none

/-- The context in a message of identities, if it has one. -/
def read : Message → Option X509Context
  | .x509Svids response => (X509Context.ofResponse response).toOption
  | _ => none

theorem bind_context? (message : Message) : message.meaning?.bind context? = read message := by
  cases message with
  | x509Svids response =>
    rw [Message.meaning?, Message.toUpdate, read]
    cases X509Context.ofResponse response <;> rfl
  | x509Bundles response =>
    rw [Message.meaning?, Message.toUpdate]
    cases response.toSet <;> rfl
  | jwtBundles response =>
    rw [Message.meaning?, Message.toUpdate]
    cases response.toSet <;> rfl

/-- What the source serves after these contexts: the last one, and the choice from it. -/
def serving (pick : Picker) (contexts : List X509Context) : Cache where
  lifecycle := ⟨if contexts.isEmpty then .uninitialized else .initialized, contexts.length⟩
  slot := contexts.getLast?.map fun context => ⟨context, pick context.svids⟩

theorem serving_concat (pick : Picker) (contexts : List X509Context) (context : X509Context) :
    serving pick (contexts ++ [context]) =
      ⟨(serving pick contexts).lifecycle.makeReady.publish,
        some ⟨context, pick context.svids⟩⟩ := by
  unfold serving
  rw [List.getLast?_concat, List.length_append]
  cases contexts <;> rfl

theorem run_release (old : Option Snapshot) (current : Option X509Svid)
    (next : Steps Cache SourceEvent) (c : Cache) :
    ((release old current next).run c).2 = (next.run c).2 :=
  release_of (P := fun p => (p.run c).2 = (next.run c).2) rfl (fun _ => rfl) old current

/-- An install by itself, before a disposal. -/
theorem run_install (pick : Picker) (context : X509Context) {c : Cache}
    (h : c.lifecycle.stage ≠ .disposed) : ((install pick context).run c).2 =
      ⟨c.lifecycle.makeReady.publish, some ⟨context, pick context.svids⟩⟩ := by
  have hstage : c.lifecycle.makeReady.publish.stage ≠ .disposed := by
    rwa [Lifecycle.publish, ne_eq, Lifecycle.makeReady_disposed]
  have hstore : ((install pick context).run c).2 =
      ((store ⟨context, pick context.svids⟩).run c).2 := by
    rw [install, Steps.look, Steps.run_act_snd, if_neg h]
    rfl
  rw [hstore, store, Steps.run_act_snd, run_release, announce]
  change ((if c.lifecycle.makeReady.publish.stage = .disposed then clear else .done).run _).2 = _
  rw [if_neg hstage]
  rfl

theorem serves (pick : Picker) :
    (SourceKind.x509 pick).Serves context? (serving pick) where
  fresh := rfl
  install update contexts := by
    cases update with
    | x509Context context =>
      have hstage : (serving pick contexts).lifecycle.stage ≠ .disposed := by
        cases contexts <;> nofun
      exact (run_install pick context hstage).trans (serving_concat pick contexts context).symm
    | x509Bundles | jwtBundles => simp [context?, SourceKind.x509, Steps.run]
  ignores update hnone := by
    cases update with
    | x509Context context => cases hnone
    | x509Bundles | jwtBundles => rfl
  updates _ := rfl

end X509Source

namespace JwtSource

/-- The bundles that an update has for the source. -/
def bundles? : Update → Option JwtBundleSet
  | .jwtBundles bundles => some bundles
  | _ => none

/-- The bundles in a message of JWT bundles, if it reads. -/
def read : Message → Option JwtBundleSet
  | .jwtBundles response => response.toSet.toOption
  | _ => none

theorem bind_bundles? (message : Message) : message.meaning?.bind bundles? = read message := by
  cases message with
  | jwtBundles response =>
    rw [Message.meaning?, Message.toUpdate, read]
    cases response.toSet <;> rfl
  | x509Svids response =>
    rw [Message.meaning?, Message.toUpdate]
    cases X509Context.ofResponse response <;> rfl
  | x509Bundles response =>
    rw [Message.meaning?, Message.toUpdate]
    cases response.toSet <;> rfl

/-- What the source serves after these bundles: the last ones. -/
def serving (sets : List JwtBundleSet) : Cache where
  lifecycle := ⟨if sets.isEmpty then .uninitialized else .initialized, sets.length⟩
  slot := sets.getLast?

theorem serving_concat (sets : List JwtBundleSet) (bundles : JwtBundleSet) :
    serving (sets ++ [bundles]) =
      ⟨(serving sets).lifecycle.makeReady.publish, some bundles⟩ := by
  unfold serving
  rw [List.getLast?_concat, List.length_append]
  cases sets <;> rfl

/-- An install by itself, before a disposal. -/
theorem run_install (bundles : JwtBundleSet) {c : Cache} (h : c.lifecycle.stage ≠ .disposed) :
    ((install bundles).run c).2 = ⟨c.lifecycle.makeReady.publish, some bundles⟩ := by
  have hstage : c.lifecycle.makeReady.publish.stage ≠ .disposed := by
    rwa [Lifecycle.publish, ne_eq, Lifecycle.makeReady_disposed]
  have hstore : ((install bundles).run c).2 = ((store bundles).run c).2 := by
    rw [install, Steps.look, Steps.run_act_snd, if_neg h]
    rfl
  rw [hstore, store, Steps.run_act_snd, announce]
  change ((if c.lifecycle.makeReady.publish.stage = .disposed then clear else .done).run _).2 = _
  rw [if_neg hstage]
  rfl

theorem serves : SourceKind.jwt.Serves bundles? serving where
  fresh := rfl
  install update sets := by
    cases update with
    | jwtBundles bundles =>
      have hstage : (serving sets).lifecycle.stage ≠ .disposed := by
        cases sets <;> nofun
      exact (run_install bundles hstage).trans (serving_concat sets bundles).symm
    | x509Context | x509Bundles => simp [bundles?, SourceKind.jwt, Steps.run]
  ignores update hnone := by
    cases update with
    | jwtBundles bundles => cases hnone
    | x509Context | x509Bundles => rfl
  updates _ := rfl

end JwtSource

namespace BundlesSource

/-- The bundles of one kind or the other that an update has for the source. -/
def bundles? : Update → Option (X509BundleSet ⊕ JwtBundleSet)
  | .x509Bundles bundles => some (.inl bundles)
  | .jwtBundles bundles => some (.inr bundles)
  | .x509Context _ => none

/-- What the source serves after these bundles: the last ones of each kind, once there are
some of both. -/
def serving (sets : List (X509BundleSet ⊕ JwtBundleSet)) : Cache :=
  let x509 := (sets.filterMap Sum.getLeft?).getLast?
  let jwt := (sets.filterMap Sum.getRight?).getLast?
  ⟨⟨if x509.isSome && jwt.isSome then .initialized else .uninitialized, sets.length⟩, x509, jwt⟩

theorem run_publish {c : Cache} (h : c.lifecycle.stage ≠ .disposed) :
    (publish.run c).2 = { c with lifecycle := c.lifecycle.publish } := by
  rw [publish, Steps.change, Steps.run_act_snd]
  change ((if c.lifecycle.stage = .disposed then clear else .done).run _).2 = _
  rw [if_neg h]
  rfl

theorem run_announce {c : Cache} (h : c.lifecycle.stage ≠ .disposed) :
    (announce.run c).2 =
      { c with lifecycle := (if c.x509.isSome && c.jwt.isSome then c.lifecycle.makeReady
          else c.lifecycle).publish } := by
  have hannounce : (announce.run c).2 =
      ((if c.x509.isSome && c.jwt.isSome then makeReady else publish).run c).2 := by
    simp only [announce, Steps.look, Steps.run, id]
    cases c.x509.isSome with
    | false => rfl
    | true =>
      rw [Bool.true_and]
      rfl
  rw [hannounce]
  split
  · rw [makeReady, Steps.change, Steps.run_act_snd]
    exact run_publish (c := { c with lifecycle := c.lifecycle.makeReady })
      (mt c.lifecycle.makeReady_disposed.mp h)
  · exact run_publish h

/-- An install by itself, before a disposal. -/
theorem run_install (kind : String) {store : Cache → Cache} {c : Cache}
    (hstore : (store c).lifecycle = c.lifecycle) (h : c.lifecycle.stage ≠ .disposed) :
    ((install kind store).run c).2 =
      { store c with lifecycle := (if (store c).x509.isSome && (store c).jwt.isSome then
          c.lifecycle.makeReady else c.lifecycle).publish } := by
  have hinstall : ((install kind store).run c).2 = (announce.run (store c)).2 := by
    rw [install, Steps.look, Steps.run_act_snd, if_neg h]
    rfl
  rw [hinstall, run_announce (by rwa [hstore]), hstore]

theorem serving_stage (sets : List (X509BundleSet ⊕ JwtBundleSet)) :
    (serving sets).lifecycle.stage ≠ .disposed := by
  simp only [serving]
  split <;> simp

theorem serves : SourceKind.bundles.Serves bundles? serving where
  fresh := rfl
  install update sets := by
    have hstage : (serving sets).lifecycle.stage ≠ .disposed := serving_stage sets
    cases update with
    | x509Context context => simp [bundles?, SourceKind.bundles, Steps.run]
    | x509Bundles bundles =>
      refine (run_install "X.509" rfl hstage).trans ?_
      cases hjwt : (sets.filterMap Sum.getRight?).getLast? with
      | none => simp [serving, bundles?, hjwt, Lifecycle.publish]
      | some jwt =>
        cases hx509 : (sets.filterMap Sum.getLeft?).getLast? <;>
          simp [serving, bundles?, hjwt, hx509, Lifecycle.publish, Lifecycle.makeReady]
    | jwtBundles bundles =>
      refine (run_install "JWT" rfl hstage).trans ?_
      cases hx509 : (sets.filterMap Sum.getLeft?).getLast? with
      | none => simp [serving, bundles?, hx509, Lifecycle.publish]
      | some x509 =>
        cases hjwt : (sets.filterMap Sum.getRight?).getLast? <;>
          simp [serving, bundles?, hjwt, hx509, Lifecycle.publish, Lifecycle.makeReady]
  ignores update hnone := by
    cases update with
    | x509Context => rfl
    | x509Bundles | jwtBundles => cases hnone
  updates _ := rfl

end BundlesSource

/-- What the callers of a source can rely on while it is not disposed of, whatever the
agent has in store, whenever its watch is polled and whenever the token fires: it
serves what the messages read so far tell it, of which there are as many as updates and
which are the first of all that the agent has in store; and a turn in which none is read
changes neither what it serves nor what it has let go of. -/
structure ServesLast {C V : Type} (kind : SourceKind C) (read : Message → Option V)
    (serving : List V → C) (inStore : Agent → List V) : Prop where
  cache : ∀ (session : Session) (cancelled : Bool) (turns : List Watch.Turn),
    let c := kind.crew session cancelled turns
    c.world.keep.cache = serving (c.heard.filterMap read)
  updates : ∀ (session : Session) (cancelled : Bool) (turns : List Watch.Turn),
    let c := kind.crew session cancelled turns
    (kind.lifecycle c.world.keep.cache).updates = (c.heard.filterMap read).length
  turn : ∀ (session : Session) (cancelled : Bool) (turns : List Watch.Turn) (turn : Watch.Turn),
    let c := kind.crew session cancelled turns
    let c' := kind.crew session cancelled (turns ++ [turn])
    (∃ message value, read message = some value ∧ c'.heard = c.heard ++ [message]) ∨
      (c'.heard.filterMap read = c.heard.filterMap read ∧ c'.world.keep = c.world.keep)
  delivered : ∀ (session : Session) (cancelled : Bool) (turns : List Watch.Turn),
    (kind.crew session cancelled turns).heard.filterMap read <+: inStore session.agent

theorem ServesLast.of_serves {C V μ : Type} {kind : SourceKind C} {stream : StreamKind}
    {value? : Update → Option V} {read : Message → Option V} {serving : List V → C}
    {wrap : μ → Message} {meaning : V → Update} {convert : μ → Except ApiError V}
    (queue : Agent → List (Attempt μ)) (h : kind.Serves value? serving)
    (hstreams : kind.streams = [stream])
    (hread : ∀ message, message.meaning?.bind value? = read message)
    (hvalue : ∀ value, value? (meaning value) = some value)
    (hconvert : ∀ content, (wrap content).toUpdate = (convert content).map meaning)
    (hnext : ∀ agent, agent.next stream = ((queue agent).headD .silent).map wrap)
    (hadvance : ∀ agent, queue (agent.advance stream) = (queue agent).tail) :
    ServesLast kind read serving fun agent => (queue agent).flatMap (·.updates convert) := by
  have hcache := h.cache_eq
  have hturn := h.turn_cases
  simp only [hread] at hcache hturn
  refine ⟨hcache, fun session cancelled turns => ?_, hturn, fun session cancelled turns => ?_⟩
  · dsimp only
    rw [hcache, h.updates]
  · obtain ⟨n, hupdates⟩ := kind.exists_updates hstreams session cancelled turns
    have hvalues := hupdates.filterMap value?
    rw [List.filterMap_filterMap, Watch.attempts_updates queue hconvert hnext hadvance,
      List.filterMap_map] at hvalues
    simp only [hread, Function.comp_def, hvalue, List.filterMap_some] at hvalues
    exact hvalues.trans ((List.take_prefix n _).flatMap _)

/-- **A source serves the last good message.** What a source of identities serves is the
context of the last message that has one, with the choice from it, and as many updates as
there were such messages; what a source of JWT bundles serves are the bundles of the last
message that reads, and as many updates. Nothing else that comes of a watch, be it a
status, a message that makes no sense, the end of a stream or another attempt, makes a
difference, nor does it let go of a key. -/
theorem sources_serve_last :
    (∀ pick, ServesLast (.x509 pick) X509Source.read (X509Source.serving pick)
      fun agent => agent.x509Svids.flatMap (·.updates X509Context.ofResponse)) ∧
    ServesLast .jwt JwtSource.read JwtSource.serving
      fun agent => agent.jwtBundles.flatMap (·.updates JwtBundlesResponse.toSet) := by
  refine ⟨fun pick => ?_, ?_⟩
  · exact .of_serves Agent.x509Svids (X509Source.serves pick) rfl X509Source.bind_context?
      (fun _ => rfl) (fun _ => rfl) (fun _ => rfl) fun _ => rfl
  · exact .of_serves Agent.jwtBundles JwtSource.serves rfl JwtSource.bind_bundles?
      (fun _ => rfl) (fun _ => rfl) (fun _ => rfl) fun _ => rfl

end WorkloadIdentity
