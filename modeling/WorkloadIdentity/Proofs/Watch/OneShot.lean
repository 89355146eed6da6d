/-
# One call and a watch

A stream can be read by a call for its first message, or by a watch. Given the same
attempt, both go by the first item: the answer of the call is the first callback of the
watch, whatever comes later (`Watch.IsFirst`). They differ where the agent closes the
stream before it brings anything. The call fails then, and the watch says nothing and
asks again, which it does before any callback in no other case.

What a watch has told is compared with the account of its streams, which it follows
from one stream to the next (`Watch.account_le_seen`).

Key definitions: `Attempt.reports`, `Watch.IsFirst`.
Key theorems: `Attempt.head?_reports_of_answer`, `Watch.account_le_seen`,
`Watch.isFirst_of_head?`, `Watch.asks_again_iff`, `Session.fetch_agrees_with_watch`,
`Session.first_event_of_watch`.
-/
import WorkloadIdentity.Proofs.Agent.First
import WorkloadIdentity.Proofs.Watch.Cancellation
import WorkloadIdentity.Proofs.Watch.Scheduled

namespace WorkloadIdentity

variable {μ ν : Type} {convert : μ → Except ApiError ν}

/-! ### One attempt -/

namespace Attempt

variable {attempt : Attempt μ}

variable (convert) in
/-- What a watch calls back with in the attempt. -/
def reports (attempt : Attempt μ) : List (Except ApiError ν) :=
  (attempt.callbacks convert).filterMap Watch.Effect.callback?

/-- What a call answers is what a watch calls back with first, unless the agent closes the
stream before it brings anything. -/
theorem head?_reports_of_answer {result : Except ApiError ν}
    (hanswer : attempt.answer convert = some result) (hclosed : ¬ attempt.IsEmpty true) :
    (attempt.reports convert).head? = some result := by
  unfold reports
  cases attempt with
  | rejected cause => exact hanswer
  | opened items closes =>
    induction items with
    | nil =>
      cases closes with
      | true => exact absurd ⟨[], rfl, nofun⟩ hclosed
      | false => cases hanswer
    | cons item items ih =>
      cases item with
      | message content =>
        rw [answer_opened_message] at hanswer
        obtain rfl := Option.some.inj hanswer
        cases hconvert : convert content with
        | ok value =>
          rw [callbacks_opened_ok items closes hconvert]
          rfl
        | error cause =>
          rw [callbacks_opened_error items closes hconvert]
          rfl
      | status cause =>
        rw [answer_opened_status] at hanswer
        rw [callbacks_opened_status, ← hanswer]
        rfl
      | delay millis =>
        rw [answer_opened_delay] at hanswer
        rw [callbacks_opened_delay]
        exact ih hanswer fun hempty => hclosed (hempty.delay millis)

variable (convert) in
theorem of_isEmpty {closes : Bool} (h : attempt.IsEmpty closes) :
    attempt.callbacks convert = [] ∧
      attempt.outcome? convert = if closes then some (.ok ()) else none := by
  obtain ⟨pauses, rfl, hpauses⟩ := h
  induction pauses with
  | nil => exact ⟨rfl, rfl⟩
  | cons pause pauses ih =>
    obtain ⟨hpause, hrest⟩ := List.forall_mem_cons.mp hpauses
    cases pause with
    | delay millis =>
      rw [callbacks_opened_delay, outcome?_opened_delay]
      exact ih hrest
    | _ => exact hpause.elim

/-- An attempt without a callback is an empty stream. -/
theorem isEmpty_of_reports (h : attempt.reports convert = []) :
    ∃ closes, attempt.IsEmpty closes := by
  cases hanswer : attempt.answer convert with
  | none => exact ⟨false, answer_eq_none_iff.mp hanswer⟩
  | some result =>
    refine ⟨true, Classical.byContradiction fun hclosed => ?_⟩
    have hhead := head?_reports_of_answer hanswer hclosed
    rw [h] at hhead
    cases hhead

end Attempt

namespace Watch

variable {name : String} {script : Nat → Attempt μ} {polls : Nat → Poll} {i n : Nat}

/-! ### Streams and callbacks of an account -/

theorem countP_account (n : Nat) :
    (account convert script n).countP Effect.isOpening = n := by
  have hnone (attempt : Attempt μ) :
      (attempt.callbacks convert).countP Effect.isOpening = 0 := by
    rw [List.countP_eq_zero]
    intro e he
    rcases List.mem_append.mp he with he | he
    · obtain ⟨value, -, rfl⟩ := List.mem_map.mp he
      exact Bool.false_ne_true
    · obtain ⟨cause, -, rfl⟩ := List.mem_map.mp he
      exact Bool.false_ne_true
  induction n with
  | zero => rfl
  | succ n ih =>
    rw [account, List.countP_append, ih, List.countP_cons_of_pos rfl, hnone]

variable (convert script) in
theorem account_le {m : Nat} (hmn : m ≤ n) :
    account convert script m <+: account convert script n := by
  induction hmn with
  | refl => exact List.prefix_refl _
  | step _ ih => exact ih.trans (List.prefix_append _ _)

variable (name convert script polls) in
/-- Every stream that has been asked for has been told of. -/
theorem countP_seen (i : Nat) :
    (moment name convert script polls i).seen.countP Effect.isOpening =
      (moment name convert script polls i).opened := by
  refine moment_inv (P := fun m => m.seen.countP Effect.isOpening = m.opened) rfl
    (fun i move h _ => ?_) i
  rw [seen_after, List.countP_append, h, List.countP_filter]
  refine congrArg (_ + ·) (List.countP_congr fun e _ => ?_)
  cases e <;> simp [Effect.isOpening, Effect.isRecord]

/-- A watch that has asked for another stream has told all of those before it. -/
theorem account_le_seen (hlive : NeverCancelled polls)
    (h : n < (moment name convert script polls i).opened) :
    account convert script n <+: (moment name convert script polls i).seen := by
  have hseen := (moment_fits name convert script hlive i).seen_of_account
  rcases List.prefix_or_prefix_of_prefix hseen (account_le convert script (Nat.le_of_lt h)) with
    hshort | hlong
  · -- too few streams
    have hcount := (hshort.sublist.countP_le (p := Effect.isOpening))
    rw [countP_account, countP_seen] at hcount
    omega
  · exact hlong

/-! ### The first callback -/

/-- The watch calls back some time, and the first time with this. -/
def IsFirst (watch : Nat → Moment μ ν) (callback : Except ApiError ν) : Prop :=
  (∃ i, (watch i).callbacks.head? = some callback) ∧
    ∀ i, (watch i).callbacks = [] ∨ (watch i).callbacks.head? = some callback

variable {callback : Except ApiError ν}

theorem head?_account (h : ((script 0).reports convert).head? = some callback) (n : Nat) :
    ((account convert script (n + 1)).filterMap Effect.callback?).head? = some callback := by
  induction n with
  | zero => exact h
  | succ n ih =>
    rw [account, List.filterMap_append, List.head?_append, ih]
    rfl

variable (name polls) in
/-- Whether the token fires or not, a watch calls back first with the first callback of its
first attempt. -/
theorem head?_callbacks
    (h : ((script 0).reports convert).head? = some callback) (i : Nat) :
    (moment name convert script polls i).callbacks = [] ∨
      (moment name convert script polls i).callbacks.head? = some callback := by
  obtain ⟨n, hseen, -⟩ := seen_of_account name convert script polls i
  have hcallbacks := hseen.filterMap Effect.callback?
  rw [callbacks_of_seen] at hcallbacks
  cases n with
  | zero => exact .inl (List.prefix_nil.mp hcallbacks)
  | succ n =>
    by_cases hnone : (moment name convert script polls i).callbacks = []
    · exact .inl hnone
    · obtain ⟨rest, hrest⟩ := hcallbacks
      have hhead := head?_account h n
      rw [← hrest, List.head?_append_of_ne_nil _ hnone] at hhead
      exact .inr hhead

section

variable (hlive : NeverCancelled polls) (htime : TimePasses polls)
include hlive htime

theorem isFirst_of_head? (h : ((script 0).reports convert).head? = some callback) :
    IsFirst (moment name convert script polls) callback := by
  refine ⟨?_, head?_callbacks name polls h⟩
  have hreached : Reached convert script 0 := fun k hk => absurd hk (Nat.not_lt_zero k)
  obtain ⟨i, -, hseen, -⟩ := exists_told name hlive htime hreached
  refine ⟨i, ?_⟩
  rw [← callbacks_of_seen, hseen]
  exact head?_account h 0

/-- A watch asks for a second stream before it calls back if and only if the agent closes
the first one before it brings anything. -/
theorem asks_again_iff :
    (∃ i, (moment name convert script polls i).opened = 2 ∧
      (moment name convert script polls i).callbacks = []) ↔ (script 0).IsEmpty true := by
  constructor
  · rintro ⟨i, hopened, hnone⟩
    have hopened : 1 < (moment name convert script polls i).opened := by omega
    have htold := (account_le_seen hlive hopened).filterMap Effect.callback?
    rw [callbacks_of_seen, hnone] at htold
    obtain ⟨closes, hempty⟩ := Attempt.isEmpty_of_reports (List.prefix_nil.mp htold)
    cases closes with
    | true => exact hempty
    | false =>
      -- a stream that is silent for good does not end
      obtain ⟨outcome, hends, -⟩ :=
        (moment_fits name convert script hlive i).reached hopened 0 Nat.one_pos
      cases (Attempt.of_isEmpty convert hempty).2.symm.trans hends
  · intro hempty
    obtain ⟨hcallbacks, hends⟩ := Attempt.of_isEmpty convert hempty
    have hreached : Reached convert script 1 := fun k hk => by
      obtain rfl := Nat.lt_one_iff.mp hk
      exact ⟨.ok (), hends, nofun⟩
    obtain ⟨i, hopened, hseen, hsettled⟩ :=
      exists_told name hlive htime (hreached.of_le (Nat.zero_le 1))
    have hopening := opening_of_settled hlive hsettled (hopened ▸ hreached)
    obtain ⟨j, hj, hsame⟩ := exists_opened hlive htime hopening
    refine ⟨j, by rw [hj, hopened], ?_⟩
    rw [hsame, ← callbacks_of_seen, hseen, account, hcallbacks]
    rfl

omit htime in
/-- A watch on a stream that is silent for good waits for it. -/
theorem waits_of_isEmpty (h : (script 0).IsEmpty false) (i : Nat) :
    (moment name convert script polls i).opened ≤ 1 ∧
      (moment name convert script polls i).callbacks = [] := by
  have hfits := moment_fits name convert script hlive i
  have hnone := Attempt.of_isEmpty convert h
  have hle : (moment name convert script polls i).opened ≤ 1 := by
    by_contra hlt
    obtain ⟨outcome, hends, -⟩ := hfits.reached (Nat.lt_of_not_le hlt) 0 Nat.one_pos
    cases hnone.2.symm.trans hends
  refine ⟨hle, ?_⟩
  have hseen := (hfits.seen_of_account.trans (account_le convert script hle)).filterMap
    Effect.callback?
  rw [callbacks_of_seen, account, hnone.1] at hseen
  exact List.prefix_nil.mp hseen

end

end Watch

/-! ### Calls -/

namespace Session

/-- **One call agrees with a watch on the same stream.** For each of the three streams, and
whatever the agent does: what the call for the first message gives is what a watch that is
sent the same calls back with first, if its token does not fire and time passes. This goes
for an update, a status and a message that makes no sense; it does not if the agent closes
the stream before it brings anything. The call fails then, the first attempt of the watch
ends without a callback and the watch asks again; and this is the only case in which it
does so before it calls back. There is no answer if and only if the watch waits for the
first stream for good. And the answer depends on nothing but the first item: with any two
streams that begin with the same, it is the same.

The call for one identity gives the default identity of the context wherever there is a
context, and fails only where there is none, for the same cause. -/
theorem fetch_agrees_with_watch (s : Session) (kind : StreamKind) {polls : Nat → Watch.Poll}
    (hlive : Watch.NeverCancelled polls) (htime : Watch.TimePasses polls) :
    let attempt := s.agent.next kind
    let watch := Watch.moment kind.name Message.toUpdate (Watch.attempts s.agent kind) polls
    (∀ value, s.fetched kind = some (.ok value) → Watch.IsFirst watch (.ok value)) ∧
    (∀ cause, s.fetched kind = some (.error cause) → ¬ attempt.IsEmpty true →
      Watch.IsFirst watch (.error cause)) ∧
    (s.fetched kind = some (.error .emptyResponse) ∧ attempt.IsEmpty true ↔
      ∃ i, (watch i).opened = 2 ∧ (watch i).callbacks = []) ∧
    (s.fetched kind = none ↔ ∀ i, (watch i).opened ≤ 1 ∧ (watch i).callbacks = []) ∧
    (∀ (s' : Session) (item : Item Message),
      attempt.Begins item → (s'.agent.next kind).Begins item →
      s'.fetched kind = s.fetched kind ∧
        (kind = .x509Context → s'.fetchX509Svid.1 = s.fetchX509Svid.1)) ∧
    (∀ context, s.fetchX509Context.1 = some (.ok context) →
      ∃ svid, context.defaultSvid? = some svid ∧ s.fetchX509Svid.1 = some (.ok svid)) ∧
    ∀ cause, s.fetchX509Svid.1 = some (.error cause) →
      s.fetchX509Context.1 = some (.error cause) := by
  intro attempt watch
  have hanswer : s.fetched kind = attempt.answer Message.toUpdate := s.fetched_eq kind
  have hagain : (∃ i, (watch i).opened = 2 ∧ (watch i).callbacks = []) ↔ attempt.IsEmpty true :=
    Watch.asks_again_iff hlive htime
  have hfirst {result : Except ApiError Update} (hresult : s.fetched kind = some result)
      (hclosed : ¬ attempt.IsEmpty true) : Watch.IsFirst watch result :=
    Watch.isFirst_of_head? hlive htime
      (Attempt.head?_reports_of_answer (hanswer.symm.trans hresult) hclosed)
  have hempty (hclosed : attempt.IsEmpty true) :
      s.fetched kind = some (.error .emptyResponse) :=
    hanswer.trans (Attempt.answer_of_isEmpty hclosed)
  refine ⟨fun value hvalue => ?_, fun cause hcause hclosed => hfirst hcause hclosed, ?_, ?_,
    fun s' item hitem hitem' => ?_, fun context => s.fetchX509Svid_of_context,
    fun cause => s.fetchX509Context_of_svid⟩
  · refine hfirst hvalue fun hclosed => ?_
    cases (hempty hclosed).symm.trans hvalue
  · rw [hagain]
    exact ⟨fun h => h.2, fun h => ⟨hempty h, h⟩⟩
  · constructor
    · intro hnone
      rw [hanswer, Attempt.answer_eq_none_iff] at hnone
      exact Watch.waits_of_isEmpty hlive hnone
    · intro hwaits
      cases hresult : s.fetched kind with
      | none => rfl
      | some result =>
        have hclosed : ¬ attempt.IsEmpty true := by
          rw [← hagain]
          rintro ⟨i, hopened, -⟩
          have hle := (hwaits i).1
          omega
        obtain ⟨⟨i, hi⟩, -⟩ := hfirst hresult hclosed
        rw [(hwaits i).2] at hi
        cases hi
  · constructor
    · rw [hanswer, fetched_eq, Attempt.answer_of_begins hitem, Attempt.answer_of_begins hitem']
    · rintro rfl
      rw [fetchX509Svid_eq, fetchX509Svid_eq, Attempt.answer_of_begins hitem,
        Attempt.answer_of_begins hitem']

/-- A context after some silence, with a status behind it; a stream that is refused, and one
that is closed unused. -/
theorem fetch_agrees_with_watch_late :
    let refusal : Status := ⟨.permissionDenied, "no workload"⟩
    let agent : Agent := {
      x509Svids := [.opened [.delay 5, .message X509Context.rotation, .status refusal] true]
      x509Bundles := [.rejected refusal]
      jwtBundles := [.opened [.delay 3] true]
      jwtSvids := []
      validations := [] }
    let s := start agent .standard
    let polls : Nat → Watch.Poll := fun i => ⟨false, i, .standard⟩
    let watch := fun kind : StreamKind =>
      Watch.moment kind.name Message.toUpdate (Watch.attempts agent kind) polls
    Watch.NeverCancelled polls ∧ Watch.TimePasses polls ∧
      (∃ context svid, s.fetchX509Context.1 = some (.ok context) ∧
        Watch.IsFirst (watch .x509Context) (.ok (.x509Context context)) ∧
        context.defaultSvid? = some svid ∧ s.fetchX509Svid.1 = some (.ok svid)) ∧
      Watch.IsFirst (watch .x509Bundles) (.error (.status refusal)) ∧
      s.fetchJwtBundles.1 = some (.error .emptyResponse) ∧
      ∃ i, (watch .jwtBundles i).opened = 2 ∧ (watch .jwtBundles i).callbacks = [] := by
  intro refusal agent s polls watch
  have hlive : Watch.NeverCancelled polls := fun _ => rfl
  have htime : Watch.TimePasses polls := fun t => ⟨t, fun _ => id⟩
  have hreads : (X509Context.ofResponse X509Context.rotation).toOption.isSome = true := by
    decide +kernel
  obtain ⟨context, hcontext⟩ := Option.isSome_iff_exists.mp hreads
  have hcontext : s.fetchX509Context.1 = some (.ok context) := by
    rw [fetchX509Context, first_eq]
    show (Attempt.opened [.delay 5, .message X509Context.rotation, .status refusal]
      true).answer _ = _
    rw [Attempt.answer_opened_delay, Attempt.answer_opened_message, ok_of_result.mp hcontext]
  obtain ⟨hupdate, -, -, -, -, hdefault, -⟩ := s.fetch_agrees_with_watch .x509Context hlive htime
  obtain ⟨-, hfails, -⟩ := s.fetch_agrees_with_watch .x509Bundles hlive htime
  obtain ⟨-, -, hagain, -⟩ := s.fetch_agrees_with_watch .jwtBundles hlive htime
  obtain ⟨svid, hsvid, hfirst⟩ := hdefault context hcontext
  have hclosed : (s.agent.next .jwtBundles).IsEmpty true :=
    ⟨_, rfl, fun pause hpause => by rw [List.mem_singleton.mp hpause]; trivial⟩
  refine ⟨hlive, htime, ⟨context, svid, hcontext, hupdate _ ?_, hsvid, hfirst⟩,
    hfails _ rfl ?_, rfl, hagain.mp ⟨rfl, hclosed⟩⟩
  · rw [fetched, hcontext]
    rfl
  · rintro ⟨pauses, hopened, -⟩
    cases hopened

/-- What a recorder is told first by a watch is what the call gives, whenever the token
fires. -/
theorem first_event_of_watch {s : Session} {kind : StreamKind} {cancelled : Bool}
    {fireAfter : Option Nat} {fireAt : Nat} {report : Watch.Report}
    (hreport : s.watch [kind] cancelled fireAfter fireAt = some report)
    {result : Except ApiError Update} (hresult : s.fetched kind = some result)
    (hclosed : ¬ (s.agent.next kind).IsEmpty true) :
    report.events = [] ∨ (report.events.map (·.content)).head? = some result := by
  obtain ⟨polls, i, hevents, -⟩ := s.watch_isMoment hreport
  have hhead := Attempt.head?_reports_of_answer ((s.fetched_eq kind).symm.trans hresult) hclosed
  have hfirst : (Watch.moment kind.name Message.toUpdate (Watch.attempts s.agent kind) polls
      i).callbacks = [] ∨ _ = some result := Watch.head?_callbacks kind.name polls hhead i
  rw [← hevents, List.map_eq_nil_iff] at hfirst
  exact hfirst

end Session
end WorkloadIdentity
