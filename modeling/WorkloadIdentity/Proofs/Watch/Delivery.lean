/-
# What a watch tells

As long as the token does not fire, a watch tells what the agent's streams
account for, attempt by attempt, and nothing else. The invariant is `Fits`, which
says phase by phase what of the present attempt is still to come; so all that has
been told is the beginning of the account at every moment. That every attempt is
told of to its end is a matter of time: `Phase.left` counts the steps that a
phase is away from there, and goes down with each.

Key definitions: `Watch.Within`, `Watch.Fits`, `Watch.Phase.left`.
Key theorems: `Watch.step_fits`, `Watch.moment_fits`, `Watch.exists_told`,
`Watch.delivery_exact`.
-/
import WorkloadIdentity.Proofs.Watch.Run

namespace WorkloadIdentity
namespace Watch

variable {μ ν : Type} (name : String) (convert : μ → Except ApiError ν)
  (script : Nat → Attempt μ)

/-! ### What is still to come -/

/-- The callback for how an attempt ends. -/
def closing : Except ApiError Unit → List (Effect ν)
  | .ok () => []
  | .error cause => [.failed cause]

/-- So many streams have been asked for, and the last one will bring these items
before it ends as its attempt does. -/
def Within (n : Nat) (seen : List (Effect ν)) (items : List (Item μ)) (closes : Bool) : Prop :=
  ∃ k, n = k + 1 ∧ Reached convert script k ∧
    (Attempt.opened items closes).outcome? convert = (script k).outcome? convert ∧
    seen ++ (Attempt.opened items closes).callbacks convert = account convert script (k + 1)

/-- Where a watch stands that has asked for so many streams and has told so
much. -/
def Fits (n : Nat) (seen : List (Effect ν)) : Phase μ → Prop
  | .opening | .pausing _ | .sleeping _ =>
    Reached convert script n ∧ seen = account convert script n
  | .reading items closes => Within convert script n seen items closes
  | .awaiting timer items closes =>
    (timer = none → items = [] ∧ closes = false) ∧ Within convert script n seen items closes
  | .over outcome => ∃ k, n = k + 1 ∧ Reached convert script k ∧
      (script k).outcome? convert = some outcome ∧
      seen ++ closing outcome = account convert script (k + 1)
  | .ended result => ∃ k cause, n = k + 1 ∧ Reached convert script k ∧
      (script k).outcome? convert = some (.error cause) ∧ cause.IsFinal ∧
      seen = account convert script (k + 1) ∧ result = .error cause

variable {name convert script} {polls : Nat → Poll} {n : Nat} {seen : List (Effect ν)}

/-! ### One step -/

variable (convert script) in
/-- Where a watch stands after a step. -/
def Move.Fits (n : Nat) (seen : List (Effect ν)) (move : Move μ ν) : Prop :=
  Watch.Fits convert script (n + move.effects.countP Effect.isOpening)
    (seen ++ move.effects.filter (!·.isRecord)) move.phase

theorem openStream_fits {around : Surroundings μ} (hnext : around.next = script n)
    (hreached : Reached convert script n) (hseen : seen = account convert script n) :
    Move.Fits convert script n seen (openStream around) := by
  subst hseen
  unfold openStream
  rw [hnext]
  cases hscript : script n with
  | rejected cause =>
    refine ⟨n, rfl, hreached, by rw [hscript]; rfl, ?_⟩
    rw [account, hscript, List.append_assoc]
    rfl
  | opened items closes =>
    refine ⟨n, rfl, hreached, by rw [hscript], ?_⟩
    rw [account, hscript, List.append_assoc]
    rfl

/-- Reading an item leaves the rest of the stream to come. -/
theorem readItem_fits {around : Surroundings μ} {items : List (Item μ)} {closes : Bool}
    (h : Within convert script n seen items closes) :
    Move.Fits convert script n seen (readItem convert around closes items) := by
  obtain ⟨k, rfl, hreached, houtcome, hseen⟩ := h
  match items with
  | [] =>
    rw [Attempt.outcome?_opened_nil] at houtcome
    rw [Attempt.callbacks_opened_nil, List.append_nil] at hseen
    cases closes with
    | true =>
      refine ⟨k, rfl, hreached, houtcome.symm, ?_⟩
      simpa [readItem, goOn, closing] using hseen
    | false =>
      refine ⟨fun _ => ⟨rfl, rfl⟩, k, rfl, hreached, houtcome, ?_⟩
      simpa [readItem, goOn, Attempt.callbacks_opened_nil] using hseen
  | .message content :: rest =>
    simp only [readItem]
    cases hconvert : convert content with
    | ok value =>
      rw [Attempt.outcome?_opened_ok _ _ hconvert] at houtcome
      rw [Attempt.callbacks_opened_ok _ _ hconvert] at hseen
      refine ⟨k, rfl, hreached, houtcome, ?_⟩
      rw [← hseen, List.append_assoc]
      rfl
    | error cause =>
      rw [Attempt.outcome?_opened_error _ _ hconvert] at houtcome
      rw [Attempt.callbacks_opened_error _ _ hconvert] at hseen
      exact ⟨k, rfl, hreached, houtcome.symm, by simpa [goOn, closing] using hseen⟩
  | .status cause :: _ =>
    rw [Attempt.outcome?_opened_status] at houtcome
    rw [Attempt.callbacks_opened_status] at hseen
    exact ⟨k, rfl, hreached, houtcome.symm, by simpa [readItem, goOn, closing] using hseen⟩
  | .delay millis :: rest =>
    rw [Attempt.outcome?_opened_delay] at houtcome
    rw [Attempt.callbacks_opened_delay] at hseen
    have hwithin : Within convert script (k + 1) seen rest closes :=
      ⟨k, rfl, hreached, houtcome, hseen⟩
    cases millis with
    | zero => simpa [readItem, goOn, Move.Fits, Fits] using hwithin
    | succ millis => simpa [readItem, goOn, Move.Fits, Fits] using hwithin

theorem closed_fits {around : Surroundings μ} {k : Nat} (hreached : Reached convert script k)
    (houtcome : (script k).outcome? convert = some (.ok ()))
    (hseen : seen = account convert script (k + 1)) :
    Move.Fits convert script (k + 1) seen (closed name around) := by
  refine ⟨hreached.succ ⟨_, houtcome, nofun⟩, ?_⟩
  simpa [closed, Effect.isRecord, Effect.isOpening] using hseen

theorem failed_fits {around : Surroundings μ} {k : Nat} {cause : ApiError}
    (hreached : Reached convert script k)
    (houtcome : (script k).outcome? convert = some (.error cause))
    (hseen : seen ++ [.failed cause] = account convert script (k + 1)) :
    Move.Fits convert script (k + 1) seen (failed name around cause) := by
  unfold failed
  split
  · rename_i hterminal
    refine ⟨k, cause, rfl, hreached, houtcome, cause.isTerminal_iff.mp hterminal, ?_, rfl⟩
    simpa [Effect.isRecord] using hseen
  · rename_i hretried
    have hsucc := hreached.succ ⟨_, houtcome, by
      rintro _ ⟨⟩ hfinal
      exact hretried (cause.isTerminal_iff.mpr hfinal)⟩
    refine ⟨hsucc, ?_⟩
    simpa [Effect.isRecord, Effect.isOpening] using hseen

/-- A step of a watch that goes on, with the token not fired and the next attempt
ahead, tells what fits. -/
theorem step_fits {phase : Phase μ} {around : Surroundings μ} {move : Move μ ν}
    (h : Fits convert script n seen phase) (hnext : around.next = script n)
    (hstep : LiveStep name convert around phase move) : Move.Fits convert script n seen move := by
  cases hstep with
  | opening => exact openStream_fits hnext h.1 h.2
  | reading items closes => exact readItem_fits h
  | closed =>
    obtain ⟨k, rfl, hreached, houtcome, hseen⟩ := h
    exact closed_fits hreached houtcome (by simpa [closing] using hseen)
  | failed cause =>
    obtain ⟨k, rfl, hreached, houtcome, hseen⟩ := h
    exact failed_fits hreached houtcome hseen
  | skipping | pausing | waking => simpa [goOn, Move.Fits, Fits] using h
  | arriving => simpa [goOn, Move.Fits, Fits] using h.2

/-! ### What a moment says of the account -/

namespace Fits

variable {phase : Phase μ}

/-- Nothing but the account has been told. -/
theorem seen_of_account (h : Fits convert script n seen phase) :
    seen <+: account convert script n := by
  cases phase with
  | opening | pausing | sleeping => exact h.2 ▸ List.prefix_refl _
  | reading items closes =>
    obtain ⟨k, rfl, -, -, hseen⟩ := h
    exact ⟨_, hseen⟩
  | awaiting timer items closes =>
    obtain ⟨-, k, rfl, -, -, hseen⟩ := h
    exact ⟨_, hseen⟩
  | «over» outcome =>
    obtain ⟨k, rfl, -, -, hseen⟩ := h
    exact ⟨_, hseen⟩
  | ended result =>
    obtain ⟨k, cause, rfl, -, -, -, hseen, -⟩ := h
    exact hseen ▸ List.prefix_refl _

/-- Only attempts that come about have been begun. -/
theorem reached {k : Nat} (h : Fits convert script n seen phase) (hk : k < n) :
    Reached convert script k := by
  suffices hlast : ∀ m, n = m + 1 → Reached convert script m by
    obtain ⟨m, rfl⟩ := Nat.exists_eq_succ_of_ne_zero (Nat.ne_zero_of_lt hk)
    exact (hlast m rfl).of_le (Nat.le_of_lt_succ hk)
  rintro m rfl
  cases phase with
  | opening | pausing | sleeping => exact h.1.of_le (Nat.le_succ _)
  | reading items closes =>
    obtain ⟨_, ⟨⟩, hreached, -⟩ := h
    exact hreached
  | awaiting timer items closes =>
    obtain ⟨-, _, ⟨⟩, hreached, -⟩ := h
    exact hreached
  | «over» outcome =>
    obtain ⟨_, ⟨⟩, hreached, -⟩ := h
    exact hreached
  | ended result =>
    obtain ⟨_, _, ⟨⟩, hreached, -⟩ := h
    exact hreached

/-- A watch at rest has told all, and there is no next attempt. -/
theorem of_isAtRest (h : Fits convert script n seen phase) (hrest : phase.IsAtRest) :
    seen = account convert script n ∧ ¬ Reached convert script n := by
  cases phase with
  | awaiting timer items closes =>
    cases timer with
    | some timer => exact hrest.elim
    | none =>
      obtain ⟨hsilent, k, rfl, -, houtcome, hseen⟩ := h
      obtain ⟨rfl, rfl⟩ := hsilent rfl
      rw [Attempt.outcome?_opened_nil] at houtcome
      rw [Attempt.callbacks_opened_nil, List.append_nil] at hseen
      refine ⟨hseen, fun hreached => ?_⟩
      obtain ⟨outcome, hretried, -⟩ := hreached k (Nat.lt_succ_self k)
      rw [hretried] at houtcome
      cases houtcome
  | ended result =>
    obtain ⟨k, cause, rfl, -, houtcome, hfinal, hseen, -⟩ := h
    refine ⟨hseen, fun hreached => ?_⟩
    obtain ⟨outcome, hretried, hnot⟩ := hreached k (Nat.lt_succ_self k)
    exact hnot cause (Option.some.inj (hretried.symm.trans houtcome)) hfinal
  | _ => exact hrest.elim

end Fits

variable (name convert script) in
theorem moment_fits (hlive : NeverCancelled polls) (i : Nat) :
    Fits convert script (moment name convert script polls i).opened
      (moment name convert script polls i).seen (moment name convert script polls i).phase := by
  refine moment_inv (P := fun m => Fits convert script m.opened m.seen m.phase)
    ⟨nofun, rfl⟩ (fun i move h hmove => ?_) i
  rw [seen_after]
  exact step_fits h rfl (liveStep_of_step (hlive i) hmove)

/-! ### How long an attempt lasts -/

/-- More than the steps until the watch asks for the next stream or is at
rest. -/
def Phase.left : Phase μ → Nat
  | .opening | .ended _ | .awaiting none _ _ => 0
  | .sleeping _ => 1
  | .pausing _ => 2
  | .over _ => 3
  | .reading items _ => 2 * items.length + 4
  | .awaiting (some _) items _ => 2 * items.length + 5

/-- Within an attempt no stream is asked for, and its end comes nearer. -/
theorem left_step {around : Surroundings μ} {phase : Phase μ} {move : Move μ ν}
    (hphase : phase ≠ .opening) (hstep : LiveStep name convert around phase move) :
    move.effects.countP Effect.isOpening = 0 ∧ move.phase.left < phase.left := by
  cases hstep with
  | opening => exact absurd rfl hphase
  | reading items closes =>
    match items with
    | [] => cases closes <;> simp [readItem, goOn, Phase.left]
    | .message content :: rest =>
      cases hconvert : convert content <;>
        simp [readItem, hconvert, goOn, Phase.left, Effect.isOpening]
    | .status cause :: rest => simp [readItem, goOn, Phase.left]
    | .delay 0 :: rest => simp [readItem, goOn, Phase.left]
    | .delay (millis + 1) :: rest => simp [readItem, goOn, Phase.left]; omega
  | closed => simp [closed, Phase.left, Effect.isOpening]
  | failed cause =>
    unfold failed
    split <;> simp [Phase.left, Effect.isOpening]
  | skipping | pausing | arriving | waking => simp [goOn, Phase.left]

/-! ### Every attempt is told of in full -/

section

variable (hlive : NeverCancelled polls) (htime : TimePasses polls)
include hlive htime

variable (name convert script) in
/-- Some time the attempt is over for good: the watch is about to ask for the next
stream, or at rest. -/
theorem exists_settled (i : Nat) :
    ∃ j, (moment name convert script polls j).opened = (moment name convert script polls i).opened ∧
      ((moment name convert script polls j).phase = .opening ∨
        (moment name convert script polls j).phase.IsAtRest) := by
  -- induction on the steps left
  induction hleft : (moment name convert script polls i).phase.left using Nat.strong_induction_on
    generalizing i with
  | _ left ih =>
    by_cases hopening : (moment name convert script polls i).phase = .opening
    · exact ⟨i, rfl, .inl hopening⟩
    by_cases hrest : (moment name convert script polls i).phase.IsAtRest
    · exact ⟨i, rfl, .inr hrest⟩
    obtain ⟨j, move, -, hsame, hmove⟩ := exists_step htime hrest
    have hnext := moment_succ_of_some hmove
    rw [hsame] at hmove hnext
    obtain ⟨hnone, hless⟩ := left_step hopening (liveStep_of_step (hlive j) hmove)
    have hopened : (moment name convert script polls (j + 1)).opened =
        (moment name convert script polls i).opened := by
      rw [hnext, Moment.after, hnone, Nat.add_zero]
    have hphase : (moment name convert script polls (j + 1)).phase = move.phase := by
      rw [hnext, Moment.after]
    obtain ⟨k, hk, hsettled⟩ := ih _ (by rw [← hleft, hphase]; exact hless) (j + 1) rfl
    exact ⟨k, hk.trans hopened, hsettled⟩

omit htime in
/-- A watch that has settled is about to ask for a stream, if the next attempt comes about. -/
theorem opening_of_settled {i : Nat}
    (hsettled : (moment name convert script polls i).phase = .opening ∨
      (moment name convert script polls i).phase.IsAtRest)
    (hreached : Reached convert script (moment name convert script polls i).opened) :
    (moment name convert script polls i).phase = .opening := by
  refine hsettled.resolve_right fun hrest => ?_
  exact ((moment_fits name convert script hlive i).of_isAtRest hrest).2 hreached

/-- A watch that is about to ask for a stream does so before it calls back. -/
theorem exists_opened {i : Nat} (hopening : (moment name convert script polls i).phase = .opening) :
    ∃ j, (moment name convert script polls j).opened =
        (moment name convert script polls i).opened + 1 ∧
      (moment name convert script polls j).callbacks =
        (moment name convert script polls i).callbacks := by
  have hrest : ¬ (moment name convert script polls i).phase.IsAtRest := by
    rw [hopening]
    exact id
  obtain ⟨j, move, -, hsame, hmove⟩ := exists_step htime hrest
  have hstep := liveStep_of_step (hlive j) hmove
  rw [hsame, hopening] at hstep
  refine ⟨j + 1, ?_⟩
  rw [moment_succ_of_some hmove, hsame, callbacks_after]
  cases hstep
  unfold openStream
  split <;> exact ⟨rfl, List.append_nil _⟩

/-- An attempt that is about to begin is told of in full. -/
theorem exists_told_of_opening {i : Nat}
    (hopening : (moment name convert script polls i).phase = .opening) :
    ∃ j, (moment name convert script polls j).opened =
        (moment name convert script polls i).opened + 1 ∧
      (moment name convert script polls j).seen =
        account convert script ((moment name convert script polls i).opened + 1) ∧
      ((moment name convert script polls j).phase = .opening ∨
        (moment name convert script polls j).phase.IsAtRest) := by
  obtain ⟨j, hj, -⟩ := exists_opened hlive htime hopening
  obtain ⟨k, hk, hsettled⟩ :=
    exists_settled name convert script hlive htime j
  have hopened := hk.trans hj
  have hfits := moment_fits name convert script hlive k
  refine ⟨k, hopened, ?_, hsettled⟩
  rw [← hopened]
  cases hsettled with
  | inl hphase =>
    rw [hphase] at hfits
    exact hfits.2
  | inr hrest => exact (hfits.of_isAtRest hrest).1

variable (name) in
/-- An attempt that comes about is told of in full. -/
theorem exists_told (hreached : Reached convert script n) :
    ∃ i, (moment name convert script polls i).opened = n + 1 ∧
      (moment name convert script polls i).seen = account convert script (n + 1) ∧
      ((moment name convert script polls i).phase = .opening ∨
        (moment name convert script polls i).phase.IsAtRest) := by
  induction n with
  | zero => exact exists_told_of_opening hlive htime (i := 0) rfl
  | succ n ih =>
    obtain ⟨i, hopened, -, hsettled⟩ := ih (hreached.of_le (Nat.le_succ n))
    have hopening := opening_of_settled hlive hsettled (hopened ▸ hreached)
    have htold := exists_told_of_opening hlive htime hopening
    rwa [hopened] at htold

end

/-! ### The end -/

/-- An attempt that fails is told of with its failure last. -/
theorem callbacks_of_failed {attempt : Attempt μ} {cause : ApiError}
    (h : attempt.outcome? convert = some (.error cause)) :
    attempt.callbacks convert = (attempt.updates convert).map .update ++ [.failed cause] := by
  unfold Attempt.outcome? at h
  cases hfailure : attempt.failure? convert with
  | none =>
    rw [hfailure] at h
    dsimp only at h
    split at h <;> cases h
  | some found =>
    rw [hfailure] at h
    cases h
    rw [Attempt.callbacks, hfailure]
    rfl

/-- Nothing happens to a watch that has ended. -/
theorem moment_of_ended {i j : Nat} {result : Except ApiError Unit} (hij : i ≤ j)
    (h : (moment name convert script polls i).phase = .ended result) :
    moment name convert script polls j = moment name convert script polls i := by
  obtain ⟨d, rfl⟩ := Nat.exists_eq_add_of_le hij
  refine moment_add_of_none fun k _ _ => ?_
  rw [move?, h]
  rfl

/-- A watch ends with the final failure of its last attempt, if its token does
not fire. -/
theorem of_ended (hlive : NeverCancelled polls) {i : Nat} {result : Except ApiError Unit}
    (h : (moment name convert script polls i).phase = .ended result) :
    ∃ n cause, result = .error cause ∧ cause.IsFinal ∧
      (script n).outcome? convert = some (.error cause) ∧
      (moment name convert script polls i).opened = n + 1 ∧
      (moment name convert script polls i).seen =
        account convert script n ++
          .opened :: ((script n).updates convert).map .update ++ [.failed cause] := by
  have hfits := moment_fits name convert script hlive i
  rw [h] at hfits
  obtain ⟨n, cause, hopened, -, houtcome, hfinal, hseen, rfl⟩ := hfits
  refine ⟨n, cause, rfl, hfinal, houtcome, hopened, ?_⟩
  rw [hseen, account, callbacks_of_failed houtcome, List.append_assoc, List.cons_append]

/-- A final failure of an attempt that comes about ends the watch. -/
theorem exists_ended (hlive : NeverCancelled polls) (htime : TimePasses polls)
    (hreached : Reached convert script n) {cause : ApiError}
    (houtcome : (script n).outcome? convert = some (.error cause)) (hfinal : cause.IsFinal) :
    ∃ i, (moment name convert script polls i).phase = .ended (.error cause) := by
  obtain ⟨i, hopened, -, hsettled⟩ := exists_told name hlive htime hreached
  have hfits := moment_fits name convert script hlive i
  refine ⟨i, ?_⟩
  rw [hopened] at hfits
  generalize (moment name convert script polls i).phase = phase at hfits hsettled
  rcases hsettled with rfl | hrest
  · -- the next stream is not asked for
    obtain ⟨outcome, hretried, hnot⟩ := hfits.1 n (Nat.lt_succ_self n)
    exact absurd hfinal (hnot cause (Option.some.inj (hretried.symm.trans houtcome)))
  cases phase with
  | awaiting timer items closes =>
    cases timer with
    | some timer => exact hrest.elim
    | none =>
      obtain ⟨hsilent, _, ⟨⟩, -, hsame, -⟩ := hfits
      obtain ⟨rfl, rfl⟩ := hsilent rfl
      rw [houtcome] at hsame
      cases hsame
  | ended result =>
    obtain ⟨_, _, ⟨⟩, -, hsame, -, -, rfl⟩ := hfits
    rw [houtcome] at hsame
    cases hsame
    rfl
  | _ => exact hrest.elim

/-- **What a watch tells is exact.** As long as the token does not fire and time
passes, whatever the agent does and whoever shares the backoff: what has been told
at a moment is the beginning of the account of the streams asked for, and is added
to only; a stream is asked for if and only if all attempts before it end without a
final status, and then its attempt is told of in full some time. The watch ends if
and only if an attempt that it comes to ends with a final status; that is its
result and its last callback, and nothing happens after that. -/
theorem delivery_exact (name : String) (convert : μ → Except ApiError ν)
    (script : Nat → Attempt μ) {polls : Nat → Poll} (hlive : NeverCancelled polls)
    (htime : TimePasses polls) :
    let watch := moment name convert script polls
    (∀ i, (watch i).seen <+: account convert script (watch i).opened) ∧
    (∀ i j, i ≤ j → (watch i).seen <+: (watch j).seen) ∧
    (∀ n, (∃ i, n < (watch i).opened) ↔ Reached convert script n) ∧
    (∀ n, Reached convert script n →
      ∃ i, (watch i).opened = n + 1 ∧ (watch i).seen = account convert script (n + 1)) ∧
    (∀ n cause, Reached convert script n →
      (script n).outcome? convert = some (.error cause) → cause.IsFinal →
      ∃ i, (watch i).phase = .ended (.error cause)) ∧
    (∀ i result, (watch i).phase = .ended result →
      (∃ n cause, result = .error cause ∧ cause.IsFinal ∧
        (script n).outcome? convert = some (.error cause) ∧ (watch i).opened = n + 1 ∧
        (watch i).seen = account convert script n ++
          .opened :: ((script n).updates convert).map .update ++ [.failed cause]) ∧
      ∀ j, i ≤ j → watch j = watch i) := by
  intro watch
  refine ⟨fun i => (moment_fits name convert script hlive i).seen_of_account,
    fun i j => seen_le, fun n => ⟨?_, ?_⟩, fun n hreached => ?_,
    fun n cause hreached => exists_ended hlive htime hreached,
    fun i result h => ⟨of_ended hlive h, fun j hij => moment_of_ended hij h⟩⟩
  · rintro ⟨i, hi⟩
    exact (moment_fits name convert script hlive i).reached hi
  · intro hreached
    obtain ⟨i, hopened, -⟩ := exists_told name hlive htime hreached
    exact ⟨i, hopened ▸ Nat.lt_succ_self n⟩
  · obtain ⟨i, hopened, hseen, -⟩ := exists_told name hlive htime hreached
    exact ⟨i, hopened, hseen⟩

/-- A stream whose second message makes no sense is asked for again, and refused
for good. -/
theorem delivery_exact_refused :
    let convert : Nat → Except ApiError Nat := fun m =>
      if m = 0 then .error .emptyResponse else .ok m
    let script : Nat → Attempt Nat := fun
      | 0 => .opened [.message 7, .message 0, .message 8] true
      | _ => .rejected ⟨.invalidArgument, "no workload"⟩
    let polls : Nat → Poll := fun i => ⟨false, i, .standard⟩
    let watch := moment "X.509 context" convert script polls
    NeverCancelled polls ∧ TimePasses polls ∧
      (∃ i, (watch i).opened = 2 ∧ (watch i).seen = [.opened, .update 7, .failed .emptyResponse,
        .opened, .failed (.status ⟨.invalidArgument, "no workload"⟩)]) ∧
      ∃ i, (watch i).phase = .ended (.error (.status ⟨.invalidArgument, "no workload"⟩)) := by
  intro convert script polls watch
  have hlive : NeverCancelled polls := fun _ => rfl
  have htime : TimePasses polls := fun t => ⟨t, fun _ => id⟩
  have hreached : Reached convert script 1 := by
    intro k hk
    obtain rfl := Nat.lt_one_iff.mp hk
    refine ⟨.error .emptyResponse, rfl, ?_⟩
    rintro _ ⟨⟩ ⟨status, h, -⟩
    cases h
  obtain ⟨-, -, -, htold, hends, -⟩ := delivery_exact "X.509 context" convert script hlive htime
  exact ⟨hlive, htime, htold 1 hreached, hends 1 _ hreached rfl ⟨_, rfl, .inr rfl⟩⟩

end Watch
end WorkloadIdentity
