/-
# Backoffs that tasks share

Tasks that share a backoff ask it for delays and reset it, in any order: `Shared.run`
serves one request after the other, each as a whole, and keeps what was served. The
counter is the number of delays handed out since the last reset, or since the
beginning, as long as a word of 32 bits holds that number (`Shared.run_counts`).

So delays do not shrink without a reset until the word is full. The number of attempts
that a delay is made from saturates there, but the counter wraps: after as many delays as
a word has values it is zero, and the next delay is the first one again.
`delays_grow_until_wrap` says exactly where delays and counter go down.

Key definitions: `Backoff.Request`, `Backoff.Service`, `Backoff.Shared`,
`Backoff.Shared.run`, `Backoff.sinceReset`.
Key theorems: `Backoff.Shared.run_counts`, `Backoff.Shared.run_answers`,
`Backoff.delays_exact_and_counted`, `Backoff.delays_grow_until_wrap`.
-/
import WorkloadIdentity.Proofs.Backoff

namespace WorkloadIdentity
namespace Backoff

/-! ### Delays in a row -/

/-- The backoff after so many more delays. -/
def after (b : Backoff) (delays : Nat) : Backoff :=
  { b with attempt := b.attempt + .ofNat delays }

theorem after_zero (b : Backoff) : b.after 0 = b := by
  show { b with attempt := b.attempt + 0 } = b
  rw [UInt32.add_zero]

theorem next_after (b : Backoff) (delays : Nat) :
    (b.after delays).next.2 = b.after (delays + 1) := by
  show { b with attempt := b.attempt + .ofNat delays + 1 } = b.after (delays + 1)
  rw [after, UInt32.ofNat_add, ← UInt32.add_assoc]
  rfl

theorem after_next (b : Backoff) (delays : Nat) : b.next.2.after delays = b.after (delays + 1) := by
  show { b with attempt := b.attempt + 1 + .ofNat delays } = b.after (delays + 1)
  rw [after, UInt32.ofNat_add, UInt32.add_comm (.ofNat delays), ← UInt32.add_assoc]
  rfl

theorem toNat_attempt_after (b : Backoff) (delays : Nat) :
    (b.after delays).attempt.toNat = (b.attempt.toNat + delays) % UInt32.size := by
  show (b.attempt + .ofNat delays).toNat = _
  rw [UInt32.toNat_add, UInt32.toNat_ofNat']
  show (_ + delays % UInt32.size) % UInt32.size = _
  rw [Nat.add_mod_mod]

/-- Until it wraps, the counter does not go down. -/
theorem attempt_after_le (b : Backoff) {i j : Nat} (hij : i ≤ j)
    (hj : b.attempt.toNat + j < UInt32.size) : (b.after i).attempt ≤ (b.after j).attempt := by
  have hi : b.attempt.toNat + i < UInt32.size := by omega
  rw [UInt32.le_iff_toNat_le, toNat_attempt_after, toNat_attempt_after, Nat.mod_eq_of_lt hi,
    Nat.mod_eq_of_lt hj]
  omega

/-- The counter goes down if and only if it wraps. -/
theorem attempt_after_lt_iff (b : Backoff) (i : Nat) :
    (b.after (i + 1)).attempt < (b.after i).attempt ↔
      (b.attempt.toNat + i + 1) % UInt32.size = 0 := by
  rw [UInt32.lt_iff_toNat_lt, toNat_attempt_after, toNat_attempt_after]
  unfold UInt32.size
  omega

/-- The lesser of a product and a cap is more than that of its factor and the cap. -/
theorem min_lt_min_mul_iff {first cap k : Nat} (hk : 2 ≤ k) :
    Nat.min first cap < Nat.min (first * k) cap ↔ 0 < first ∧ first < cap := by
  show min first cap < min (first * k) cap ↔ _
  rcases Nat.eq_zero_or_pos first with rfl | hpos
  · rw [Nat.zero_mul]
    omega
  · have hgrows : first < first * k :=
      calc first < first * 2 := by omega
        _ ≤ first * k := Nat.mul_le_mul_left first hk
    omega

section

variable {b : Backoff} (hmax : b.maxDelay.IsValid)
include hmax

/-- Until the counter wraps, a later delay is not shorter, and once a delay is the cap all
later ones are. -/
theorem next_after_le {i j : Nat} (hij : i ≤ j) (hj : b.attempt.toNat + j < UInt32.size) :
    (b.after i).next.1.toNanos ≤ (b.after j).next.1.toNanos ∧
      ((b.after i).next.1 = b.maxDelay → (b.after j).next.1 = b.maxDelay) := by
  have hle : (b.after i).next.1.toNanos ≤ (b.after j).next.1.toNanos :=
    toNanos_delay_mono hmax (attempt_after_le b hij hj)
  refine ⟨hle, fun hcap => ?_⟩
  rw [hcap] at hle
  have hleast : (b.after j).next.1.toNanos ≤ b.maxDelay.toNanos := toNanos_delay_le hmax _
  have hvalid : (b.after j).next.1.IsValid := isValid_delay hmax _
  rw [← hvalid.ofNanos_toNanos, Nat.le_antisymm hleast hle, hmax.ofNanos_toNanos]

/-- A delay is shorter than the one before it if and only if the counter has wrapped in
between, and the first delay is neither nothing nor the cap. -/
theorem next_after_lt_iff (i : Nat) :
    (b.after (i + 1)).next.1.toNanos < (b.after i).next.1.toNanos ↔
      (b.attempt.toNat + i + 1) % UInt32.size = 0 ∧
        0 < b.initialDelay.toNanos ∧ b.initialDelay.toNanos < b.maxDelay.toNanos := by
  have hbefore := toNat_attempt_after b i
  have hafter := toNat_attempt_after b (i + 1)
  by_cases hwraps : (b.attempt.toNat + i + 1) % UInt32.size = 0
  · -- the last attempts of the word are followed by the first
    have hlast : (b.after i).attempt.toNat = 4294967295 := by
      rw [hbefore]
      unfold UInt32.size at *
      omega
    have hfirst : (b.after (i + 1)).attempt.toNat = 0 := by
      rw [hafter, ← Nat.add_assoc, hwraps]
    have hlong : (b.after i).next.1.toNanos =
        Nat.min (b.initialDelay.toNanos * 4294967295) b.maxDelay.toNanos := by
      show (b.delay (b.after i).attempt).toNanos = _
      rw [toNanos_delay hmax, hlast]
      rfl
    have hshort : (b.after (i + 1)).next.1.toNanos =
        Nat.min b.initialDelay.toNanos b.maxDelay.toNanos := by
      show (b.delay (b.after (i + 1)).attempt).toNanos = _
      rw [toNanos_delay hmax, hfirst]
      exact congrArg (Nat.min · b.maxDelay.toNanos) (Nat.mul_one _)
    rw [hlong, hshort, min_lt_min_mul_iff (by decide)]
    exact ⟨fun h => ⟨hwraps, h⟩, fun h => h.2⟩
  · have hnext : (b.after i).attempt ≤ (b.after (i + 1)).attempt := by
      rw [UInt32.le_iff_toNat_le, hbefore, hafter]
      unfold UInt32.size at *
      omega
    have hle : (b.after i).next.1.toNanos ≤ (b.after (i + 1)).next.1.toNanos :=
      toNanos_delay_mono hmax hnext
    exact ⟨fun hlt => absurd hlt (Nat.not_lt.mpr hle), fun h => absurd h.1 hwraps⟩

end

/-! ### Tasks and requests -/

/-- What a task asks of a backoff. -/
inductive Request where
  | delay
  | reset
  deriving DecidableEq, Repr

/-- Tasks that ask for nothing but so many delays each. -/
def askers (calls : List Nat) : List (List Request) := calls.map (List.replicate · .delay)

/-- The delay that a request is given, if it is for one, and the backoff after it. -/
def serve (b : Backoff) : Request → Option Duration × Backoff
  | .delay => (some b.next.1, b.next.2)
  | .reset => (none, b.reset)

/-- A request that has been served. -/
structure Service where
  /-- The position of the task. -/
  task : Nat
  /-- The delay handed out, unless the backoff was reset. -/
  handed : Option Duration
  /-- The counter afterwards. -/
  attempt : UInt32
  deriving DecidableEq, Repr

/-- What a task is given that asks for a delay after so many others. -/
def answer (b : Backoff) (task before : Nat) : Service :=
  ⟨task, some (b.after before).next.1, (b.after (before + 1)).attempt⟩

/-- A backoff and the tasks that share it. -/
structure Shared where
  backoff : Backoff
  /-- What each task has still to ask for. -/
  tasks : List (List Request)
  /-- The requests served, the last one first. -/
  history : List Service

/-- The delays handed out since the last reset, or since the beginning. -/
def sinceReset : List Service → Nat
  | [] => 0
  | service :: earlier => if service.handed.isSome then sinceReset earlier + 1 else 0

namespace Shared

/-- Nothing has been asked for yet. -/
def start (b : Backoff) (tasks : List (List Request)) : Shared := ⟨b, tasks, []⟩

/-- A request of a task is served, which leaves the task with others. -/
def serve (s : Shared) (task : Nat) (request : Request) (rest : List Request) : Shared :=
  let (handed, backoff) := s.backoff.serve request
  ⟨backoff, s.tasks.set task rest, ⟨task, handed, backoff.attempt⟩ :: s.history⟩

/-- The next request of the task at a position is served, if there is one. -/
def turn (s : Shared) (task : Nat) : Shared :=
  match s.tasks[task]? with
  | some (request :: rest) => s.serve task request rest
  | _ => s

/-- The tasks have their turns in some order. -/
def run (s : Shared) (order : List Nat) : Shared := order.foldl turn s

/-- What every request keeps holds after any turns. -/
theorem run_inv {P : Shared → Prop} {s : Shared} (hstart : P s)
    (hserve : ∀ s task request rest, s.tasks[task]? = some (request :: rest) → P s →
      P (s.serve task request rest)) (order : List Nat) : P (s.run order) := by
  induction order generalizing s with
  | nil => exact hstart
  | cons task order ih =>
    apply ih
    unfold turn
    split
    · rename_i request rest htask
      exact hserve s task request rest htask hstart
    · exact hstart

/-! ### The counter -/

/-- The backoff is the one after as many delays as there were since the last reset. -/
def Counts (b : Backoff) (s : Shared) : Prop := s.backoff = b.fresh.after (sinceReset s.history)

theorem Counts.serve {b : Backoff} {s : Shared} (h : s.Counts b) (task : Nat)
    (request : Request) (rest : List Request) : (s.serve task request rest).Counts b := by
  cases request with
  | delay =>
    show s.backoff.next.2 = b.fresh.after (sinceReset s.history + 1)
    rw [h, next_after]
  | reset =>
    show s.backoff.reset = b.fresh.after 0
    rw [h, after_zero]
    rfl

theorem run_counts (initialDelay maxDelay : Duration) (tasks : List (List Request))
    (order : List Nat) :
    ((start (new initialDelay maxDelay) tasks).run order).Counts (new initialDelay maxDelay) :=
  run_inv (after_zero _).symm (fun _ task request rest _ h => h.serve task request rest) order

/-! ### Delays without a reset -/

/-- Nothing but delays is asked for, and each request has been given the delay after
those served before it, whichever task made it. -/
structure Answers (b : Backoff) (s : Shared) : Prop where
  delays : ∀ requests ∈ s.tasks, ∀ request ∈ requests, request = .delay
  backoff : s.backoff = b.after s.history.length
  answered : ∀ k service, s.history.reverse[k]? = some service → service = b.answer service.task k

theorem answers_start (b : Backoff) (calls : List Nat) : (start b (askers calls)).Answers b := by
  refine ⟨fun requests hrequests request hrequest => ?_, b.after_zero.symm, fun k service h => ?_⟩
  · obtain ⟨n, -, rfl⟩ := List.mem_map.mp hrequests
    exact List.eq_of_mem_replicate hrequest
  · cases h

theorem Answers.serve {b : Backoff} {s : Shared} (h : s.Answers b) {task : Nat}
    {request : Request} {rest : List Request} (htask : s.tasks[task]? = some (request :: rest)) :
    (s.serve task request rest).Answers b := by
  have hdelays := h.delays _ (List.mem_of_getElem? htask)
  obtain rfl := hdelays request List.mem_cons_self
  have hserved : s.serve task .delay rest = ⟨b.after (s.history.length + 1), s.tasks.set task rest,
      b.answer task s.history.length :: s.history⟩ := by
    rw [answer, ← next_after, ← h.backoff]
    rfl
  rw [hserved]
  refine ⟨fun requests hrequests request hrequest => ?_, rfl, fun k service hk => ?_⟩
  · rcases List.mem_or_eq_of_mem_set hrequests with hmem | rfl
    · exact h.delays requests hmem request hrequest
    · exact hdelays request (List.mem_cons_of_mem _ hrequest)
  · rw [List.reverse_cons, List.getElem?_append] at hk
    split at hk
    · exact h.answered k service hk
    · rename_i hlast
      rw [List.length_reverse] at hk hlast
      obtain ⟨d, rfl⟩ := Nat.exists_eq_add_of_le (Nat.le_of_not_lt hlast)
      rw [Nat.add_sub_cancel_left] at hk
      cases d with
      | zero =>
        cases hk
        rfl
      | succ d => cases hk

theorem run_answers (b : Backoff) (calls order : List Nat) :
    ((start b (askers calls)).run order).Answers b :=
  run_inv (answers_start b calls) (fun _ _ _ _ htask h => h.serve htask) order

/-- One task by itself is given one delay after the other. -/
theorem run_alone (b : Backoff) (n : Nat) (history : List Service) :
    ((Shared.mk b [List.replicate n .delay] history).run (List.replicate n 0)).history =
      ((List.range n).map (b.answer 0)).reverse ++ history := by
  induction n generalizing b history with
  | zero => rfl
  | succ n ih =>
    have hanswer (k : Nat) : b.next.2.answer 0 k = b.answer 0 (k + 1) := by
      rw [answer, answer, after_next, after_next]
    have hturn : (Shared.mk b [List.replicate (n + 1) .delay] history).turn 0 =
        ⟨b.next.2, [List.replicate n .delay], b.answer 0 0 :: history⟩ := by
      rw [answer, ← next_after, after_zero]
      rfl
    rw [List.replicate_succ (a := 0), run, List.foldl_cons, hturn]
    show ((Shared.mk b.next.2 [List.replicate n .delay] (b.answer 0 0 :: history)).run
      (List.replicate n 0)).history = _
    have hmap : (List.range n).map (b.next.2.answer 0) =
        ((List.range n).map Nat.succ).map (b.answer 0) := by
      rw [List.map_map]
      exact List.map_congr_left fun k _ => hanswer k
    rw [ih, hmap, List.range_succ_eq_map, List.map_cons, List.reverse_cons, List.append_assoc]
    rfl

theorem served_alone (b : Backoff) (n : Nat) :
    ((start b (askers [n])).run (List.replicate n 0)).history.reverse =
      (List.range n).map (b.answer 0) := by
  have hrun := run_alone b n []
  rw [List.append_nil] at hrun
  exact (congrArg List.reverse hrun).trans (List.reverse_reverse _)

end Shared

/-! ### What tasks are told -/

/-- **Delays are exact, and every one of them is counted.** Whatever the counter, a delay
is the lesser of the cap and the first delay times the number of attempts, which saturates
at the greatest number of a word, in nanoseconds without a bound. So it is a duration and not
longer than the cap. The product is the one that is made of seconds and nanoseconds word by
word, none of which wraps. And for any number of tasks that ask for delays and resets in any
order, the counter is the number of delays since the last reset, as long as a word holds
that number. -/
theorem delays_exact_and_counted :
    (∀ b : Backoff, b.maxDelay.IsValid →
      b.next.1 = .ofNanos (Nat.min
        (b.initialDelay.toNanos * Nat.min (b.attempt.toNat + 1) (UInt32.size - 1))
        b.maxDelay.toNanos) ∧
      b.next.1.IsValid ∧ b.next.1.toNanos ≤ b.maxDelay.toNanos) ∧
    (∀ (secs : UInt64) (nanos k : UInt32), nanos.toNat < nanosPerSecond →
      (Duration.ofWords secs nanos).checkedMul k.toNat =
        (Duration.mulWords? secs nanos k).map fun words => .ofWords words.1 words.2) ∧
    ∀ (initialDelay maxDelay : Duration) (tasks : List (List Request)) (order : List Nat),
      let s := (Shared.start (new initialDelay maxDelay) tasks).run order
      sinceReset s.history < UInt32.size → s.backoff.attempt.toNat = sinceReset s.history := by
  refine ⟨fun b hmax => ⟨delay_eq_ofNanos hmax _, isValid_delay hmax _, toNanos_delay_le hmax _⟩,
    fun secs nanos k h => Duration.checkedMul_ofWords h k, ?_⟩
  intro initialDelay maxDelay tasks order s hfits
  have hcounts : s.backoff = (new initialDelay maxDelay).after (sinceReset s.history) :=
    Shared.run_counts initialDelay maxDelay tasks order
  rw [hcounts, toNat_attempt_after]
  show (0 + sinceReset s.history) % UInt32.size = _
  rw [Nat.zero_add, Nat.mod_eq_of_lt hfits]

/-- The longest first delay there is does not wrap, and two tasks count together from the
reset of one of them on. -/
theorem delays_exact_and_counted_together :
    let longest := new ⟨Duration.maxSecs, 999999999⟩ ⟨30, 0⟩
    let s := (Shared.start .standard
      [[.delay, .delay], [.delay, .reset, .delay]]).run [0, 1, 1, 0, 1]
    (longest.maxDelay.IsValid ∧ longest.next.1.toNanos ≤ longest.maxDelay.toNanos) ∧
      (999999999 < nanosPerSecond ∧
        (Duration.ofWords 3 999999999).checkedMul 4294967295 =
          (Duration.mulWords? 3 999999999 4294967295).map fun words => .ofWords words.1 words.2) ∧
      (sinceReset s.history = 2 ∧ s.backoff.attempt.toNat = 2) := by
  intro longest s
  obtain ⟨hexact, hwords, hcounted⟩ := delays_exact_and_counted
  have hvalid : longest.maxDelay.IsValid := by decide
  have hnanos : (999999999 : UInt32).toNat < nanosPerSecond := by decide
  have hcount : sinceReset s.history = 2 := by decide
  refine ⟨⟨hvalid, (hexact longest hvalid).2.2⟩, ⟨hnanos, hwords 3 999999999 4294967295 hnanos⟩,
    hcount, ?_⟩
  rw [← hcount]
  exact hcounted _ _ _ _ (hcount ▸ by decide)

/-- **Until the counter wraps, delays do not shrink.** Tasks ask for delays, in any number
and any order, and none resets the backoff. Of the first delays, up to as many as a word has
values since the last reset, a later one is not shorter than an earlier one, and is the cap
once that is; nor does the counter go down until it has counted one less. After that, a delay is
shorter than the one before it if and only if the counter has just wrapped, unless the first
delay is nothing or the cap; and the counter goes down if and only if it wraps. -/
theorem delays_grow_until_wrap (b : Backoff) (hmax : b.maxDelay.IsValid) (calls order : List Nat) :
    let served := ((Shared.start b (askers calls)).run order).history.reverse
    (∀ i j a z, i < j → served[i]? = some a → served[j]? = some z →
      b.attempt.toNat + j < UInt32.size →
      ∃ d d', a.handed = some d ∧ z.handed = some d' ∧ d.toNanos ≤ d'.toNanos ∧
        (d = b.maxDelay → d' = b.maxDelay) ∧
        (b.attempt.toNat + j + 1 < UInt32.size → a.attempt ≤ z.attempt)) ∧
    (∀ i a z, served[i]? = some a → served[i + 1]? = some z →
      ∃ d d', a.handed = some d ∧ z.handed = some d' ∧
        (d'.toNanos < d.toNanos ↔ (b.attempt.toNat + i + 1) % UInt32.size = 0 ∧
          0 < b.initialDelay.toNanos ∧ b.initialDelay.toNanos < b.maxDelay.toNanos) ∧
        (z.attempt < a.attempt ↔ (b.attempt.toNat + i + 2) % UInt32.size = 0)) := by
  intro served
  have hanswers := Shared.run_answers b calls order
  refine ⟨fun i j a z hij ha hz hj => ?_, fun i a z ha hz => ?_⟩
  · obtain ⟨hle, hcap⟩ := next_after_le hmax (Nat.le_of_lt hij) hj
    rw [hanswers.answered i a ha, hanswers.answered j z hz]
    exact ⟨_, _, rfl, rfl, hle, hcap, attempt_after_le b (Nat.succ_le_succ (Nat.le_of_lt hij))⟩
  · rw [hanswers.answered i a ha, hanswers.answered (i + 1) z hz]
    exact ⟨_, _, rfl, rfl, next_after_lt_iff hmax i, attempt_after_lt_iff b (i + 1)⟩

/-- Three tasks with four calls, the counter at its last value but two: the third delay is
the cap like the first, and after it the counter wraps. -/
theorem delays_grow_until_wrap_last :
    let b : Backoff := ⟨⟨1, 0⟩, ⟨30, 0⟩, 4294967293⟩
    let served := ((Shared.start b (askers [1, 2, 1])).run [1, 0, 2, 1]).history.reverse
    b.maxDelay.IsValid ∧
      (∃ d d', served[0]?.map Service.handed = some (some d) ∧
        served[2]?.map Service.handed = some (some d') ∧ d.toNanos ≤ d'.toNanos) ∧
      ∃ d d', served[2]?.map Service.handed = some (some d) ∧
        served[3]?.map Service.handed = some (some d') ∧ d'.toNanos < d.toNanos := by
  intro b served
  have hmax : b.maxDelay.IsValid := by decide
  obtain ⟨hgrow, hshrink⟩ := delays_grow_until_wrap b hmax [1, 2, 1] [1, 0, 2, 1]
  refine ⟨hmax, ?_, ?_⟩
  · obtain ⟨d, d', hd, hd', hle, -⟩ := hgrow 0 2 _ _ (by decide) rfl rfl (by decide)
    exact ⟨d, d', congrArg some hd, congrArg some hd', hle⟩
  · obtain ⟨d, d', hd, hd', hlt, -⟩ := hshrink 2 _ _ rfl rfl
    exact ⟨d, d', congrArg some hd, congrArg some hd', hlt.mpr (by decide)⟩

/-- A task asks a backoff of one second up to thirty for one delay more than a word has values:
the counter goes down to zero, and after thirty seconds comes one second. -/
theorem delays_shrink_at_wrap :
    let served := ((Shared.start .standard (askers [UInt32.size + 1])).run
      (List.replicate (UInt32.size + 1) 0)).history.reverse
    (served[UInt32.size - 2]? = some ⟨0, some ⟨30, 0⟩, 4294967295⟩ ∧
      served[UInt32.size - 1]? = some ⟨0, some ⟨30, 0⟩, 0⟩ ∧
      served[UInt32.size]? = some ⟨0, some ⟨1, 0⟩, 1⟩) ∧
    ¬ ∀ i a z d d', served[i]? = some a → served[i + 1]? = some z →
      a.handed = some d → z.handed = some d' → d.toNanos ≤ d'.toNanos := by
  intro served
  have hserved (k : Nat) (hk : k < UInt32.size + 1) :
      served[k]? = some (standard.answer 0 k) := by
    rw [show served = _ from Shared.served_alone .standard (UInt32.size + 1), List.getElem?_map,
      List.getElem?_range hk]
    rfl
  have hbefore : standard.answer 0 (UInt32.size - 2) = ⟨0, some ⟨30, 0⟩, 4294967295⟩ := by
    decide +kernel
  have hlast : standard.answer 0 (UInt32.size - 1) = ⟨0, some ⟨30, 0⟩, 0⟩ := by decide +kernel
  have hfirst : standard.answer 0 UInt32.size = ⟨0, some ⟨1, 0⟩, 1⟩ := by decide +kernel
  have hserved' := hserved (UInt32.size - 1) (by decide)
  have hwrapped := hserved UInt32.size (by decide)
  rw [hlast] at hserved'
  rw [hfirst] at hwrapped
  refine ⟨⟨?_, hserved', hwrapped⟩, fun h => ?_⟩
  · rw [hserved (UInt32.size - 2) (by decide), hbefore]
  · exact absurd (h _ _ _ _ _ hserved' hwrapped rfl rfl) (by decide)

end Backoff
end WorkloadIdentity
