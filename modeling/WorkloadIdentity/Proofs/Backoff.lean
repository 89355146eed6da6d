/-
# The delays of a backoff

A product of a duration may not fit a duration. It is then longer than any cap, so
that the cap stands in for the lesser of the two all the same: in nanoseconds, a delay
is always the lesser of the product and the cap. The counter wraps after as many
delays as a word has values; before that it is the number of delays since the last
reset.

Seconds and nanoseconds are words, and a product is made of them word by word
(`Duration.mulWords?`). The nanoseconds' product is not checked, nor need it be: less than a
second, less than `2 ^ 32` times, fits a word of 64 bits.

Key definitions: `Duration.IsValid`, `Duration.mulWords?`.
Key theorems: `Duration.checkedMul_eq_none_iff`, `Duration.checkedMul_ofWords`,
`Backoff.toNanos_delay`, `Backoff.delay_eq_ofNanos`, `Backoff.toNanos_next`.
-/
import WorkloadIdentity.Backoff

namespace WorkloadIdentity

/-! ### Durations -/

namespace Duration

/-- The seconds fit their word and the nanoseconds make less than a second. -/
def IsValid (d : Duration) : Prop := d.secs ≤ maxSecs ∧ d.nanos < nanosPerSecond

instance (d : Duration) : Decidable d.IsValid := inferInstanceAs (Decidable (_ ∧ _))

theorem toNanos_ofNanos (n : Nat) : (ofNanos n).toNanos = n :=
  Nat.div_add_mod' n nanosPerSecond

theorem IsValid.toNanos_lt {d : Duration} (h : d.IsValid) :
    d.toNanos < (maxSecs + 1) * nanosPerSecond := by
  have hsecs : d.secs * nanosPerSecond ≤ maxSecs * nanosPerSecond := Nat.mul_le_mul_right _ h.1
  have hnanos := h.2
  rw [toNanos, Nat.succ_mul]
  omega

theorem toNanos_min (a b : Duration) : (a.min b).toNanos = Nat.min a.toNanos b.toNanos := by
  unfold min
  split
  · rename_i h
    exact (Nat.min_eq_left h).symm
  · rename_i h
    exact (Nat.min_eq_right (Nat.le_of_not_le h)).symm

/-- A product that fits is the product. -/
theorem toNanos_of_checkedMul {d product : Duration} {k : Nat}
    (h : d.checkedMul k = some product) : product.toNanos = d.toNanos * k := by
  unfold checkedMul at h
  dsimp only at h
  split at h
  · cases h
    exact toNanos_ofNanos _
  · cases h

/-- A product does not fit if it is longer than every duration. -/
theorem checkedMul_eq_none_iff {d : Duration} {k : Nat} :
    d.checkedMul k = none ↔ (maxSecs + 1) * nanosPerSecond ≤ d.toNanos * k := by
  have hfits : (ofNanos (d.toNanos * k)).secs ≤ maxSecs ↔
      d.toNanos * k < (maxSecs + 1) * nanosPerSecond := by
    rw [← Nat.lt_succ_iff, Nat.succ_eq_add_one, ofNanos, Nat.div_lt_iff_lt_mul (by decide)]
  unfold checkedMul
  dsimp only
  split
  · rename_i h
    have hlt := hfits.mp h
    exact ⟨nofun, fun hle => absurd hlt (Nat.not_lt.mpr hle)⟩
  · rename_i h
    exact ⟨fun _ => Nat.not_lt.mp (mt hfits.mpr h), fun _ => rfl⟩

/-- A duration is the one of its nanoseconds. -/
theorem IsValid.ofNanos_toNanos {d : Duration} (h : d.IsValid) : ofNanos d.toNanos = d := by
  have hpos : 0 < nanosPerSecond := by decide
  show Duration.mk _ _ = Duration.mk d.secs d.nanos
  rw [toNanos, Nat.mul_comm, Nat.mul_add_div hpos, Nat.mul_add_mod, Nat.div_eq_of_lt h.2,
    Nat.mod_eq_of_lt h.2, Nat.add_zero]

/-- A product that fits is a duration. -/
theorem isValid_of_checkedMul {d product : Duration} {k : Nat}
    (h : d.checkedMul k = some product) : product.IsValid := by
  unfold checkedMul at h
  dsimp only at h
  split at h
  · rename_i hfits
    cases h
    exact ⟨hfits, Nat.mod_lt _ (by decide)⟩
  · cases h

theorem isValid_min {a b : Duration} (ha : a.IsValid) (hb : b.IsValid) : (a.min b).IsValid := by
  unfold min
  split
  · exact ha
  · exact hb

/-! ### Products in words -/

/-- The duration that two words are. -/
def ofWords (secs : UInt64) (nanos : UInt32) : Duration := ⟨secs.toNat, nanos.toNat⟩

/-- The product of two words, if it fits one. -/
def mulWord? (a b : UInt64) : Option UInt64 :=
  if a.toNat * b.toNat < UInt64.size then some (a * b) else none

/-- The sum of two words, if it fits one. -/
def addWord? (a b : UInt64) : Option UInt64 :=
  if a.toNat + b.toNat < UInt64.size then some (a + b) else none

/-- A product in words: the nanoseconds are multiplied in a word that is not checked,
and the seconds in it are carried over to the seconds. -/
def mulWords? (secs : UInt64) (nanos k : UInt32) : Option (UInt64 × UInt32) := do
  let parts := nanos.toUInt64 * k.toUInt64
  let product ← mulWord? secs k.toUInt64
  let sum ← addWord? product (parts / 1000000000)
  pure (sum, (parts % 1000000000).toUInt32)

/-- The nanoseconds of a product fit their word. -/
theorem toNat_parts {nanos : UInt32} (h : nanos.toNat < nanosPerSecond) (k : UInt32) :
    (nanos.toUInt64 * k.toUInt64).toNat = nanos.toNat * k.toNat := by
  have hk := k.toNat_lt
  have hlt : nanos.toNat * k.toNat < 1000000000 * 4294967296 :=
    Nat.mul_lt_mul'' h hk
  rw [UInt64.toNat_mul, UInt32.toNat_toUInt64, UInt32.toNat_toUInt64]
  apply Nat.mod_eq_of_lt
  omega

/-- **No word of a product wraps.** -/
theorem checkedMul_ofWords {secs : UInt64} {nanos : UInt32} (h : nanos.toNat < nanosPerSecond)
    (k : UInt32) :
    (ofWords secs nanos).checkedMul k.toNat =
      (mulWords? secs nanos k).map fun words => ofWords words.1 words.2 := by
  have hparts := toNat_parts h k
  let parts := nanos.toUInt64 * k.toUInt64
  have hcarry : (parts / 1000000000).toNat = nanos.toNat * k.toNat / nanosPerSecond := by
    rw [UInt64.toNat_div, hparts]
    rfl
  have hrest : (parts % 1000000000).toUInt32.toNat = nanos.toNat * k.toNat % nanosPerSecond := by
    rw [UInt64.toNat_toUInt32, UInt64.toNat_mod, hparts]
    apply Nat.mod_eq_of_lt
    have := Nat.mod_lt (nanos.toNat * k.toNat) (show 0 < 1000000000 by decide)
    show nanos.toNat * k.toNat % 1000000000 < 4294967296
    omega
  have hproduct : ofNanos ((ofWords secs nanos).toNanos * k.toNat) =
      ⟨secs.toNat * k.toNat + nanos.toNat * k.toNat / nanosPerSecond,
        nanos.toNat * k.toNat % nanosPerSecond⟩ := by
    have hsplit : (ofWords secs nanos).toNanos * k.toNat =
        nanosPerSecond * (secs.toNat * k.toNat) + nanos.toNat * k.toNat := by
      show (secs.toNat * nanosPerSecond + nanos.toNat) * k.toNat = _
      rw [Nat.add_mul, Nat.mul_right_comm, Nat.mul_comm nanosPerSecond]
    rw [ofNanos, hsplit, Nat.mul_add_div (by decide), Nat.mul_add_mod]
  have hfits (n : Nat) : n ≤ maxSecs ↔ n < UInt64.size := Nat.lt_succ_iff.symm
  unfold checkedMul mulWords? mulWord? addWord?
  simp only [hproduct, hfits, UInt32.toNat_toUInt64, Option.bind_eq_bind]
  by_cases hsecs : secs.toNat * k.toNat < UInt64.size
  · have hmul : (secs * k.toUInt64).toNat = secs.toNat * k.toNat := by
      rw [UInt64.toNat_mul, UInt32.toNat_toUInt64]
      exact Nat.mod_eq_of_lt hsecs
    rw [if_pos hsecs, Option.bind_some, hmul, hcarry]
    by_cases hsum : secs.toNat * k.toNat + nanos.toNat * k.toNat / nanosPerSecond < UInt64.size
    · have hadd : (secs * k.toUInt64 + parts / 1000000000).toNat =
          secs.toNat * k.toNat + nanos.toNat * k.toNat / nanosPerSecond := by
        rw [UInt64.toNat_add, hmul, hcarry]
        exact Nat.mod_eq_of_lt hsum
      rw [if_pos hsum, if_pos hsum, ← hadd, ← hrest]
      rfl
    · rw [if_neg hsum, if_neg hsum]
      rfl
  · rw [if_neg hsecs, if_neg fun hsum => hsecs (Nat.lt_of_le_of_lt (Nat.le_add_right _ _) hsum)]
    rfl
end Duration

/-! ### Delays -/

namespace Backoff

/-- The lesser of the product and the cap, whether or not the product fits. -/
theorem toNanos_delay {b : Backoff} (hmax : b.maxDelay.IsValid) (attemptsBefore : UInt32) :
    (b.delay attemptsBefore).toNanos =
      Nat.min (b.initialDelay.toNanos * Nat.min (attemptsBefore.toNat + 1) (Nat.pow 2 32 - 1))
        b.maxDelay.toNanos := by
  unfold delay
  generalize Nat.min (attemptsBefore.toNat + 1) (Nat.pow 2 32 - 1) = attempts
  dsimp only
  cases hproduct : b.initialDelay.checkedMul attempts with
  | some product =>
    rw [Option.elim_some, Duration.toNanos_min, Duration.toNanos_of_checkedMul hproduct]
  | none =>
    have hlong : b.maxDelay.toNanos ≤ b.initialDelay.toNanos * attempts :=
      Nat.le_of_lt (Nat.lt_of_lt_of_le hmax.toNanos_lt
        (Duration.checkedMul_eq_none_iff.mp hproduct))
    rw [Option.elim_none]
    exact (Nat.min_eq_right hlong).symm

theorem isValid_delay {b : Backoff} (hmax : b.maxDelay.IsValid) (attemptsBefore : UInt32) :
    (b.delay attemptsBefore).IsValid := by
  have hdelay : b.delay attemptsBefore = (b.initialDelay.checkedMul
      (Nat.min (attemptsBefore.toNat + 1) (Nat.pow 2 32 - 1))).elim b.maxDelay
        (·.min b.maxDelay) := rfl
  rw [hdelay]
  cases hproduct : b.initialDelay.checkedMul
      (Nat.min (attemptsBefore.toNat + 1) (Nat.pow 2 32 - 1)) with
  | some product =>
    rw [Option.elim_some]
    exact Duration.isValid_min (Duration.isValid_of_checkedMul hproduct) hmax
  | none =>
    rw [Option.elim_none]
    exact hmax

theorem toNanos_delay_le {b : Backoff} (hmax : b.maxDelay.IsValid) (attemptsBefore : UInt32) :
    (b.delay attemptsBefore).toNanos ≤ b.maxDelay.toNanos := by
  rw [toNanos_delay hmax]
  exact Nat.min_le_right _ _

/-- The delay after more attempts is not shorter. -/
theorem toNanos_delay_mono {b : Backoff} (hmax : b.maxDelay.IsValid) {m n : UInt32} (h : m ≤ n) :
    (b.delay m).toNanos ≤ (b.delay n).toNanos := by
  have hle : m.toNat ≤ n.toNat := h
  rw [toNanos_delay hmax, toNanos_delay hmax]
  generalize Nat.pow 2 32 - 1 = most
  have hattempts : Nat.min (m.toNat + 1) most ≤ Nat.min (n.toNat + 1) most :=
    Nat.le_min.mpr ⟨Nat.le_trans (Nat.min_le_left _ _) (Nat.succ_le_succ hle), Nat.min_le_right _ _⟩
  exact Nat.le_min.mpr ⟨Nat.le_trans (Nat.min_le_left _ _) (Nat.mul_le_mul_left _ hattempts),
    Nat.min_le_right _ _⟩

/-- In nanoseconds and as a duration. -/
theorem delay_eq_ofNanos {b : Backoff} (hmax : b.maxDelay.IsValid) (attemptsBefore : UInt32) :
    b.delay attemptsBefore = .ofNanos
      (Nat.min (b.initialDelay.toNanos * Nat.min (attemptsBefore.toNat + 1) (UInt32.size - 1))
        b.maxDelay.toNanos) := by
  rw [← (isValid_delay hmax attemptsBefore).ofNanos_toNanos, toNanos_delay hmax]

/-- The delay after so many others since the last reset, while the counter has not
wrapped. -/
theorem toNanos_next {b : Backoff} (hmax : b.maxDelay.IsValid) {k : Nat}
    (hattempt : b.attempt = UInt32.ofNat k) (hk : k + 1 < Nat.pow 2 32) :
    b.next.1.toNanos = Nat.min (b.initialDelay.toNanos * (k + 1)) b.maxDelay.toNanos := by
  have hbefore : b.attempt.toNat = k := by
    rw [hattempt]
    exact UInt32.toNat_ofNat_of_lt (Nat.lt_of_succ_lt hk)
  have hcount : Nat.min (k + 1) (Nat.pow 2 32 - 1) = k + 1 := Nat.min_eq_left (Nat.le_pred_of_lt hk)
  rw [next, toNanos_delay hmax, hbefore, hcount]

/-- The longest delays there are do not fit, and the cap stands in for them. -/
example : (new ⟨Duration.maxSecs, 999999999⟩ ⟨30, 0⟩).next.1 = ⟨30, 0⟩ := by decide

end Backoff
end WorkloadIdentity
