/-
# The search for digits finds some

The last grid of the search, of seventeen digits, is finer than the interval of reals that
round to a number: the number has at least `10 ^ 16` steps of it (`Shortest.steps_le`), and
less than `2 ^ 53` times the distance of its neighbours (`Shortest.step_lt`). So the search
never runs out of grids, and the digits that it gives are not those of zero
(`Shortest.digits_ne_zero`).

Key definitions: `Shortest.wayDown`.
Key theorems: `Shortest.magnitude_spec`, `Shortest.Interval.onGrid_isSome`,
`Shortest.digits_ne_zero`.
-/
import Mathlib.Tactic.Linarith
import Mathlib.Tactic.Ring
import WorkloadIdentity.Number.Shortest

namespace WorkloadIdentity
namespace Shortest

/-! ### The power of the first digit -/

theorem magnitudeUp_spec {p q : Nat} : ∀ (fuel k : Nat), q * 10 ^ (k - 1) ≤ p →
    q * 10 ^ (magnitudeUp p q fuel k - 1) ≤ p
  | 0, _, h => h
  | fuel + 1, k, h => by
    unfold magnitudeUp
    split
    · exact h
    · rename_i hle
      exact magnitudeUp_spec fuel (k + 1) (Nat.le_of_not_lt hle)

theorem magnitudeDown_spec {p q : Nat} : ∀ (fuel k : Nat), q ≤ p * 10 ^ (k + fuel + 1) →
    q ≤ p * 10 ^ (magnitudeDown p q fuel k + 1)
  | 0, _, h => h
  | fuel + 1, k, h => by
    unfold magnitudeDown
    split
    · assumption
    · refine magnitudeDown_spec fuel (k + 1) ?_
      rwa [Nat.add_right_comm k 1 fuel]

/-- A number that the search reaches is at least the power of ten of its first digit. -/
theorem magnitude_spec {p q : Nat} (hrange : ∀ n, 400 ≤ n → q ≤ p * 10 ^ n) :
    q * 10 ^ (magnitude p q - 1).toNat ≤ p * 10 ^ (1 - magnitude p q).toNat := by
  unfold magnitude
  split
  · rename_i hle
    have hup := magnitudeUp_spec 400 0 (by simpa using hle)
    have hpower : (((magnitudeUp p q 400 0 : Nat) : Int) - 1).toNat =
        magnitudeUp p q 400 0 - 1 := by
      omega
    rw [hpower]
    exact hup.trans (Nat.le_mul_of_pos_right p (Nat.pow_pos (by decide)))
  · have hdown := magnitudeDown_spec 400 0 (hrange _ (by omega))
    have hpower : (-((magnitudeDown p q 400 0 : Nat) : Int) - 1).toNat = 0 := by omega
    have hpower' : (1 - -((magnitudeDown p q 400 0 : Nat) : Int)).toNat =
        magnitudeDown p q 400 0 + 1 := by omega
    rwa [hpower, hpower', Nat.pow_zero, Nat.mul_one]

/-- So it has at least `10 ^ 16` steps of the grid of seventeen digits. -/
theorem steps_le {p q : Nat} {top : Int}
    (h : q * 10 ^ (top - 1).toNat ≤ p * 10 ^ (1 - top).toNat) :
    10 ^ 16 * (q * 10 ^ (top - 17).toNat) ≤ p * 10 ^ (-(top - 17)).toNat := by
  have hpos : 0 < 10 ^ (1 - top).toNat := Nat.pow_pos (by decide)
  have hexponents : (top - 17).toNat + (16 + (1 - top).toNat) =
      (top - 1).toNat + (-(top - 17)).toNat := by omega
  have hpowers : 10 ^ (top - 17).toNat * (10 ^ 16 * 10 ^ (1 - top).toNat) =
      10 ^ (top - 1).toNat * 10 ^ (-(top - 17)).toNat := by
    rw [← Nat.pow_add, ← Nat.pow_add, ← Nat.pow_add, hexponents]
  refine Nat.le_of_mul_le_mul_right ?_ hpos
  calc 10 ^ 16 * (q * 10 ^ (top - 17).toNat) * 10 ^ (1 - top).toNat
      = q * (10 ^ (top - 17).toNat * (10 ^ 16 * 10 ^ (1 - top).toNat)) := by ring
    _ = q * 10 ^ (top - 1).toNat * 10 ^ (-(top - 17)).toNat := by rw [hpowers, Nat.mul_assoc]
    _ ≤ p * 10 ^ (1 - top).toNat * 10 ^ (-(top - 17)).toNat := Nat.mul_le_mul_right _ h
    _ = p * 10 ^ (-(top - 17)).toNat * 10 ^ (1 - top).toNat := by ring

/-! ### The last grid -/

/-- What lies between the ends lies in the interval, closed or not. -/
theorem Interval.holds_of_lt {i : Interval} {d : Nat} {k : Int}
    (hlow : i.low * 10 ^ (-k).toNat < d * (i.scale * 10 ^ k.toNat))
    (hhigh : d * (i.scale * 10 ^ k.toNat) < i.high * 10 ^ (-k).toNat) : i.holds d k = true := by
  have hvalue : d * 10 ^ k.toNat * i.scale = d * (i.scale * 10 ^ k.toNat) := by ring
  unfold Interval.holds
  simp only [Nat.pow_eq, hvalue]
  split
  · simp [hlow.le, hhigh.le]
  · simp [hlow, hhigh]

/-- A grid with a step less than the interval has a decimal in it. -/
theorem Interval.onGrid_isSome {i : Interval} {k : Int} (down up : Nat)
    (hlow : i.low * 10 ^ (-k).toNat + down = i.mid * 10 ^ (-k).toNat)
    (hhigh : i.mid * 10 ^ (-k).toNat + up = i.high * 10 ^ (-k).toNat)
    (hdown : 0 < down) (hup : 0 < up)
    (hscale : 0 < i.scale * 10 ^ k.toNat) (hone : i.scale * 10 ^ k.toNat ≤ i.mid * 10 ^ (-k).toNat)
    (hstep : i.scale * 10 ^ k.toNat < down + up) : (i.onGrid k).isSome = true := by
  have hdiv := Nat.div_add_mod' (i.mid * 10 ^ (-k).toNat) (i.scale * 10 ^ k.toNat)
  have hmod := Nat.mod_lt (i.mid * 10 ^ (-k).toNat) hscale
  have hbelow := Nat.div_pos hone hscale
  unfold Interval.onGrid
  simp only [Nat.pow_eq]
  generalize hpoint : i.mid * 10 ^ (-k).toNat = point at *
  generalize hrest : point % (i.scale * 10 ^ k.toNat) = rest at *
  generalize hsteps : point / (i.scale * 10 ^ k.toNat) = steps at *
  have hnonzero : (steps != 0) = true := by simpa using Nat.ne_of_gt hbelow
  by_cases hrest : rest < down
  · have hholds : i.holds steps k = true :=
      Interval.holds_of_lt (by omega) (by omega)
    rw [hnonzero, hholds]
    cases i.holds (steps + 1) k <;> rfl
  · have hholds : i.holds (steps + 1) k = true := by
      refine Interval.holds_of_lt ?_ ?_ <;> rw [Nat.add_mul, Nat.one_mul] <;> omega
    rw [hholds]
    cases steps != 0 && i.holds steps k <;> rfl

/-! ### The search -/

/-- A decimal that a grid gives is not zero. -/
theorem Interval.ne_zero_of_onGrid {i : Interval} {k : Int} {d : Nat} (h : i.onGrid k = some d) :
    d ≠ 0 := by
  unfold Interval.onGrid at h
  simp only at h
  split at h
  · rename_i hbelow _
    have hne := (Bool.and_eq_true_iff.mp hbelow).1
    split at h <;> obtain rfl := Option.some.inj h
    · exact bne_iff_ne.mp hne
    · exact Nat.succ_ne_zero _
  · rename_i hbelow _
    obtain rfl := Option.some.inj h
    exact bne_iff_ne.mp (Bool.and_eq_true_iff.mp hbelow).1
  · obtain rfl := Option.some.inj h
    exact Nat.succ_ne_zero _
  · cases h

/-- A search that reaches a grid with a decimal gives one that is not zero. -/
theorem Interval.search_ne_zero {i : Interval} {top : Int} (last : Nat)
    (h : (i.onGrid (top - last)).isSome = true) :
    ∀ {fuel n : Nat}, n ≤ last → last < n + fuel → (i.search top fuel n).1 ≠ 0
  | 0, n, hle, hlt => by omega
  | fuel + 1, n, hle, hlt => by
    unfold Interval.search
    simp only
    split
    · rename_i d hd
      exact ne_zero_of_onGrid hd
    · rename_i hnone
      have hne : n ≠ last := by
        rintro rfl
        rw [hnone] at h
        cases h
      exact search_ne_zero last h (by omega) (by omega)

theorem dropZeros_ne_zero : ∀ {fuel d : Nat} {k : Int}, d ≠ 0 → (dropZeros fuel d k).1 ≠ 0
  | 0, _, _, h => h
  | fuel + 1, d, k, h => by
    unfold dropZeros
    split
    · rename_i hdrop
      have hzero : d % 10 = 0 := beq_iff_eq.mp (Bool.and_eq_true_iff.mp hdrop).1
      exact dropZeros_ne_zero (by omega)
    · exact h

/-- Half the way to the neighbour below. -/
def wayDown (x : Binary64) : Nat :=
  if x.mantissa == Nat.pow 2 52 && x.exponent != Binary64.minExponent then Nat.pow 2 x.exponent.toNat
  else 2 * Nat.pow 2 x.exponent.toNat

theorem interval_eq (x : Binary64) : interval x =
    ⟨4 * x.ratio.1 - wayDown x, 4 * x.ratio.1, 4 * x.ratio.1 + 2 * Nat.pow 2 x.exponent.toNat,
      4 * x.ratio.2, x.mantissa % 2 == 0⟩ := rfl

/-- A step that the number has so many of is less than the interval. -/
theorem step_lt {x : Binary64} {step scaled : Nat} (hmantissa : x.mantissa < 2 ^ 53)
    (hscaled : 0 < scaled)
    (h : 10 ^ 16 * step ≤ 4 * (x.mantissa * Nat.pow 2 x.exponent.toNat) * scaled) :
    step < wayDown x * scaled + 2 * Nat.pow 2 x.exponent.toNat * scaled := by
  have hunit : 0 < Nat.pow 2 x.exponent.toNat * scaled :=
    Nat.mul_pos (Nat.pow_pos (by decide)) hscaled
  have hsize : 4 * (x.mantissa * Nat.pow 2 x.exponent.toNat) * scaled =
      4 * (x.mantissa * (Nat.pow 2 x.exponent.toNat * scaled)) := by ring
  rw [hsize] at h
  unfold wayDown
  generalize hunits : Nat.pow 2 x.exponent.toNat * scaled = unit at *
  split
  · rename_i hpower
    have hm : x.mantissa = 2 ^ 52 := beq_iff_eq.mp (Bool.and_eq_true_iff.mp hpower).1
    rw [hm] at h
    rw [Nat.mul_assoc, hunits]
    omega
  · have hle : x.mantissa * unit ≤ 2 ^ 53 * unit := Nat.mul_le_mul_right _ hmantissa.le
    rw [Nat.mul_assoc, hunits]
    omega

theorem wayDown_pos (x : Binary64) : 0 < wayDown x := by
  have hunit : 0 < Nat.pow 2 x.exponent.toNat := Nat.pow_pos (by decide)
  unfold wayDown
  split <;> omega

theorem wayDown_le {x : Binary64} (hone : 0 < x.mantissa) : wayDown x ≤ 4 * x.ratio.1 := by
  have hle : Nat.pow 2 x.exponent.toNat ≤ x.mantissa * Nat.pow 2 x.exponent.toNat :=
    Nat.le_mul_of_pos_left _ hone
  have hratio : x.ratio.1 = x.mantissa * Nat.pow 2 x.exponent.toNat := rfl
  unfold wayDown
  split <;> omega

theorem ratio_range {x : Binary64} (hone : 0 < x.mantissa)
    (hexponent : Binary64.minExponent ≤ x.exponent) {n : Nat} (hn : 400 ≤ n) :
    4 * x.ratio.2 ≤ 4 * x.ratio.1 * 10 ^ n := by
  have hratio : 1 ≤ x.ratio.1 := Nat.mul_pos hone (Nat.pow_pos (by decide))
  have hpower : (-x.exponent).toNat ≤ 3 * n := by
    unfold Binary64.minExponent at hexponent
    omega
  have hle : x.ratio.2 ≤ 10 ^ n := calc
    x.ratio.2 ≤ 2 ^ (3 * n) := Nat.pow_le_pow_right (by decide) hpower
    _ = 8 ^ n := by rw [Nat.pow_mul]
    _ ≤ 10 ^ n := Nat.pow_le_pow_left (by decide) n
  calc 4 * x.ratio.2 ≤ 4 * (1 * 10 ^ n) := by omega
    _ ≤ 4 * (x.ratio.1 * 10 ^ n) := Nat.mul_le_mul_left 4 (Nat.mul_le_mul_right _ hratio)
    _ = 4 * x.ratio.1 * 10 ^ n := by ring

/-- **The digits of a number are some.** -/
theorem digits_ne_zero {x : Binary64} (hzero : x.isZero = false) (hmantissa : x.mantissa < 2 ^ 53)
    (hexponent : Binary64.minExponent ≤ x.exponent) : (digits x).1 ≠ 0 := by
  have hone : 0 < x.mantissa := Nat.pos_of_ne_zero (by simpa [Binary64.isZero] using hzero)
  have hsteps := steps_le (magnitude_spec fun n hn => ratio_range hone hexponent hn)
  unfold digits
  rw [interval_eq]
  simp only
  refine dropZeros_ne_zero (Interval.search_ne_zero 17 ?_ (by decide) (by decide))
  generalize magnitude (4 * x.ratio.1) (4 * x.ratio.2) - ((17 : Nat) : Int) = k at *
  have hscale : 0 < 4 * x.ratio.2 * 10 ^ k.toNat :=
    Nat.mul_pos (Nat.mul_pos (by decide) (Nat.pow_pos (by decide))) (Nat.pow_pos (by decide))
  have hpower : 0 < 10 ^ (-k).toNat := Nat.pow_pos (by decide)
  refine Interval.onGrid_isSome (wayDown x * 10 ^ (-k).toNat)
    (2 * Nat.pow 2 x.exponent.toNat * 10 ^ (-k).toNat) ?_ ?_ ?_ ?_ hscale ?_ ?_
  · rw [← Nat.add_mul, Nat.sub_add_cancel (wayDown_le hone)]
  · rw [← Nat.add_mul]
  · exact Nat.mul_pos (wayDown_pos x) hpower
  · exact Nat.mul_pos (Nat.mul_pos (by decide) (Nat.pow_pos (by decide))) hpower
  · exact (Nat.le_mul_of_pos_left _ (by decide)).trans hsteps
  · exact step_lt hmantissa hpower hsteps

end Shortest
end WorkloadIdentity
