/-
# The error of a rounding

A rounded number differs from the ratio that it was rounded from by half a unit in
the last of its places: by a part in `2 ^ 53`, or by half the least number if it is
near zero (`Binary64.Rounds`). A fraction that is cut off moves a number toward zero,
so the numbers that come to be at most a bound are those below the next whole number
if the bound is not negative, and those at most the bound if it is.

Key definitions: `Binary64.magnitude`, `Binary64.toRat`, `Binary64.Rounds`.
Key theorems: `Binary64.ofRatio_rounds`, `Binary64.truncate_le_iff`,
`Binary64.le_truncate_iff`.
-/
import Mathlib.Algebra.Order.Field.Power
import Mathlib.Data.Rat.Floor
import Mathlib.Tactic.FieldSimp
import Mathlib.Tactic.Linarith
import Mathlib.Tactic.NormNum
import WorkloadIdentity.Number.Binary64

namespace WorkloadIdentity
namespace Binary64

/-- The number without its sign. -/
def magnitude (x : Binary64) : ℚ := x.mantissa * 2 ^ x.exponent

/-- The number. -/
def toRat (x : Binary64) : ℚ := if x.negative then -x.magnitude else x.magnitude

theorem magnitude_nonneg (x : Binary64) : 0 ≤ x.magnitude := by
  unfold magnitude
  positivity

@[simp] theorem magnitude_zero (negative : Bool) : (zero negative).magnitude = 0 := by
  simp [magnitude, zero]

@[simp] theorem magnitude_neg (x : Binary64) : x.neg.magnitude = x.magnitude := rfl

theorem isZero_iff (x : Binary64) : x.isZero = true ↔ x.magnitude = 0 := by
  have hpow : (2 : ℚ) ^ x.exponent ≠ 0 := by positivity
  simp [isZero, magnitude, hpow]

/-! ### Ratios -/

/-- A power of two with any exponent is a ratio of two with natural ones. -/
theorem zpow_eq_div (e : Int) : (2 : ℚ) ^ e = 2 ^ e.toNat / 2 ^ (-e).toNat := by
  rcases le_total 0 e with he | he
  · have hneg : (-e).toNat = 0 := by omega
    rw [hneg, pow_zero, div_one, ← zpow_natCast, Int.toNat_of_nonneg he]
  · have hpos : e.toNat = 0 := by omega
    rw [hpos, pow_zero, ← zpow_natCast, Int.toNat_of_nonneg (by omega), zpow_neg, one_div, inv_inv]

theorem zpow_le_zpow {a b : Int} (h : a ≤ b) : (2 : ℚ) ^ a ≤ 2 ^ b :=
  zpow_le_zpow_right₀ one_le_two h

theorem ratio_pos (x : Binary64) : 0 < x.ratio.2 := Nat.pow_pos (by decide)

theorem ratio_eq (x : Binary64) : (x.ratio.1 : ℚ) / x.ratio.2 = x.magnitude := by
  unfold ratio magnitude
  rw [zpow_eq_div, mul_div_assoc']
  simp only [Nat.pow_eq]
  push_cast
  rfl

theorem scaled_pos {p q : Nat} (hq : 0 < q) (e : Int) : 0 < (scaled p q e).2 :=
  Nat.mul_pos hq (Nat.pow_pos (by decide))

theorem scaled_eq (p q : Nat) (e : Int) :
    ((scaled p q e).1 : ℚ) / (scaled p q e).2 = p / q / 2 ^ e := by
  unfold scaled
  rw [zpow_eq_div]
  simp only [Nat.pow_eq]
  push_cast
  field_simp

/-! ### Cutting off a fraction -/

theorem truncate_eq (x : Binary64) :
    x.truncate = if x.negative then -⌊x.magnitude⌋ else ⌊x.magnitude⌋ := by
  have hfloor : ⌊x.magnitude⌋ = ((x.ratio.1 / x.ratio.2 : Nat) : Int) := by
    rw [← ratio_eq, Rat.floor_natCast_div_natCast, Int.natCast_div]
  rw [hfloor]
  rfl

/-- What comes to be at most a bound when its fraction is cut off. -/
theorem truncate_le_iff (x : Binary64) (k : Int) :
    x.truncate ≤ k ↔ if 0 ≤ k then x.toRat < k + 1 else x.toRat ≤ k := by
  have hpos := x.magnitude_nonneg
  rw [truncate_eq]
  unfold toRat
  by_cases hk : 0 ≤ k
  · have hk' : (0 : ℚ) ≤ k := by exact_mod_cast hk
    by_cases hneg : x.negative = true
    · have hfloor : 0 ≤ ⌊x.magnitude⌋ := Int.floor_nonneg.mpr hpos
      simp only [hneg, if_true, hk]
      exact ⟨fun _ => by linarith, fun _ => by omega⟩
    · simp only [hneg, if_false, Bool.false_eq_true, hk, if_true, Int.floor_le_iff]
  · have hk' : (k : ℚ) + 1 ≤ 0 := by exact_mod_cast (by omega : k + 1 ≤ 0)
    by_cases hneg : x.negative = true
    · simp only [hneg, if_true, hk, if_false]
      rw [neg_le, Int.le_floor, neg_le]
      push_cast
      rfl
    · have hfloor : 0 ≤ ⌊x.magnitude⌋ := Int.floor_nonneg.mpr hpos
      simp only [hneg, if_false, Bool.false_eq_true, hk]
      exact ⟨fun _ => by omega, fun _ => by linarith⟩

theorem truncate_neg (x : Binary64) : x.neg.truncate = -x.truncate := by
  rw [truncate_eq, truncate_eq, magnitude_neg]
  cases h : x.negative <;> simp [neg, h]

theorem toRat_neg (x : Binary64) : x.neg.toRat = -x.toRat := by
  unfold toRat
  rw [magnitude_neg]
  cases h : x.negative <;> simp [neg, h]

/-- What comes to be at least a bound when its fraction is cut off. -/
theorem le_truncate_iff (x : Binary64) (k : Int) :
    k ≤ x.truncate ↔ if 0 < k then k ≤ x.toRat else k - 1 < x.toRat := by
  have h := truncate_le_iff x.neg (-k)
  rw [truncate_neg, toRat_neg, neg_le_neg_iff] at h
  rw [h]
  by_cases hk : 0 < k
  · rw [if_neg (by omega), if_pos hk]
    push_cast
    exact neg_le_neg_iff
  · rw [if_pos (by omega), if_neg hk]
    push_cast
    constructor <;> intro h <;> linarith

/-! ### Rounding -/

/-- The nearest natural is not farther than a half. -/
theorem abs_roundHalfEven_sub_le {p q : Nat} (hq : 0 < q) :
    |(roundHalfEven p q : ℚ) - p / q| ≤ 1 / 2 := by
  have hq' : (0 : ℚ) < q := by exact_mod_cast hq
  have hdiv := Nat.div_add_mod p q
  have hrest := Nat.mod_lt p hq
  have hboth : 2 * (q * roundHalfEven p q) ≤ 2 * p + q ∧
      2 * p ≤ 2 * (q * roundHalfEven p q) + q := by
    have hnext : q * (p / q + 1) = q * (p / q) + q := Nat.mul_succ _ _
    simp only [roundHalfEven]
    split_ifs <;> omega
  obtain ⟨habove, hbelow⟩ := hboth
  have habove' : 2 * ((q : ℚ) * roundHalfEven p q) ≤ 2 * p + q := by exact_mod_cast habove
  have hbelow' : 2 * (p : ℚ) ≤ 2 * (q * roundHalfEven p q) + q := by exact_mod_cast hbelow
  have hp : (p : ℚ) = q * (p / q) := by field_simp
  rw [abs_le]
  constructor <;> nlinarith

theorem roundHalfEven_le {p q k : Nat} (h : p / q < k) : roundHalfEven p q ≤ k := by
  simp only [roundHalfEven]
  split_ifs <;> omega

theorem zpow_log2_le {n : Nat} (hn : n ≠ 0) : (2 : ℚ) ^ (n.log2 : Int) ≤ n := by
  rw [zpow_natCast]
  exact_mod_cast Nat.log2_self_le hn

theorem lt_zpow_log2 (n : Nat) : (n : ℚ) < 2 ^ ((n.log2 : Int) + 1) := by
  have h : (n : ℚ) < ((2 ^ (n.log2 + 1) : Nat) : ℚ) := by exact_mod_cast Nat.lt_log2_self
  exact_mod_cast h

/-- The exponent leaves 53 bits for the mantissa, unless it is the least one, and
then it leaves no more. -/
theorem exponentFor_spec {p q : Nat} (hp : p ≠ 0) (hq : q ≠ 0) :
    minExponent ≤ exponentFor p q ∧ (p / q : ℚ) < 2 ^ (exponentFor p q + 53) ∧
      (exponentFor p q = minExponent ∨ 2 ^ (exponentFor p q + 52) ≤ (p / q : ℚ)) := by
  have hq' : (0 : ℚ) < q := by exact_mod_cast Nat.pos_of_ne_zero hq
  generalize he : (p.log2 : Int) - q.log2 - 53 = e
  have hlow : (2 : ℚ) ^ (e + 52) ≤ p / q := by
    rw [le_div_iff₀ hq']
    calc (2 : ℚ) ^ (e + 52) * q ≤ 2 ^ (e + 52) * 2 ^ ((q.log2 : Int) + 1) := by
          gcongr
          exact (lt_zpow_log2 q).le
      _ = 2 ^ (p.log2 : Int) := by
          rw [← zpow_add₀ two_ne_zero]
          congr 1
          omega
      _ ≤ p := zpow_log2_le hp
  have hhigh : (p / q : ℚ) < 2 ^ (e + 54) := by
    rw [div_lt_iff₀ hq']
    calc (p : ℚ) < 2 ^ ((p.log2 : Int) + 1) := lt_zpow_log2 p
      _ = 2 ^ (e + 54) * 2 ^ (q.log2 : Int) := by
          rw [← zpow_add₀ two_ne_zero]
          congr 1
          omega
      _ ≤ 2 ^ (e + 54) * q := by
          gcongr
          exact zpow_log2_le hq
  have htest : (scaled p q e).1 / (scaled p q e).2 < Nat.pow 2 53 ↔ (p / q : ℚ) < 2 ^ (e + 53) := by
    have hpos : (0 : ℚ) < 2 ^ e := by positivity
    have hscaled := scaled_pos (p := p) (Nat.pos_of_ne_zero hq) e
    rw [zpow_add₀ two_ne_zero, ← div_lt_iff₀' hpos, ← scaled_eq,
      div_lt_iff₀ (by exact_mod_cast hscaled), Nat.div_lt_iff_lt_mul hscaled]
    norm_cast
  have hexp : exponentFor p q =
      max (if (p / q : ℚ) < 2 ^ (e + 53) then e else e + 1) minExponent := by
    unfold exponentFor
    simp only [he, htest]
  rw [hexp]
  -- without the least exponent
  generalize hraw : (if (p / q : ℚ) < 2 ^ (e + 53) then e else e + 1) = raw
  have hfits : (p / q : ℚ) < 2 ^ (raw + 53) ∧ 2 ^ (raw + 52) ≤ (p / q : ℚ) := by
    by_cases h : (p / q : ℚ) < 2 ^ (e + 53)
    · rw [if_pos h] at hraw
      subst hraw
      exact ⟨h, hlow⟩
    · rw [if_neg h] at hraw
      subst hraw
      have hbelow : e + 1 + 53 = e + 54 := by omega
      have habove : e + 1 + 52 = e + 53 := by omega
      rw [hbelow, habove]
      exact ⟨hhigh, not_lt.mp h⟩
  refine ⟨le_max_right _ _, ?_, ?_⟩
  · calc (p / q : ℚ) < 2 ^ (raw + 53) := hfits.1
      _ ≤ 2 ^ (max raw minExponent + 53) := by
          gcongr
          · norm_num
          · exact le_max_left _ _
  · rcases le_total raw minExponent with hmin | hmin
    · exact .inl (max_eq_right hmin)
    · rw [max_eq_left hmin]
      exact .inr hfits.2

/-- The number is a ratio in 53 bits: it is off by a part in `2 ^ 53`, or by half the
least number. -/
structure Rounds (x : Binary64) (v : ℚ) : Prop where
  exponent : minExponent ≤ x.exponent
  error : |x.magnitude - v| ≤ v / 2 ^ 53 + 2 ^ (-1075 : Int)

/-- The rounding of a ratio before it is known to be in range. -/
theorem exists_rounded (negative : Bool) {p q : Nat} (hp : p ≠ 0) (hq : q ≠ 0) :
    ∃ m e, ofRatio negative p q = (if maxExponent < e then none else some ⟨negative, m, e⟩) ∧
      Rounds ⟨negative, m, e⟩ (p / q) ∧ (e ≤ 0 ∨ 2 ^ (e + 51) ≤ (p / q : ℚ)) := by
  obtain ⟨hmin, hhigh, hlow⟩ := exponentFor_spec hp hq
  unfold ofRatio
  rw [if_neg hp]
  generalize exponentFor p q = e at hmin hhigh hlow ⊢
  have hpos : (0 : ℚ) < 2 ^ e := by positivity
  have hscaled := scaled_pos (p := p) (Nat.pos_of_ne_zero hq) e
  have hvalue := scaled_eq p q e
  have hbits : (scaled p q e).1 / (scaled p q e).2 < 2 ^ 53 := by
    rw [Nat.div_lt_iff_lt_mul hscaled]
    rw [zpow_add₀ two_ne_zero, ← div_lt_iff₀' hpos, ← hvalue,
      div_lt_iff₀ (by exact_mod_cast hscaled)] at hhigh
    exact_mod_cast hhigh
  have hhalf := abs_roundHalfEven_sub_le (p := (scaled p q e).1) hscaled
  have hmost := roundHalfEven_le hbits
  rw [hvalue] at hhalf
  simp only [Nat.pow_eq]
  generalize roundHalfEven (scaled p q e).1 (scaled p q e).2 = m at hhalf hmost ⊢
  -- a mantissa that takes a bit more is a power of two
  have hkeeps : ∃ m' e', (if m < 2 ^ 53 then (m, e) else (m / 2, e + 1)) = (m', e') ∧
      (e ≤ e' ∧ e' ≤ e + 1) ∧ (m' : ℚ) * 2 ^ e' = m * 2 ^ e := by
    by_cases hm : m < 2 ^ 53
    · exact ⟨m, e, if_pos hm, by omega, rfl⟩
    · refine ⟨m / 2, e + 1, if_neg hm, by omega, ?_⟩
      obtain rfl : m = 2 ^ 53 := by omega
      rw [zpow_add₀ two_ne_zero]
      norm_num
      ring
  obtain ⟨m', e', hpair, ⟨hle, hnext⟩, hsame⟩ := hkeeps
  refine ⟨m', e', ?_, ⟨hmin.trans hle, ?_⟩, ?_⟩
  · rw [hpair]
  · have herror : |(m : ℚ) * 2 ^ e - p / q| ≤ 2 ^ e / 2 := by
      have hfactor : (m : ℚ) * 2 ^ e - p / q = (m - p / q / 2 ^ e) * 2 ^ e := by
        field_simp
      rw [hfactor, abs_mul, abs_of_pos hpos]
      linarith [mul_le_mul_of_nonneg_right hhalf hpos.le]
    have hpart : (0 : ℚ) ≤ p / q / 2 ^ 53 := by positivity
    have hleast : (0 : ℚ) ≤ 2 ^ (-1075 : Int) := by positivity
    unfold magnitude
    rw [hsame]
    apply herror.trans
    rcases hlow with rfl | hlow
    · have hhalf : (2 : ℚ) ^ minExponent / 2 = 2 ^ (-1075 : Int) := by
        rw [div_eq_mul_inv, ← zpow_sub_one₀ two_ne_zero]
        rfl
      linarith
    · have hplaces : (2 : ℚ) ^ (e + 52) / 2 ^ 53 = 2 ^ e / 2 := by
        rw [zpow_add₀ two_ne_zero]
        norm_num
        ring
      have hhalf : (2 : ℚ) ^ e / 2 ≤ p / q / 2 ^ 53 := by
        rw [← hplaces]
        gcongr
      linarith
  · rcases hlow with rfl | hlow
    · left
      unfold minExponent at hnext
      omega
    · right
      have hplaces : (2 : ℚ) ^ (e' + 51) ≤ 2 ^ (e + 52) := zpow_le_zpow (by omega)
      exact hplaces.trans hlow

theorem ofRatio_rounds {negative : Bool} {p q : Nat} {x : Binary64} (hq : q ≠ 0)
    (h : ofRatio negative p q = some x) : x.negative = negative ∧ Rounds x (p / q) := by
  by_cases hp : p = 0
  · rw [ofRatio, if_pos hp] at h
    obtain rfl := Option.some.inj h
    refine ⟨rfl, le_refl _, ?_⟩
    rw [magnitude_zero, hp]
    norm_num
  · obtain ⟨m, e, hrounded, hrounds, -⟩ := exists_rounded negative hp hq
    rw [hrounded] at h
    split_ifs at h
    obtain rfl := Option.some.inj h
    exact ⟨rfl, hrounds⟩

/-- A ratio that is not too large has a rounding. -/
theorem exists_ofRatio (negative : Bool) {p q : Nat} (hq : q ≠ 0)
    (h : (p / q : ℚ) < 2 ^ (1023 : Int)) : ∃ x, ofRatio negative p q = some x := by
  by_cases hp : p = 0
  · exact ⟨zero negative, if_pos hp⟩
  · obtain ⟨m, e, hrounded, -, hlow⟩ := exists_rounded negative hp hq
    have hmax : ¬ maxExponent < e := by
      unfold maxExponent
      rcases hlow with hlow | hlow
      · omega
      · have hlt : e + 51 < 1023 := (zpow_lt_zpow_iff_right₀ one_lt_two).mp (hlow.trans_lt h)
        omega
    exact ⟨_, hrounded.trans (if_neg hmax)⟩

theorem mul?_rounds {x y z : Binary64} (h : x.mul? y = some z) :
    z.negative = (x.negative != y.negative) ∧ Rounds z (x.magnitude * y.magnitude) := by
  have hratio : ofRatio (x.negative != y.negative) (x.ratio.1 * y.ratio.1)
      (x.ratio.2 * y.ratio.2) = some z := h
  have hrounds := ofRatio_rounds (Nat.mul_pos x.ratio_pos y.ratio_pos).ne' hratio
  rwa [Nat.cast_mul, Nat.cast_mul, ← div_mul_div_comm, ratio_eq, ratio_eq] at hrounds

theorem div?_rounds {x y z : Binary64} (hy : y.magnitude ≠ 0) (h : x.div? y = some z) :
    z.negative = (x.negative != y.negative) ∧ Rounds z (x.magnitude / y.magnitude) := by
  have hratio : ofRatio (x.negative != y.negative) (x.ratio.1 * y.ratio.2)
      (x.ratio.2 * y.ratio.1) = some z := h
  have hnum : y.ratio.1 ≠ 0 := by
    intro hzero
    rw [← ratio_eq, hzero] at hy
    simp at hy
  have hrounds := ofRatio_rounds (Nat.mul_ne_zero x.ratio_pos.ne' hnum) hratio
  rwa [Nat.cast_mul, Nat.cast_mul, ← div_div_div_eq, ratio_eq, ratio_eq] at hrounds

/-! ### Relative errors -/

/-- The two differ by at most such a part of the second. -/
def Close (part y x : ℚ) : Prop := x * (1 - part) ≤ y ∧ y ≤ x * (1 + part)

theorem Close.trans {a b x y z : ℚ} (hx : 0 ≤ x) (ha : 0 ≤ a) (hb : 0 ≤ b) (hb' : b ≤ 1)
    (h : Close a y x) (h' : Close b z y) : Close (a + b + a * b) z x := by
  obtain ⟨hlow, hhigh⟩ := h
  obtain ⟨hlow', hhigh'⟩ := h'
  have hbelow : x * (1 - a) * (1 - b) ≤ y * (1 - b) :=
    mul_le_mul_of_nonneg_right hlow (sub_nonneg.mpr hb')
  have habove : y * (1 + b) ≤ x * (1 + a) * (1 + b) :=
    mul_le_mul_of_nonneg_right hhigh (by positivity)
  constructor
  · nlinarith [mul_nonneg hx (mul_nonneg ha hb)]
  · linarith

theorem Close.mul {a b x y s t : ℚ} (hs : 0 ≤ s) (ht : 0 ≤ t) (ha : 0 ≤ a) (ha' : a ≤ 1)
    (hb : 0 ≤ b) (hb' : b ≤ 1) (h : Close a x s) (h' : Close b y t) :
    Close (a + b + a * b) (x * y) (s * t) := by
  obtain ⟨hlow, hhigh⟩ := h
  obtain ⟨hlow', hhigh'⟩ := h'
  have hx : 0 ≤ s * (1 - a) := by
    apply mul_nonneg hs
    linarith
  have hy : 0 ≤ t * (1 - b) := by
    apply mul_nonneg ht
    linarith
  have hbelow : s * (1 - a) * (t * (1 - b)) ≤ x * y := mul_le_mul hlow hlow' hy (hx.trans hlow)
  have habove : x * y ≤ s * (1 + a) * (t * (1 + b)) :=
    mul_le_mul hhigh hhigh' (hy.trans hlow') (by positivity)
  constructor
  · nlinarith [mul_nonneg (mul_nonneg hs ht) (mul_nonneg ha hb)]
  · linarith

theorem Close.inv {b y t : ℚ} (ht : 0 < t) (hb : 0 ≤ b) (hb' : b ≤ 1 / 2) (h : Close b y t) :
    Close (2 * b) y⁻¹ t⁻¹ := by
  obtain ⟨hlow, hhigh⟩ := h
  have hy : 0 < y := lt_of_lt_of_le (mul_pos ht (by linarith)) hlow
  have hbelow : y * (1 - 2 * b) ≤ t := by nlinarith
  have habove : t ≤ y * (1 + 2 * b) := by nlinarith
  constructor
  · rw [inv_mul_le_iff₀ ht, ← div_eq_mul_inv, le_div_iff₀ hy]
    linarith
  · rw [← div_eq_inv_mul, inv_le_iff_one_le_mul₀ hy, div_mul_eq_mul_div, le_div_iff₀ ht]
    linarith

/-- Away from zero a rounding is off by a part only. -/
theorem Rounds.close {x : Binary64} {v : ℚ} (h : Rounds x v) (hv : 2 ^ (-1000 : Int) ≤ v) :
    Close (1 / 2 ^ 52) x.magnitude v := by
  have hleast : (2 : ℚ) ^ (-1075 : Int) ≤ v / 2 ^ 53 := by
    calc (2 : ℚ) ^ (-1075 : Int) ≤ 2 ^ (-1053 : Int) := zpow_le_zpow (by decide)
      _ = 2 ^ (-1000 : Int) / 2 ^ 53 := by
        rw [← zpow_natCast, ← zpow_sub₀ two_ne_zero]
        rfl
      _ ≤ v / 2 ^ 53 := by gcongr
  obtain ⟨hlow, hhigh⟩ := abs_le.mp h.error
  constructor <;> linarith

theorem Rounds.le {x : Binary64} {v bound : ℚ} (h : Rounds x v) (hv : 0 ≤ v) (hbound : v ≤ bound)
    (hleast : 2 ^ (-1075 : Int) ≤ bound) : x.magnitude ≤ 4 * bound := by
  have herror := (abs_le.mp h.error).2
  have hpart : v / 2 ^ 53 ≤ v := div_le_self hv (by norm_num)
  linarith

/-- A rounding of what is close is close, a part more. -/
theorem Rounds.near {x : Binary64} {part w v : ℚ} (h : Rounds x w) (hw : Close part w v)
    (hv : 0 ≤ v) (hpart : part ≤ 13 / 2 ^ 54) :
    |x.magnitude - v| ≤ v / 2 ^ 50 + 2 ^ (-1075 : Int) := by
  obtain ⟨hlow, hhigh⟩ := hw
  obtain ⟨hlow', hhigh'⟩ := abs_le.mp h.error
  have hpart' : v * part ≤ v * (13 / 2 ^ 54) := by gcongr
  rw [abs_le]
  constructor <;> linarith

/-- What is nearer to zero than to the least number becomes zero. -/
theorem Rounds.magnitude_eq_zero {x : Binary64} {v : ℚ} (h : Rounds x v)
    (hv : v ≤ 2 ^ (-1100 : Int)) : x.magnitude = 0 := by
  have hsmall : x.magnitude < 2 ^ (-1074 : Int) := by
    have herror := (abs_le.mp h.error).2
    have hhalf : (2 : ℚ) ^ (-1075 : Int) * 2 = 2 ^ (-1074 : Int) := by
      rw [← zpow_add_one₀ two_ne_zero]
      rfl
    have hleast : (2 : ℚ) ^ (-1100 : Int) * 2 ≤ 2 ^ (-1076 : Int) := by
      rw [← zpow_add_one₀ two_ne_zero]
      exact zpow_le_zpow (by decide)
    have hquarter : (2 : ℚ) ^ (-1076 : Int) * 2 = 2 ^ (-1075 : Int) := by
      rw [← zpow_add_one₀ two_ne_zero]
      rfl
    have hpos : (0 : ℚ) < 2 ^ (-1076 : Int) := by positivity
    linarith
  -- a mantissa other than zero would make it at least the least number
  have hmantissa : x.mantissa = 0 := by
    by_contra hne
    have hone : (1 : ℚ) ≤ x.mantissa := by exact_mod_cast Nat.one_le_iff_ne_zero.mpr hne
    have hleast : (2 : ℚ) ^ (-1074 : Int) ≤ 2 ^ x.exponent :=
      zpow_le_zpow h.exponent
    have hmagnitude : (2 : ℚ) ^ x.exponent ≤ x.magnitude := by
      unfold magnitude
      exact le_mul_of_one_le_left (by positivity) hone
    linarith
  rw [magnitude, hmantissa, Nat.cast_zero, zero_mul]

theorem ofNat_close {n : Nat} (hn : n < 2 ^ 64) :
    (ofNat n).negative = false ∧ Close (1 / 2 ^ 52) (ofNat n).magnitude n := by
  have hbound : (n : ℚ) / (1 : Nat) < 2 ^ (1023 : Int) := by
    rw [Nat.cast_one, div_one]
    calc (n : ℚ) < 2 ^ (64 : Int) := by exact_mod_cast hn
      _ ≤ 2 ^ (1023 : Int) := zpow_le_zpow (by decide)
  obtain ⟨x, hx⟩ := exists_ofRatio false one_ne_zero hbound
  obtain ⟨hneg, hrounds⟩ := ofRatio_rounds one_ne_zero hx
  rw [Nat.cast_one, div_one] at hrounds
  have hofNat : ofNat n = x := by
    rw [ofNat, hx, Option.getD_some]
  rw [hofNat]
  refine ⟨hneg, ?_⟩
  by_cases hzero : n = 0
  · have hmagnitude : x.magnitude = 0 := by
      apply hrounds.magnitude_eq_zero
      rw [hzero, Nat.cast_zero]
      positivity
    rw [Close, hmagnitude, hzero, Nat.cast_zero, zero_mul, zero_mul]
    exact ⟨le_refl _, le_refl _⟩
  · apply hrounds.close
    calc (2 : ℚ) ^ (-1000 : Int) ≤ 1 := zpow_le_one_of_nonpos₀ one_le_two (by decide)
      _ ≤ n := by exact_mod_cast Nat.one_le_iff_ne_zero.mpr hzero

theorem powerOfTen_close {k : Nat} (hk : k ≤ 308) :
    (powerOfTen k).negative = false ∧ Close (1 / 2 ^ 52) (powerOfTen k).magnitude (10 ^ k) := by
  have hinRange : ∃ x, ofRatio false (Nat.pow 10 k) 1 = some x := by
    rcases Nat.lt_or_eq_of_le hk with hlt | rfl
    · apply exists_ofRatio false one_ne_zero
      rw [Nat.cast_one, div_one, Nat.pow_eq, Nat.cast_pow, Nat.cast_ofNat]
      calc (10 : ℚ) ^ k ≤ 10 ^ 307 := pow_le_pow_right₀ (by norm_num) (by omega)
        _ < 2 ^ (1023 : Int) := by
          have hten : 10 ^ 307 < 2 ^ 1023 := by decide +kernel
          exact_mod_cast hten
    · exact Option.isSome_iff_exists.mp (by decide +kernel)
  obtain ⟨x, hx⟩ := hinRange
  obtain ⟨hneg, hrounds⟩ := ofRatio_rounds one_ne_zero hx
  rw [Nat.cast_one, div_one, Nat.pow_eq, Nat.cast_pow, Nat.cast_ofNat] at hrounds
  have hpower : powerOfTen k = x := by
    rw [powerOfTen, hx, Option.getD_some]
  rw [hpower]
  refine ⟨hneg, hrounds.close ?_⟩
  calc (2 : ℚ) ^ (-1000 : Int) ≤ 1 := zpow_le_one_of_nonpos₀ one_le_two (by decide)
    _ ≤ 10 ^ k := one_le_pow₀ (by norm_num)

end Binary64
end WorkloadIdentity
