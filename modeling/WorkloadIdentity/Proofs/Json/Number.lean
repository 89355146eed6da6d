/-
# A number is close to what is written

A number as written stands for a decimal fraction (`Numeral.exact`). Reading it cuts
off the digits that a word of 64 bits cannot hold, rounds what is left, and rounds
again after the power of ten. Each of these changes it by a small part only, and where
the result is near zero by very little, so the number read is the number written up to
a part in `2 ^ 49` (`Numeral.value?_near`).

Key definitions: `Json.Numeral.exact`, `Json.Number.toRat`, `Json.Near`.
Key theorems: `Json.takeDigits_close`, `Json.scale_close`, `Json.Numeral.value?_near`,
`Json.Number.whole_le_iff`, `Json.Number.le_whole_iff`.
-/
import WorkloadIdentity.Json.Number
import WorkloadIdentity.Proofs.Number.Binary64

namespace WorkloadIdentity
namespace Json

open Binary64 (Close Rounds zpow_le_zpow)

/-- The natural that digits after those of a natural make. -/
def decimalFrom (n : Nat) (digits : List Nat) : Nat := digits.foldl (fun n d => n * 10 + d) n

/-- The natural that digits make. -/
def decimal (digits : List Nat) : Nat := decimalFrom 0 digits

/-- The number that a numeral stands for, without its sign. -/
def Numeral.magnitude (t : Numeral) : ℚ :=
  let fraction := t.fraction.getD []
  let power : Int := match t.exponent with
    | none => 0
    | some (isNegative, digits) => if isNegative then -(decimal digits : Int) else decimal digits
  decimal (t.whole ++ fraction) * 10 ^ (power - fraction.length)

/-- The number that a numeral stands for. -/
def Numeral.exact (t : Numeral) : ℚ := if t.negative then -t.magnitude else t.magnitude

/-- The number that a number is. -/
def Number.toRat : Number → ℚ
  | integer n => n
  | real x => x.toRat

/-- The first number is the second up to a part in `2 ^ 49`, and to very little where the
second is near zero. -/
def Near (q v : ℚ) : Prop := |q - v| ≤ |v| / 2 ^ 49 + 2 ^ (-900 : Int)

theorem near_of_eq {q v : ℚ} (h : q = v) : Near q v := by
  rw [Near, h, sub_self, abs_zero]
  positivity

theorem Near.neg {q v : ℚ} (h : Near q v) : Near (-q) (-v) := by
  unfold Near at h ⊢
  rwa [neg_sub_neg, abs_sub_comm, abs_neg]

/-- Two numbers of one sign are near if they are without it. -/
theorem near_of_sign {x : Binary64} {t : Numeral} (hneg : x.negative = t.negative)
    (h : Near x.magnitude t.magnitude) : Near x.toRat t.exact := by
  unfold Binary64.toRat Numeral.exact
  rw [hneg]
  split_ifs
  · exact h.neg
  · exact h

/-! ### Digits -/

theorem decimalFrom_eq (n : Nat) (digits : List Nat) :
    decimalFrom n digits = n * 10 ^ digits.length + decimal digits := by
  unfold decimal
  induction digits generalizing n with
  | nil => simp [decimalFrom]
  | cons d rest ih =>
    have hfirst : decimalFrom n (d :: rest) = decimalFrom (n * 10 + d) rest := rfl
    have hzero : decimalFrom 0 (d :: rest) = decimalFrom (0 * 10 + d) rest := rfl
    rw [hfirst, hzero, ih (n * 10 + d), ih (0 * 10 + d), List.length_cons, pow_succ]
    ring

theorem decimal_append (xs ys : List Nat) :
    decimal (xs ++ ys) = decimalFrom (decimal xs) ys := by
  unfold decimal decimalFrom
  exact List.foldl_append

theorem decimal_lt : ∀ {digits : List Nat}, (∀ d ∈ digits, d < 10) →
    decimal digits < 10 ^ digits.length
  | [], _ => Nat.one_pos
  | d :: rest, h => by
    have hrest := decimal_lt fun x hx => h x (List.mem_cons_of_mem d hx)
    have hd : d + 1 ≤ 10 := h d List.mem_cons_self
    have hstep : decimal (d :: rest) = decimalFrom (0 * 10 + d) rest := rfl
    rw [hstep, decimalFrom_eq, List.length_cons, pow_succ]
    calc (0 * 10 + d) * 10 ^ rest.length + decimal rest
        < (d + 1) * 10 ^ rest.length := by
          rw [zero_mul, zero_add, add_mul, one_mul]
          omega
      _ ≤ 10 * 10 ^ rest.length := Nat.mul_le_mul_right _ hd
      _ = 10 ^ rest.length * 10 := Nat.mul_comm _ _

/-- What a word keeps of digits: the first of them, and so many that with another the
word is full. -/
structure Kept (n : Nat) (digits : List Nat) (kept left : Nat) : Prop where
  left_le : left ≤ digits.length
  below : kept * 10 ^ left ≤ decimalFrom n digits
  above : decimalFrom n digits < (kept + 1) * 10 ^ left
  first : n * 10 ^ digits.length ≤ kept * 10 ^ left
  full : left = 0 ∨ 2 ^ 60 ≤ kept
  fits : n < 2 ^ 64 → kept < 2 ^ 64

theorem takeDigits_kept : ∀ {digits : List Nat} (n : Nat), (∀ d ∈ digits, d < 10) →
    Kept n digits (takeDigits n digits).1 (takeDigits n digits).2
  | [], n, _ => by
    constructor <;> simp [takeDigits, decimalFrom]
  | d :: rest, n, h => by
    have hd : d < 10 := h d List.mem_cons_self
    have hrest : ∀ x ∈ rest, x < 10 := fun x hx => h x (List.mem_cons_of_mem d hx)
    have hpow : (0 : Nat) < 10 ^ rest.length := Nat.pow_pos (by decide)
    have hlength : (10 : Nat) ^ (d :: rest).length = 10 ^ rest.length * 10 := pow_succ _ _
    by_cases hfits : n * 10 + d < 2 ^ 64
    · have htake : takeDigits n (d :: rest) = takeDigits (n * 10 + d) rest := if_pos hfits
      rw [htake]
      have ih := takeDigits_kept (n * 10 + d) hrest
      refine ⟨Nat.le_succ_of_le ih.left_le, ih.below, ih.above, ?_, ih.full, fun _ => ih.fits hfits⟩
      calc n * 10 ^ (d :: rest).length = n * 10 * 10 ^ rest.length := by rw [hlength]; ring
        _ ≤ (n * 10 + d) * 10 ^ rest.length := Nat.mul_le_mul_right _ (Nat.le_add_right _ _)
        _ ≤ _ := ih.first
    · have htake : takeDigits n (d :: rest) = (n, (d :: rest).length) := if_neg hfits
      have hlt := decimal_lt h
      rw [htake]
      constructor
      case left_le => exact le_refl _
      case below =>
        rw [decimalFrom_eq]
        exact Nat.le_add_right _ _
      case above =>
        rw [decimalFrom_eq, add_mul, one_mul]
        exact Nat.add_lt_add_left hlt _
      case first => exact le_refl _
      case full =>
        right
        show 2 ^ 60 ≤ n
        omega
      case fits => exact id

/-- Nothing is lost if no digit is left. -/
theorem Kept.eq {n kept : Nat} {digits : List Nat} (h : Kept n digits kept 0) :
    decimalFrom n digits = kept := by
  have hbelow := h.below
  have habove := h.above
  rw [pow_zero, mul_one] at hbelow habove
  exact le_antisymm (Nat.le_of_lt_succ habove) hbelow

/-- The number stands between a multiple of a unit and the next. -/
def Between (k unit a : Nat) : Prop := k * unit ≤ a ∧ a < (k + 1) * unit

theorem Between.mul {k unit a c : Nat} (h : Between k unit a) (hc : 0 < c) :
    Between k (unit * c) (a * c) := by
  obtain ⟨hlow, hhigh⟩ := h
  constructor
  · rw [← mul_assoc]
    exact Nat.mul_le_mul_right c hlow
  · rw [← mul_assoc]
    exact Nat.mul_lt_mul_of_pos_right hhigh hc

/-- More digits do not lead out of it. -/
theorem Between.append {k unit n : Nat} {digits : List Nat} (h : Between k unit n)
    (hdigits : ∀ d ∈ digits, d < 10) :
    Between k (unit * 10 ^ digits.length) (decimalFrom n digits) := by
  obtain ⟨hlow, hhigh⟩ := h
  have hlt := decimal_lt hdigits
  rw [decimalFrom_eq]
  constructor
  · calc k * (unit * 10 ^ digits.length) = k * unit * 10 ^ digits.length := (mul_assoc _ _ _).symm
      _ ≤ n * 10 ^ digits.length := Nat.mul_le_mul_right _ hlow
      _ ≤ n * 10 ^ digits.length + decimal digits := Nat.le_add_right _ _
  · calc n * 10 ^ digits.length + decimal digits < (n + 1) * 10 ^ digits.length := by
          rw [add_mul, one_mul]
          omega
      _ ≤ (k + 1) * unit * 10 ^ digits.length := Nat.mul_le_mul_right _ hhigh
      _ = (k + 1) * (unit * 10 ^ digits.length) := mul_assoc _ _ _

/-- What is kept, with zeros for what is left, is no more than all digits, and starts with the
first of them. -/
theorem Kept.between {n kept left : Nat} {digits : List Nat} (h : Kept n digits kept left)
    (hdigits : ∀ d ∈ digits, d < 10) : Between n (10 ^ digits.length) (kept * 10 ^ left) := by
  refine ⟨h.first, h.below.trans_lt ?_⟩
  have hlt := decimal_lt hdigits
  rw [decimalFrom_eq, add_mul, one_mul]
  omega

/-- Two numbers between one multiple of a unit and the next, where the multiple is large,
differ by a small part. -/
theorem close_of_between {k unit a b : Nat} (hk : 2 ^ 60 ≤ k) (ha : Between k unit a)
    (hb : Between k unit b) : Close (1 / 2 ^ 60) a b := by
  obtain ⟨hlow, hhigh⟩ := ha
  obtain ⟨hlow', hhigh'⟩ := hb
  rw [add_mul, one_mul] at hhigh hhigh'
  have hunit : 2 ^ 60 * unit ≤ b := (Nat.mul_le_mul_right _ hk).trans hlow'
  have hab : a ≤ b + unit := by omega
  have hba : b ≤ a + unit := by omega
  have hunit' : (2 : ℚ) ^ 60 * unit ≤ b := by exact_mod_cast hunit
  have hab' : (a : ℚ) ≤ b + unit := by exact_mod_cast hab
  have hba' : (b : ℚ) ≤ a + unit := by exact_mod_cast hba
  constructor <;> linarith

/-- A word keeps the digits before and after the point up to a small part, even where it
keeps some after having left out some before. -/
theorem takeDigits_close {whole fraction : List Nat} (hwhole : ∀ d ∈ whole, d < 10)
    (hfraction : ∀ d ∈ fraction, d < 10) {first dropped kept left : Nat}
    (hfirst : takeDigits 0 whole = (first, dropped))
    (hkept : takeDigits first fraction = (kept, left)) :
    kept < 2 ^ 64 ∧ left ≤ fraction.length ∧
      Close (1 / 2 ^ 60) (kept * 10 ^ (dropped + left)) (decimal (whole ++ fraction)) := by
  have h := takeDigits_kept 0 hwhole
  have h' := takeDigits_kept first hfraction
  rw [hfirst] at h
  rw [hkept] at h'
  refine ⟨h'.fits (h.fits (by decide)), h'.left_le, ?_⟩
  rw [decimal_append]
  have hclose : Close (1 / 2 ^ 60) ((kept * 10 ^ (dropped + left) : Nat) : ℚ)
      (decimalFrom (decimal whole) fraction) := by
    rcases h.full with rfl | hfull
    · -- all digits before the point are kept
      rw [decimal, h.eq, zero_add]
      rcases h'.full with rfl | hfull'
      · rw [h'.eq, pow_zero, mul_one]
        have hpos : (0 : ℚ) ≤ kept := Nat.cast_nonneg kept
        constructor <;> linarith
      · have hself : Between kept (10 ^ left) (kept * 10 ^ left) := by
          refine ⟨le_refl _, Nat.mul_lt_mul_of_pos_right (Nat.lt_succ_self _) ?_⟩
          exact Nat.pow_pos (by decide)
        exact close_of_between hfull' hself ⟨h'.below, h'.above⟩
    · -- what is kept before the point bounds both
      have hread : Between first (10 ^ dropped * 10 ^ fraction.length)
          (kept * 10 ^ (dropped + left)) := by
        have hsplit : kept * 10 ^ (dropped + left) = kept * 10 ^ left * 10 ^ dropped := by
          rw [add_comm, pow_add, mul_assoc]
        rw [hsplit, mul_comm (10 ^ dropped)]
        exact (h'.between hfraction).mul (Nat.pow_pos (by decide))
      have hwritten : Between first (10 ^ dropped) (decimal whole) := ⟨h.below, h.above⟩
      exact close_of_between hfull hread (hwritten.append hfraction)
  exact_mod_cast hclose

/-! ### Powers of ten -/

theorem two_pow_le_ten_pow : (2 : ℚ) ^ (1000 : Int) ≤ 10 ^ tableEnd := by
  have h : 2 ^ 1000 ≤ 10 ^ tableEnd := by decide +kernel
  exact_mod_cast h

/-- A power of ten that the table does not go down to is far below one. -/
theorem ten_zpow_le {e : Int} (he : e ≤ -(tableEnd : Int)) : (10 : ℚ) ^ e ≤ 2 ^ (-1000 : Int) := by
  calc (10 : ℚ) ^ e ≤ 10 ^ (-(tableEnd : Int)) := zpow_le_zpow_right₀ (by norm_num) he
    _ = (10 ^ tableEnd)⁻¹ := by rw [zpow_neg, zpow_natCast]
    _ ≤ (2 ^ (1000 : Int))⁻¹ := inv_anti₀ (by positivity) two_pow_le_ten_pow
    _ = 2 ^ (-1000 : Int) := (zpow_neg _ _).symm

/-- The table's greatest power takes a number far down. -/
theorem div?_tableEnd {x y : Binary64} (h : x.div? (Binary64.powerOfTen tableEnd) = some y) :
    y.negative = x.negative ∧ ∃ v, 0 ≤ v ∧ v ≤ x.magnitude * 2 ^ (-999 : Int) ∧ Rounds y v := by
  obtain ⟨hsign, hlow, -⟩ := Binary64.powerOfTen_close (le_refl tableEnd)
  have hlarge : (2 : ℚ) ^ (999 : Int) ≤ (Binary64.powerOfTen tableEnd).magnitude := by
    calc (2 : ℚ) ^ (999 : Int) = 2 ^ (1000 : Int) * 2⁻¹ := zpow_sub_one₀ two_ne_zero 1000
      _ ≤ 10 ^ tableEnd * 2⁻¹ := mul_le_mul_of_nonneg_right two_pow_le_ten_pow (by norm_num)
      _ ≤ 10 ^ tableEnd * (1 - 1 / 2 ^ 52) :=
        mul_le_mul_of_nonneg_left (by norm_num) (by positivity)
      _ ≤ (Binary64.powerOfTen tableEnd).magnitude := hlow
  have hpos : (0 : ℚ) < 2 ^ (999 : Int) := by positivity
  obtain ⟨hneg, hrounds⟩ := Binary64.div?_rounds (hpos.trans_le hlarge).ne' h
  rw [hsign, Bool.bne_false] at hneg
  refine ⟨hneg, _, div_nonneg x.magnitude_nonneg (hpos.trans_le hlarge).le, ?_, hrounds⟩
  rw [zpow_neg, ← div_eq_mul_inv]
  exact div_le_div_of_nonneg_left x.magnitude_nonneg hpos hlarge

theorem lower_of_le (steps : Nat) (x : Binary64) {e : Int} (he : -(tableEnd : Int) ≤ e) :
    lower steps x e = some (x, e) := by
  cases steps with
  | zero => rfl
  | succ steps => exact if_neg (not_lt.mpr he)

theorem lower_of_lt (steps : Nat) (x : Binary64) {e : Int} (he : e < -(tableEnd : Int)) :
    lower (steps + 1) x e =
      (x.div? (Binary64.powerOfTen tableEnd)).bind fun y => lower steps y (e + tableEnd) :=
  if_pos he

/-- Zero stays zero. -/
theorem lower_of_zero {steps : Nat} {x y : Binary64} {e e' : Int} (hx : x.magnitude = 0)
    (h : lower steps x e = some (y, e')) : y.negative = x.negative ∧ y.magnitude = 0 := by
  induction steps generalizing x e with
  | zero =>
    obtain ⟨rfl, rfl⟩ := Prod.mk.inj (Option.some.inj h)
    exact ⟨rfl, hx⟩
  | succ steps ih =>
    by_cases he : e < -(tableEnd : Int)
    · rw [lower_of_lt _ _ he] at h
      obtain ⟨z, hz, h⟩ := Option.bind_eq_some_iff.mp h
      obtain ⟨hneg, v, -, hv, hrounds⟩ := div?_tableEnd hz
      rw [hx, zero_mul] at hv
      have hzero : z.magnitude = 0 := by
        apply hrounds.magnitude_eq_zero
        exact hv.trans (by positivity)
      obtain ⟨hneg', hy⟩ := ih hzero h
      exact ⟨hneg'.trans hneg, hy⟩
    · rw [lower_of_le _ _ (not_lt.mp he)] at h
      obtain ⟨rfl, rfl⟩ := Prod.mk.inj (Option.some.inj h)
      exact ⟨rfl, hx⟩

theorem scale_of_lower {x z : Binary64} {e e' : Int} (h : lower 3 x e = some (z, e')) :
    scale x e = if z.isZero then some z
      else if (tableEnd : Int) < e' then none
      else if 0 ≤ e' then z.mul? (Binary64.powerOfTen e'.toNat)
      else z.div? (Binary64.powerOfTen (-e').toNat) := by
  unfold scale
  rw [h]
  rfl

/-- A number that is close, times a power of the table, is close, a few parts more. -/
theorem scale_of_le {x y : Binary64} {e : Int} {s : ℚ} (he : -(tableEnd : Int) ≤ e) (hs : 0 ≤ s)
    (hx : Close (1 / 2 ^ 52) x.magnitude s) (h : scale x e = some y) :
    y.negative = x.negative ∧
      |y.magnitude - s * 10 ^ e| ≤ s * 10 ^ e / 2 ^ 50 + 2 ^ (-1075 : Int) := by
  have hpower : (0 : ℚ) < 10 ^ e := by positivity
  rw [scale_of_lower (lower_of_le 3 x he)] at h
  by_cases hzero : x.isZero = true
  · rw [if_pos hzero] at h
    obtain rfl := Option.some.inj h
    have hmagnitude := x.isZero_iff.mp hzero
    have hs' : s = 0 := by
      have hlow := hx.1
      linarith
    refine ⟨rfl, ?_⟩
    rw [hmagnitude, hs', zero_mul, sub_zero, abs_zero]
    positivity
  rw [if_neg hzero] at h
  split_ifs at h with hlast hsign
  · -- times a power
    have hk : e.toNat ≤ 308 := by
      unfold tableEnd at hlast
      omega
    obtain ⟨hneg, hclose⟩ := Binary64.powerOfTen_close hk
    obtain ⟨hneg', hrounds⟩ := Binary64.mul?_rounds h
    rw [hneg, Bool.bne_false] at hneg'
    have hten : (10 : ℚ) ^ e.toNat = 10 ^ e := by
      rw [← zpow_natCast, Int.toNat_of_nonneg hsign]
    rw [hten] at hclose
    have hboth := hx.mul hs hpower.le (by norm_num) (by norm_num) (by norm_num) (by norm_num) hclose
    exact ⟨hneg', hrounds.near hboth (by positivity) (by norm_num)⟩
  · -- over a power
    have hk : (-e).toNat ≤ 308 := by
      unfold tableEnd at he
      omega
    obtain ⟨hneg, hclose⟩ := Binary64.powerOfTen_close hk
    have hten : (10 : ℚ) ^ (-e).toNat = (10 ^ e)⁻¹ := by
      rw [← zpow_natCast, Int.toNat_of_nonneg (by omega), zpow_neg]
    have hpos : (0 : ℚ) < 10 ^ (-e).toNat := by positivity
    have hne : (Binary64.powerOfTen (-e).toNat).magnitude ≠ 0 := by
      have hlow := hclose.1
      intro hmagnitude
      rw [hmagnitude] at hlow
      nlinarith
    obtain ⟨hneg', hrounds⟩ := Binary64.div?_rounds hne h
    rw [hneg, Bool.bne_false] at hneg'
    have hinv := hclose.inv hpos (by norm_num) (by norm_num)
    rw [hten, inv_inv] at hinv
    have hboth := hx.mul hs hpower.le (by norm_num) (by norm_num) (by norm_num) (by norm_num) hinv
    rw [← div_eq_mul_inv] at hboth
    exact ⟨hneg', hrounds.near hboth (by positivity) (by norm_num)⟩

/-- A small number stays small. -/
theorem scale_of_small {x y : Binary64} {e : Int} (he : -(tableEnd : Int) ≤ e) (he' : e ≤ 0)
    (hx : x.magnitude ≤ 2 ^ (-932 : Int)) (h : scale x e = some y) :
    y.negative = x.negative ∧ y.magnitude ≤ 2 ^ (-900 : Int) := by
  have hpos := x.magnitude_nonneg
  have hsame : Close (1 / 2 ^ 52) x.magnitude x.magnitude := by
    constructor <;> linarith
  obtain ⟨hneg, hnear⟩ := scale_of_le he hpos hsame h
  have hone : (10 : ℚ) ^ e ≤ 1 := zpow_le_one_of_nonpos₀ (by norm_num) he'
  have hle : x.magnitude * 10 ^ e ≤ 2 ^ (-932 : Int) := (mul_le_of_le_one_right hpos hone).trans hx
  have hpart : x.magnitude * 10 ^ e / 2 ^ 50 ≤ 2 ^ (-932 : Int) :=
    (div_le_self (by positivity) (by norm_num)).trans hle
  have hleast : (2 : ℚ) ^ (-1075 : Int) ≤ 2 ^ (-932 : Int) := zpow_le_zpow (by decide)
  refine ⟨hneg, ?_⟩
  calc y.magnitude ≤ 4 * 2 ^ (-932 : Int) := by
        have hleast' : (0 : ℚ) < 2 ^ (-932 : Int) := by positivity
        have hhigh := (abs_le.mp hnear).2
        linarith
    _ = 2 ^ (2 : Int) * 2 ^ (-932 : Int) := by norm_num
    _ = 2 ^ (-930 : Int) := (zpow_add₀ two_ne_zero _ _).symm
    _ ≤ 2 ^ (-900 : Int) := zpow_le_zpow (by decide)

/-- Below the table every number of a word comes near to zero, and after a second step to
zero itself. -/
theorem scale_of_lt {x y : Binary64} {e : Int} (he : e < -(tableEnd : Int))
    (hx : x.magnitude ≤ 2 ^ (65 : Int)) (h : scale x e = some y) :
    y.negative = x.negative ∧ y.magnitude ≤ 2 ^ (-900 : Int) := by
  obtain ⟨⟨z, e'⟩, hlower⟩ : ∃ pair, lower 3 x e = some pair := by
    obtain ⟨pair, hlower, -⟩ := Option.bind_eq_some_iff.mp h
    exact ⟨pair, hlower⟩
  rw [scale_of_lower hlower] at h
  rw [lower_of_lt _ _ he] at hlower
  obtain ⟨first, hfirst, hlower⟩ := Option.bind_eq_some_iff.mp hlower
  obtain ⟨hneg, v, hv, hv', hrounds⟩ := div?_tableEnd hfirst
  have hsmall : first.magnitude ≤ 2 ^ (-932 : Int) := by
    have hbound : v ≤ 2 ^ (-934 : Int) := by
      calc v ≤ x.magnitude * 2 ^ (-999 : Int) := hv'
        _ ≤ 2 ^ (65 : Int) * 2 ^ (-999 : Int) := by gcongr
        _ = 2 ^ (-934 : Int) := (zpow_add₀ two_ne_zero _ _).symm
    calc first.magnitude ≤ 4 * 2 ^ (-934 : Int) := hrounds.le hv hbound (zpow_le_zpow (by decide))
      _ = 2 ^ (2 : Int) * 2 ^ (-934 : Int) := by norm_num
      _ = 2 ^ (-932 : Int) := (zpow_add₀ two_ne_zero _ _).symm
  by_cases hin : -(tableEnd : Int) ≤ e + tableEnd
  · rw [lower_of_le _ _ hin] at hlower
    obtain ⟨rfl, rfl⟩ := Prod.mk.inj (Option.some.inj hlower)
    rw [← scale_of_lower (lower_of_le 3 first hin)] at h
    obtain ⟨hneg', hy⟩ := scale_of_small hin (by omega) hsmall h
    exact ⟨hneg'.trans hneg, hy⟩
  · rw [lower_of_lt _ _ (not_le.mp hin)] at hlower
    obtain ⟨second, hsecond, hlower⟩ := Option.bind_eq_some_iff.mp hlower
    obtain ⟨hneg', w, -, hw, hrounds'⟩ := div?_tableEnd hsecond
    have hzero : second.magnitude = 0 := by
      apply hrounds'.magnitude_eq_zero
      calc w ≤ first.magnitude * 2 ^ (-999 : Int) := hw
        _ ≤ 2 ^ (-932 : Int) * 2 ^ (-999 : Int) := by gcongr
        _ = 2 ^ (-1931 : Int) := (zpow_add₀ two_ne_zero _ _).symm
        _ ≤ 2 ^ (-1100 : Int) := zpow_le_zpow (by decide)
    obtain ⟨hneg'', hz⟩ := lower_of_zero hzero hlower
    rw [if_pos (z.isZero_iff.mpr hz)] at h
    obtain rfl := Option.some.inj h
    refine ⟨hneg''.trans (hneg'.trans hneg), ?_⟩
    rw [hz]
    positivity

/-- The rounded digits of a word times any power of ten are close to the power of ten times
the digits. -/
theorem scale_close {kept : Nat} {y : Binary64} {e : Int} (hkept : kept < 2 ^ 64)
    (h : scale (Binary64.ofNat kept) e = some y) :
    y.negative = false ∧
      |y.magnitude - kept * 10 ^ e| ≤ kept * 10 ^ e / 2 ^ 50 + 2 ^ (-900 : Int) := by
  obtain ⟨hneg, hclose⟩ := Binary64.ofNat_close hkept
  by_cases he : -(tableEnd : Int) ≤ e
  · obtain ⟨hneg', hnear⟩ := scale_of_le he (Nat.cast_nonneg kept) hclose h
    have hleast : (2 : ℚ) ^ (-1075 : Int) ≤ 2 ^ (-900 : Int) := zpow_le_zpow (by decide)
    exact ⟨hneg'.trans hneg, by linarith⟩
  · have hword : (kept : ℚ) ≤ 2 ^ (64 : Int) := by exact_mod_cast hkept.le
    have hround : (Binary64.ofNat kept).magnitude ≤ 2 ^ (65 : Int) := by
      calc (Binary64.ofNat kept).magnitude ≤ kept * (1 + 1 / 2 ^ 52) := hclose.2
        _ ≤ 2 ^ (64 : Int) * 2 := by
          gcongr
          norm_num
        _ = 2 ^ (65 : Int) := (zpow_add_one₀ two_ne_zero _).symm
    obtain ⟨hneg', hsmall⟩ := scale_of_lt (not_le.mp he) hround h
    have hpower := ten_zpow_le (not_le.mp he).le
    have hexact : kept * 10 ^ e ≤ (2 : ℚ) ^ (-900 : Int) := by
      calc kept * 10 ^ e ≤ (2 : ℚ) ^ (64 : Int) * 2 ^ (-1000 : Int) := by gcongr
        _ = 2 ^ (-936 : Int) := (zpow_add₀ two_ne_zero _ _).symm
        _ ≤ 2 ^ (-900 : Int) := zpow_le_zpow (by decide)
    have hpos : (0 : ℚ) ≤ kept * 10 ^ e := by positivity
    have hpart : (0 : ℚ) ≤ kept * 10 ^ e / 2 ^ 50 := by positivity
    have hmagnitude := y.magnitude_nonneg
    refine ⟨hneg'.trans hneg, ?_⟩
    rw [abs_le]
    constructor <;> linarith

/-! ### Exponents -/

/-- Digits that 31 bits can hold are read as they are; all others make a number that 31 bits
cannot hold. -/
theorem power?_eq (digits : List Nat) :
    power? digits = if decimal digits < 2 ^ 31 then some (decimal digits) else none := by
  -- once the number is too large it stays as it is, and the digits make it larger
  have hfold : ∀ (ds : List Nat) (n m : Nat), (n = m ∨ 2 ^ 31 ≤ n ∧ 2 ^ 31 ≤ m) →
      ds.foldl (fun n d => if Nat.pow 2 31 ≤ n then n else n * 10 + d) n = decimalFrom m ds ∨
        2 ^ 31 ≤ ds.foldl (fun n d => if Nat.pow 2 31 ≤ n then n else n * 10 + d) n ∧
          2 ^ 31 ≤ decimalFrom m ds := by
    intro ds
    induction ds with
    | nil => exact fun n m h => h
    | cons d rest ih =>
      intro n m h
      apply ih _ (m * 10 + d)
      simp only [Nat.pow_eq]
      split_ifs <;> omega
  have h := hfold digits 0 0 (.inl rfl)
  unfold power? decimal
  rw [Nat.pow_eq] at h ⊢
  simp only
  generalize digits.foldl _ 0 = n at h ⊢
  rcases h with rfl | ⟨hn, hm⟩
  · rfl
  · rw [if_neg (not_lt.mpr hn), if_neg (not_lt.mpr hm)]

/-! ### Numbers -/

/-- A numeral of decimal digits that is not billions of digits long. -/
structure Numeral.IsSane (t : Numeral) : Prop where
  whole : ∀ d ∈ t.whole, d < 10
  fraction : ∀ d ∈ t.fraction.getD [], d < 10
  length : t.whole.length < 2 ^ 30

/-- The kept digits at a power of ten come to the number that all digits make. -/
theorem near_of_scale {kept places digits : Nat} {p : Int} {y : Binary64} (hkept : kept < 2 ^ 64)
    (hclose : Close (1 / 2 ^ 60) (kept * 10 ^ places) digits)
    (h : scale (Binary64.ofNat kept) (places + p) = some y) :
    y.negative = false ∧ Near y.magnitude (digits * 10 ^ p) := by
  obtain ⟨hneg, hnear⟩ := scale_close hkept h
  have hpower : (0 : ℚ) < 10 ^ p := by positivity
  have hsplit : (kept : ℚ) * 10 ^ (places + p : Int) = kept * 10 ^ places * 10 ^ p := by
    rw [zpow_add₀ (by norm_num), zpow_natCast, mul_assoc]
  rw [hsplit] at hnear
  have hlow := mul_le_mul_of_nonneg_right hclose.1 hpower.le
  have hhigh := mul_le_mul_of_nonneg_right hclose.2 hpower.le
  have hpos : (0 : ℚ) ≤ digits * 10 ^ p := by positivity
  obtain ⟨hlow', hhigh'⟩ := abs_le.mp hnear
  refine ⟨hneg, ?_⟩
  rw [Near, abs_of_nonneg hpos, abs_le]
  constructor <;> linarith

/-- Digits far below one make a number near to zero. -/
theorem near_zero_of_power {whole fraction : List Nat} {n : Nat} (hwhole : ∀ d ∈ whole, d < 10)
    (hfraction : ∀ d ∈ fraction, d < 10) (hlength : whole.length < 2 ^ 30) (hn : 2 ^ 31 ≤ n) :
    (decimal (whole ++ fraction) : ℚ) * 10 ^ (-(n : Int) - fraction.length) ≤ 2 ^ (-900 : Int) := by
  have hdigits : decimal (whole ++ fraction) < 10 ^ (whole ++ fraction).length := by
    apply decimal_lt
    intro d hd
    exact (List.mem_append.mp hd).elim (hwhole d) (hfraction d)
  have hdigits' : (decimal (whole ++ fraction) : ℚ) ≤ 10 ^ ((whole ++ fraction).length : Int) := by
    exact_mod_cast hdigits.le
  calc (decimal (whole ++ fraction) : ℚ) * 10 ^ (-(n : Int) - fraction.length)
      ≤ 10 ^ ((whole ++ fraction).length : Int) * 10 ^ (-(n : Int) - fraction.length) := by gcongr
    _ = 10 ^ (whole.length - n : Int) := by
      rw [← zpow_add₀ (by norm_num), List.length_append]
      congr 1
      omega
    _ ≤ 2 ^ (-1000 : Int) := by
      apply ten_zpow_le
      unfold tableEnd
      omega
    _ ≤ 2 ^ (-900 : Int) := zpow_le_zpow (by decide)

/-- An exponent that is too large is taken for zero, where it is negative or nothing but zeros
is kept; and the number is near to zero there. -/
theorem near_of_large_power {whole fraction : List Nat} {kept places n : Nat} {isNegative : Bool}
    (hwhole : ∀ d ∈ whole, d < 10) (hfraction : ∀ d ∈ fraction, d < 10)
    (hlength : whole.length < 2 ^ 30)
    (hclose : Close (1 / 2 ^ 60) (kept * 10 ^ places) (decimal (whole ++ fraction)))
    (hn : 2 ^ 31 ≤ n) (hzero : ¬ (kept ≠ 0 ∧ (!isNegative) = true)) :
    Near 0 (decimal (whole ++ fraction) *
      10 ^ ((if isNegative then -(n : Int) else n) - fraction.length)) := by
  rw [Near, zero_sub, abs_neg, abs_of_nonneg (by positivity)]
  by_cases hkept : kept = 0
  · have hdigits : (decimal (whole ++ fraction) : ℚ) = 0 := by
      have hlow := hclose.1
      have hpos : (0 : ℚ) ≤ decimal (whole ++ fraction) := Nat.cast_nonneg _
      rw [hkept, Nat.cast_zero, zero_mul] at hlow
      linarith
    rw [hdigits, zero_mul, zero_div, zero_add]
    positivity
  · obtain rfl : isNegative = true := by simpa [hkept] using hzero
    have hsmall := near_zero_of_power hwhole hfraction hlength hn
    apply hsmall.trans
    exact le_add_of_nonneg_left (by positivity)

theorem Numeral.real?_near {t : Numeral} {y : Binary64} (ht : t.IsSane) (h : t.real? = some y) :
    y.negative = t.negative ∧ Near y.magnitude t.magnitude := by
  obtain ⟨negative, whole, fraction, exponent⟩ := t
  obtain ⟨hwhole, hfraction, hlength⟩ := ht
  simp only at hwhole hfraction hlength
  unfold real? at h
  simp only at h
  -- it is enough to look at the number before it gets its sign
  suffices hunsigned : ∃ z : Binary64, y = (if negative then z.neg else z) ∧ z.negative = false ∧
      Near z.magnitude (magnitude ⟨negative, whole, fraction, exponent⟩) by
    obtain ⟨z, rfl, hsign, hnear⟩ := hunsigned
    cases negative with
    | false => exact ⟨hsign, hnear⟩
    | true => exact ⟨congrArg not hsign, hnear⟩
  have hpure : ∀ {read : Option Binary64},
      (read.bind fun z => some (if negative then z.neg else z)) = some y →
        ∃ z, read = some z ∧ y = if negative then z.neg else z := by
    intro read h
    obtain ⟨z, hz, h⟩ := Option.bind_eq_some_iff.mp h
    exact ⟨z, hz, (Option.some.inj h).symm⟩
  unfold magnitude
  simp only
  generalize fraction.getD [] = fraction at hfraction h ⊢
  rcases hfirst : takeDigits 0 whole with ⟨first, dropped⟩
  rcases hkept : takeDigits first fraction with ⟨kept, left⟩
  obtain ⟨hword, hleft, hclose⟩ := takeDigits_close hwhole hfraction hfirst hkept
  rw [hfirst] at h
  simp only [hkept] at h
  have hstart : (dropped : Int) - (fraction.length - left : Nat) =
      ((dropped + left : Nat) : Int) - fraction.length := by omega
  rw [hstart] at h
  cases exponent with
  | none =>
    obtain ⟨z, hz, hy⟩ := hpure h
    have hplaces : ((dropped + left : Nat) : Int) - fraction.length =
        ((dropped + left : Nat) : Int) + (0 - fraction.length) := by omega
    rw [hplaces] at hz
    exact ⟨z, hy, near_of_scale hword hclose hz⟩
  | some exponent =>
    obtain ⟨isNegative, digits⟩ := exponent
    simp only [power?_eq] at h ⊢
    by_cases hpower : decimal digits < 2 ^ 31
    · simp only [if_pos hpower] at h
      obtain ⟨z, hz, hy⟩ := hpure h
      refine ⟨z, hy, near_of_scale hword hclose ?_⟩
      rw [← hz]
      congr 1
      split_ifs <;> omega
    · simp only [if_neg hpower] at h
      by_cases hlarge : kept ≠ 0 ∧ (!isNegative) = true
      · rw [if_pos hlarge] at h
        cases h
      · rw [if_neg hlarge] at h
        obtain ⟨z, hz, hy⟩ := hpure h
        obtain rfl := Option.some.inj hz
        refine ⟨_, hy, rfl, ?_⟩
        rw [Binary64.magnitude_zero]
        exact near_of_large_power hwhole hfraction hlength hclose (not_lt.mp hpower) hlarge

/-- An integer is written in digits only. -/
theorem Numeral.magnitude_of_integer {t : Numeral} (hfraction : t.fraction = none)
    (hexponent : t.exponent = none) : t.magnitude = decimal t.whole := by
  unfold magnitude
  rw [hfraction, hexponent]
  simp

/-- **A number is close to what is written.** -/
theorem Numeral.value?_near {t : Numeral} {n : Number} (ht : t.IsSane) (h : t.value? = some n) :
    Near n.toRat t.exact := by
  unfold value? at h
  rcases hwhole : takeDigits 0 t.whole with ⟨kept, dropped⟩
  have hkept := takeDigits_kept 0 ht.whole
  rw [hwhole] at h hkept
  simp only at h hkept
  by_cases hinteger : (t.fraction.isNone && t.exponent.isNone && dropped == 0) = true
  · rw [if_pos hinteger] at h
    simp only [Bool.and_eq_true, Option.isNone_iff_eq_none, beq_iff_eq] at hinteger
    obtain ⟨⟨hfraction, hexponent⟩, rfl⟩ := hinteger
    have hvalue : t.magnitude = kept := by
      rw [magnitude_of_integer hfraction hexponent, decimal, hkept.eq]
    by_cases hneg : t.negative = true
    · have hexact : t.exact = -kept := by rw [exact, if_pos hneg, hvalue]
      simp only [hneg, Bool.not_true, Bool.false_eq_true, if_false] at h
      split_ifs at h with hzero hword
      · obtain rfl := Option.some.inj h
        apply near_of_eq
        simp [Number.toRat, Binary64.toRat, hexact, hzero]
      · obtain rfl := Option.some.inj h
        apply near_of_eq
        simp [Number.toRat, hexact]
      · obtain rfl := Option.some.inj h
        obtain ⟨hsign, hclose⟩ := Binary64.ofNat_close (hkept.fits (by decide))
        have hpos : (0 : ℚ) ≤ kept := Nat.cast_nonneg kept
        have hleast : (0 : ℚ) < 2 ^ (-900 : Int) := by positivity
        obtain ⟨hlow, hhigh⟩ := hclose
        apply near_of_sign
        · rw [hneg, Binary64.neg, hsign, Bool.not_false]
        · rw [Binary64.magnitude_neg, hvalue, Near, abs_of_nonneg hpos, abs_le]
          constructor <;> linarith
    · have hexact : t.exact = kept := by rw [exact, if_neg hneg, hvalue]
      simp only [hneg, Bool.not_false, if_true] at h
      obtain rfl := Option.some.inj h
      apply near_of_eq
      simp [Number.toRat, hexact]
  · rw [if_neg hinteger] at h
    obtain ⟨x, hx, rfl⟩ := Option.map_eq_some_iff.mp h
    obtain ⟨hneg, hnear⟩ := real?_near ht hx
    exact near_of_sign hneg hnear

/-! ### Whole parts -/

/-- The whole part of a number, toward zero. -/
def Number.whole : Number → Int
  | integer n => n
  | real x => x.truncate

theorem Number.whole_le_iff (n : Number) (k : Int) :
    n.whole ≤ k ↔ if 0 ≤ k then n.toRat < k + 1 else n.toRat ≤ k := by
  cases n with
  | integer n =>
    simp only [whole, toRat]
    split_ifs
    · rw [← Int.lt_add_one_iff]
      exact_mod_cast Iff.rfl
    · exact Int.cast_le.symm
  | real x => exact x.truncate_le_iff k

theorem Number.le_whole_iff (n : Number) (k : Int) :
    k ≤ n.whole ↔ if 0 < k then k ≤ n.toRat else k - 1 < n.toRat := by
  cases n with
  | integer n =>
    simp only [whole, toRat]
    split_ifs
    · exact Int.cast_le.symm
    · rw [← Int.sub_one_lt_iff]
      exact_mod_cast Iff.rfl
  | real x => exact x.le_truncate_iff k

end Json
end WorkloadIdentity
