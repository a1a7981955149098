/-
# Calculator.Proofs.Decimal.Significant -- rounding to significant digits

A decimal with a given number of digits is what a number rounds to when no other one with as
many digits is nearer, and of two at the same distance it is the even one (`RoundsTo`).  There
is at most one such decimal (`RoundsTo.unique`), and `Decimal.significant` is it.

Rounding happens on the grid of the multiples of `10 ^ exponent`, for the exponent that gives
the number its digits in front of the point.  A decimal with as many digits lies on that grid
(`exists_toRat_eq`), or else below all those of the grid and so farther away
(`HasDigits.toRat_lt_of_finer`).

* `placeOf_spec`: the place of the first digit, by its powers of ten;
* `significant_roundsTo`, `roundsTo_iff`: rounding to significant digits is correct.
-/
import Mathlib.Data.Rat.Cast.Order
import Mathlib.Algebra.Order.Field.Power
import Mathlib.Tactic.FieldSimp
import Mathlib.Tactic.Linarith
import Mathlib.Tactic.Ring
import Calculator.Decimal
import Calculator.Proofs.Decimal.Digits
import Calculator.Proofs.Decimal.SameValue

namespace Calculator

set_option autoImplicit false

/-! ## Rounding a quotient -/

/-- Distances on a grid, in steps of the grid. -/
theorem distance_scaled {step : ℚ} (positive : 0 < step) (x n : ℚ) :
    |x - n * step| = |x / step - n| * step := by
  calc |x - n * step| = |(x / step - n) * step| := by rw [sub_mul, div_mul_cancel₀ _ positive.ne']
    _ = |x / step - n| * step := by rw [abs_mul, abs_of_pos positive]

section Quotient

variable {num den : Nat}

theorem roundHalfEven_close (pos : 0 < den) :
    |(num / den : ℚ) - roundHalfEven num den| ≤ 1 / 2 := by
  obtain ⟨above, below⟩ := roundHalfEven_within num den pos
  have positive : (0 : ℚ) < den := by exact_mod_cast pos
  have above' : (2 * num : ℚ) ≤ 2 * (roundHalfEven num den * den) + den := by exact_mod_cast above
  have below' : (2 * (roundHalfEven num den * den) : ℚ) ≤ 2 * num + den := by exact_mod_cast below
  have low : (roundHalfEven num den - 1 / 2 : ℚ) ≤ num / den := by
    rw [le_div_iff₀ positive]
    linarith
  have high : (num / den : ℚ) ≤ roundHalfEven num den + 1 / 2 := by
    rw [div_le_iff₀ positive]
    linarith
  rw [abs_le]
  constructor <;> linarith

theorem roundHalfEven_even_of_half (pos : 0 < den)
    (half : |(num / den : ℚ) - roundHalfEven num den| = 1 / 2) :
    roundHalfEven num den % 2 = 0 := by
  have nonzero : (den : ℚ) ≠ 0 := by exact_mod_cast Nat.ne_of_gt pos
  refine roundHalfEven_even num den pos ?_
  rcases (abs_eq (by norm_num)).mp half with above | below
  · left
    have split : (2 * num : ℚ) = 2 * (roundHalfEven num den * den) + den := by
      rw [sub_eq_iff_eq_add, div_eq_iff nonzero] at above
      linarith
    exact_mod_cast split
  · right
    have split : (2 * (roundHalfEven num den * den) : ℚ) = 2 * num + den := by
      rw [sub_eq_iff_eq_add, div_eq_iff nonzero] at below
      linarith
    exact_mod_cast split

/-- Another whole number is at least half a unit away. -/
theorem half_le_of_ne (pos : 0 < den) {n : Nat} (other : n ≠ roundHalfEven num den) :
    1 / 2 ≤ |(num / den : ℚ) - n| := by
  have close : |(num / den : ℚ) - roundHalfEven num den| ≤ 1 / 2 := roundHalfEven_close pos
  have apart : (1 : ℚ) ≤ |(n : ℚ) - roundHalfEven num den| := by
    have whole : (1 : ℤ) ≤ |(n : ℤ) - roundHalfEven num den| :=
      Int.one_le_abs (sub_ne_zero.mpr (by exact_mod_cast other))
    exact_mod_cast whole
  have triangle : |(n : ℚ) - roundHalfEven num den| ≤
      |(num / den : ℚ) - n| + |(num / den : ℚ) - roundHalfEven num den| := by
    rw [abs_sub_comm (num / den : ℚ) n]
    exact abs_sub_le _ _ _
  linarith

/-- No whole number is nearer. -/
theorem roundHalfEven_nearest (num : Nat) (pos : 0 < den) (n : Nat) :
    |(num / den : ℚ) - roundHalfEven num den| ≤ |(num / den : ℚ) - n| := by
  by_cases same : n = roundHalfEven num den
  · rw [same]
  · exact (roundHalfEven_close pos).trans (half_le_of_ne pos same)

/-- Where another one is as near, the even one is taken. -/
theorem roundHalfEven_tie (pos : 0 < den) {n : Nat} (other : n ≠ roundHalfEven num den)
    (tie : |(num / den : ℚ) - n| = |(num / den : ℚ) - roundHalfEven num den|) :
    roundHalfEven num den % 2 = 0 :=
  roundHalfEven_even_of_half pos
    (le_antisymm (roundHalfEven_close pos) (tie ▸ half_le_of_ne pos other))

end Quotient

namespace Decimal

theorem ten_zpow_pos (k : Int) : (0 : ℚ) < 10 ^ k := by positivity

/-! ## The number of a decimal -/

/-- The number that a decimal stands for. -/
def toRat (d : Decimal) : ℚ := d.coefficient * 10 ^ d.exponent

theorem ten_zpow_eq (k : Int) : (10 : ℚ) ^ k = (10 ^ k.toNat : Nat) / (10 ^ (-k).toNat : Nat) := by
  rcases Int.le_total 0 k with whole | below
  · obtain ⟨n, rfl⟩ := Int.eq_ofNat_of_zero_le whole
    have flat : (-(n : Int)).toNat = 0 := by omega
    simp [flat]
  · obtain ⟨n, rfl⟩ := Int.exists_eq_neg_ofNat below
    have flat : (-(n : Int)).toNat = 0 := by omega
    simp [flat]

theorem toRat_eq (d : Decimal) : d.toRat = d.numerator / d.denominator := by
  rw [toRat, ten_zpow_eq, numerator, denominator]
  push_cast
  ring

theorem SameValue.toRat_eq {d e : Decimal} (same : d.SameValue e) : d.toRat = e.toRat := by
  have left : (d.denominator : ℚ) ≠ 0 := by exact_mod_cast d.denominator_pos.ne'
  have right : (e.denominator : ℚ) ≠ 0 := by exact_mod_cast e.denominator_pos.ne'
  rw [Decimal.toRat_eq, Decimal.toRat_eq, div_eq_div_iff left right]
  exact_mod_cast same

/-! ## Places -/

/-- **The place of the first digit**: the number lies between its power of ten and the next. -/
theorem placeOf_spec {num den : Nat} (posNum : 0 < num) (posDen : 0 < den) :
    (10 : ℚ) ^ placeOf num den ≤ num / den ∧ (num / den : ℚ) < 10 ^ (placeOf num den + 1) := by
  have positive : (0 : ℚ) < den := by exact_mod_cast posDen
  rw [le_div_iff₀ positive, div_lt_iff₀ positive, placeOf]
  split
  · -- one or more: the digits of the whole part
    rename_i large
    obtain ⟨k, length⟩ := Nat.exists_eq_succ_of_ne_zero (length_digits_pos (num / den)).ne'
    obtain ⟨low, high⟩ := (length_digits_eq_iff (Nat.div_pos large posDen)).mp length
    have place : ((digits (num / den)).length : Int) - 1 = k := by omega
    have low' := (Nat.le_div_iff_mul_le posDen).mp low
    have high' := (Nat.div_lt_iff_lt_mul posDen).mp high
    rw [place, ← Nat.cast_succ, zpow_natCast, zpow_natCast]
    exact ⟨by exact_mod_cast low', by exact_mod_cast high'⟩
  · -- less than one: how often ten goes into it
    rename_i small
    have turned : 0 < (den - 1) / num := Nat.div_pos (by omega) posNum
    obtain ⟨k, length⟩ := Nat.exists_eq_succ_of_ne_zero (length_digits_pos ((den - 1) / num)).ne'
    obtain ⟨low, high⟩ := (length_digits_eq_iff turned).mp length
    have low' := (Nat.le_div_iff_mul_le posNum).mp low
    have high' := (Nat.div_lt_iff_lt_mul posNum).mp high
    have place : -((digits ((den - 1) / num)).length : Int) = -(k + 1 : Nat) := by omega
    have next : -((k + 1 : Nat) : Int) + 1 = -(k : Nat) := by omega
    rw [place, next, zpow_neg, zpow_neg, zpow_natCast, zpow_natCast,
      inv_mul_le_iff₀ (by positivity), lt_inv_mul_iff₀ (by positivity)]
    constructor
    · have : den ≤ 10 ^ (k + 1) * num := by omega
      exact_mod_cast this
    · have : 10 ^ k * num < den := by omega
      exact_mod_cast this

/-! ## Decimals with a number of digits -/

/-- The coefficient has this many digits. -/
structure HasDigits (count : Nat) (d : Decimal) : Prop where
  low : 10 ^ (count - 1) ≤ d.coefficient
  high : d.coefficient < 10 ^ count

/-- A decimal is on every grid that is finer than its own. -/
theorem exists_toRat_eq {d : Decimal} {exponent : Int} (coarse : exponent ≤ d.exponent) :
    ∃ n : Nat, d.toRat = n * 10 ^ exponent := by
  obtain ⟨k, shift⟩ := Int.le.dest coarse
  refine ⟨d.coefficient * 10 ^ k, ?_⟩
  rw [toRat, ← shift, zpow_add₀ (by norm_num), zpow_natCast]
  push_cast
  ring

namespace HasDigits

variable {count : Nat} {d e : Decimal}

theorem le_toRat (digits : d.HasDigits count) :
    (10 : ℚ) ^ (count - 1) * 10 ^ d.exponent ≤ d.toRat := by
  have low : (10 : ℚ) ^ (count - 1) ≤ d.coefficient := by exact_mod_cast digits.low
  exact mul_le_mul_of_nonneg_right low (ten_zpow_pos _).le

theorem toRat_lt (digits : d.HasDigits count) : d.toRat < (10 : ℚ) ^ count * 10 ^ d.exponent := by
  have high : (d.coefficient : ℚ) < 10 ^ count := by exact_mod_cast digits.high
  exact mul_lt_mul_of_pos_right high (ten_zpow_pos _)

/-- As many digits on a finer grid make a lesser number. -/
theorem toRat_lt_of_finer (digits : d.HasDigits count) (some_digit : 0 < count) {exponent : Int}
    (finer : d.exponent < exponent) : d.toRat < (10 : ℚ) ^ (count - 1) * 10 ^ exponent := by
  obtain ⟨k, rfl⟩ := Nat.exists_eq_succ_of_ne_zero some_digit.ne'
  calc d.toRat < (10 : ℚ) ^ (k + 1) * 10 ^ d.exponent := digits.toRat_lt
    _ = (10 : ℚ) ^ k * 10 ^ (d.exponent + 1) := by
        rw [pow_succ, zpow_add_one₀ (by norm_num)]
        ring
    _ ≤ (10 : ℚ) ^ k * 10 ^ exponent := by
        gcongr
        · norm_num
        · omega

/-- A number has one decimal with as many digits. -/
theorem eq_of_toRat_eq (left : d.HasDigits count) (right : e.HasDigits count)
    (some_digit : 0 < count) (same : d.toRat = e.toRat) : d = e := by
  have exponents : d.exponent = e.exponent := by
    rcases lt_trichotomy d.exponent e.exponent with finer | equal | finer
    · exact absurd same (((left.toRat_lt_of_finer some_digit finer).trans_le right.le_toRat).ne)
    · exact equal
    · exact absurd same ((right.toRat_lt_of_finer some_digit finer).trans_le left.le_toRat).ne'
  rw [toRat, toRat, exponents] at same
  have coefficients : d.coefficient = e.coefficient := by
    exact_mod_cast mul_right_cancel₀ (ten_zpow_pos _).ne' same
  obtain ⟨c, k⟩ := d
  obtain ⟨c', k'⟩ := e
  obtain rfl : c = c' := coefficients
  obtain rfl : k = k' := exponents
  rfl

end HasDigits

/-- **The decimal that a number rounds to**: of the decimals with as many digits none is nearer,
and where another one is as near, this one is even. -/
structure RoundsTo (count : Nat) (x : ℚ) (d : Decimal) : Prop where
  digits : d.HasDigits count
  nearest : ∀ e : Decimal, e.HasDigits count → |x - d.toRat| ≤ |x - e.toRat|
  even : ∀ e : Decimal, e.HasDigits count → e ≠ d → |x - e.toRat| = |x - d.toRat| →
    d.coefficient % 2 = 0

namespace RoundsTo

variable {count : Nat} {x : ℚ} {d e : Decimal}

/-- Between two even decimals with as many digits there is an odd one. -/
theorem exists_between (some_digit : 0 < count) (left : d.HasDigits count)
    (right : e.HasDigits count) (below : d.toRat < e.toRat) (evenLeft : d.coefficient % 2 = 0)
    (evenRight : e.coefficient % 2 = 0) :
    ∃ s : Decimal, s.HasDigits count ∧ d.toRat < s.toRat ∧ s.toRat < e.toRat := by
  have positive := ten_zpow_pos d.exponent
  have full : 10 ^ count % 2 = 0 := by
    obtain ⟨k, rfl⟩ := Nat.exists_eq_succ_of_ne_zero some_digit.ne'
    rw [Nat.pow_succ]
    omega
  have digits : HasDigits count ⟨d.coefficient + 1, d.exponent⟩ := by
    obtain ⟨low, high⟩ := left
    exact ⟨Nat.le_succ_of_le low, by show d.coefficient + 1 < 10 ^ count; omega⟩
  have next : toRat ⟨d.coefficient + 1, d.exponent⟩ = d.toRat + 10 ^ d.exponent := by
    rw [toRat, toRat]
    push_cast
    ring
  refine ⟨⟨d.coefficient + 1, d.exponent⟩, digits, by linarith, ?_⟩
  -- the upper one is on the grid of the lower, so that the next one there is not above it
  have coarse : d.exponent ≤ e.exponent := by
    by_contra finer
    have small := right.toRat_lt_of_finer some_digit (not_le.mp finer)
    linarith [left.le_toRat]
  obtain ⟨n, point⟩ := exists_toRat_eq coarse
  have larger : (d.coefficient : ℚ) < n := by
    rw [point, toRat] at below
    exact lt_of_mul_lt_mul_right below positive.le
  have step : ((d.coefficient + 1 : Nat) : ℚ) ≤ n := by
    exact_mod_cast (by exact_mod_cast larger : d.coefficient < n)
  refine lt_of_le_of_ne ?_ fun same => ?_
  · rw [point]
    exact mul_le_mul_of_nonneg_right step positive.le
  · have equal := digits.eq_of_toRat_eq right some_digit same
    rw [← equal] at evenRight
    have odd : (d.coefficient + 1) % 2 = 0 := evenRight
    omega

/-- **A number rounds to one decimal.** -/
theorem unique (some_digit : 0 < count) (left : RoundsTo count x d) (right : RoundsTo count x e) :
    d = e := by
  have apart : ∀ {d e : Decimal}, RoundsTo count x d → RoundsTo count x e →
      ¬ d.toRat < e.toRat := by
    intro d e left right below
    have tie : |x - e.toRat| = |x - d.toRat| :=
      le_antisymm (right.nearest d left.digits) (left.nearest e right.digits)
    have other : e ≠ d := by
      rintro rfl
      exact lt_irrefl _ below
    obtain ⟨s, digits, above, under⟩ := exists_between some_digit left.digits right.digits below
      (left.even e right.digits other tie) (right.even d left.digits other.symm tie.symm)
    -- the number is in the middle, and what lies between is nearer
    have nearest := left.nearest s digits
    have nearest' := right.nearest s digits
    grind
  refine left.digits.eq_of_toRat_eq right.digits some_digit ?_
  exact le_antisymm (not_lt.mp (apart right left)) (not_lt.mp (apart left right))

end RoundsTo

/-! ## Rounding on a grid -/

section Grid

variable {num den : Nat} (exponent : Int)

/-- The multiple of `10 ^ exponent` that is nearest to a quotient. -/
def toGrid (num den : Nat) (exponent : Int) : Nat :=
  roundHalfEven (num * 10 ^ (-exponent).toNat) (den * 10 ^ exponent.toNat)

theorem grid_pos (pos : 0 < den) : 0 < den * 10 ^ exponent.toNat :=
  Nat.mul_pos pos (Nat.pow_pos (by decide))

theorem scaled_eq :
    ((num * 10 ^ (-exponent).toNat : Nat) / (den * 10 ^ exponent.toNat : Nat) : ℚ) =
      num / den / 10 ^ exponent := by
  rw [ten_zpow_eq]
  push_cast
  field_simp

theorem distance_eq (x : ℚ) (n : Nat) :
    |x - n * 10 ^ exponent| = |x / 10 ^ exponent - n| * 10 ^ exponent :=
  distance_scaled (ten_zpow_pos exponent) x n

theorem toGrid_nearest (num : Nat) (pos : 0 < den) (n : Nat) :
    |(num / den : ℚ) - toGrid num den exponent * 10 ^ exponent| ≤
      |(num / den : ℚ) - n * 10 ^ exponent| := by
  have nearest := roundHalfEven_nearest (num * 10 ^ (-exponent).toNat) (grid_pos exponent pos) n
  rw [scaled_eq] at nearest
  rw [distance_eq, distance_eq]
  exact mul_le_mul_of_nonneg_right nearest (ten_zpow_pos exponent).le

theorem toGrid_tie (pos : 0 < den) {n : Nat} (other : n ≠ toGrid num den exponent)
    (tie : |(num / den : ℚ) - n * 10 ^ exponent| =
      |(num / den : ℚ) - toGrid num den exponent * 10 ^ exponent|) :
    toGrid num den exponent % 2 = 0 := by
  rw [distance_eq, distance_eq] at tie
  refine roundHalfEven_tie (grid_pos exponent pos) other ?_
  rw [scaled_eq]
  exact mul_right_cancel₀ (ten_zpow_pos exponent).ne' tie

theorem le_toGrid (pos : 0 < den) {n : Nat} (low : n * (10 : ℚ) ^ exponent ≤ num / den) :
    n ≤ toGrid num den exponent := by
  have scaled := (le_div_iff₀ (ten_zpow_pos exponent)).mpr low
  rw [← scaled_eq, le_div_iff₀ (by exact_mod_cast grid_pos exponent pos)] at scaled
  exact le_roundHalfEven (grid_pos exponent pos) (by exact_mod_cast scaled)

theorem toGrid_le (pos : 0 < den) {n : Nat} (high : (num / den : ℚ) < n * 10 ^ exponent) :
    toGrid num den exponent ≤ n := by
  have scaled := (div_lt_iff₀ (ten_zpow_pos exponent)).mpr high
  rw [← scaled_eq, div_lt_iff₀ (by exact_mod_cast grid_pos exponent pos)] at scaled
  exact roundHalfEven_le (grid_pos exponent pos) (by exact_mod_cast scaled)

end Grid

/-! ## Significant digits -/

section Significant

variable {count num den : Nat}

/-- The exponent for which all digits stand in front of the point. -/
def gridExponent (count num den : Nat) : Int := placeOf num den - (count - 1 : Nat)

theorem significant_eq (count num den : Nat) :
    significant count num den =
      if toGrid num den (gridExponent count num den) = 10 ^ count then
        ⟨10 ^ (count - 1), gridExponent count num den + 1⟩
      else ⟨toGrid num den (gridExponent count num den), gridExponent count num den⟩ := rfl

/-- A carry changes the digits and the exponent, but not the number. -/
theorem toRat_significant (some_digit : 0 < count) (num den : Nat) :
    (significant count num den).toRat =
      toGrid num den (gridExponent count num den) * 10 ^ gridExponent count num den := by
  rw [significant_eq]
  split
  · rename_i carry
    obtain ⟨k, rfl⟩ := Nat.exists_eq_succ_of_ne_zero some_digit.ne'
    rw [carry, toRat, zpow_add_one₀ (by norm_num)]
    push_cast
    rw [pow_succ]
    ring
  · rfl

/-- The number has the wanted digits in front of the point of its grid. -/
theorem gridExponent_spec (some_digit : 0 < count) (posNum : 0 < num) (posDen : 0 < den) :
    (10 : ℚ) ^ (count - 1) * 10 ^ gridExponent count num den ≤ num / den ∧
      (num / den : ℚ) < 10 ^ count * 10 ^ gridExponent count num den := by
  obtain ⟨low, high⟩ := placeOf_spec posNum posDen
  obtain ⟨k, rfl⟩ := Nat.exists_eq_succ_of_ne_zero some_digit.ne'
  have place : placeOf num den = (k : Int) + gridExponent (k + 1) num den := by
    rw [gridExponent]
    omega
  have next : placeOf num den + 1 = ((k + 1 : Nat) : Int) + gridExponent (k + 1) num den := by
    omega
  rw [next, zpow_add₀ (by norm_num), zpow_natCast] at high
  rw [place, zpow_add₀ (by norm_num), zpow_natCast] at low
  exact ⟨low, high⟩

theorem hasDigits_significant (some_digit : 0 < count) (posNum : 0 < num) (posDen : 0 < den) :
    (significant count num den).HasDigits count := by
  obtain ⟨low, high⟩ := gridExponent_spec some_digit posNum posDen
  have least : 10 ^ (count - 1) ≤ toGrid num den (gridExponent count num den) :=
    le_toGrid _ posDen (by exact_mod_cast low)
  have most : toGrid num den (gridExponent count num den) ≤ 10 ^ count :=
    toGrid_le _ posDen (by exact_mod_cast high)
  rw [significant_eq]
  split
  · exact ⟨le_rfl, Nat.pow_lt_pow_right (by decide) (by omega)⟩
  · rename_i regular
    exact ⟨least, lt_of_le_of_ne most regular⟩

/-- A carry leaves an even coefficient. -/
theorem significant_even (several : 1 < count)
    (even : toGrid num den (gridExponent count num den) % 2 = 0) :
    (significant count num den).coefficient % 2 = 0 := by
  rw [significant_eq]
  split
  · obtain ⟨k, rfl⟩ : ∃ k, count = k + 2 := ⟨count - 2, by omega⟩
    show 10 ^ (k + 1) % 2 = 0
    rw [Nat.pow_succ]
    omega
  · exact even

/-- **Rounding to significant digits is correct.** -/
theorem significant_roundsTo (several : 1 < count) (posNum : 0 < num) (posDen : 0 < den) :
    RoundsTo count (num / den) (significant count num den) := by
  have some_digit : 0 < count := by omega
  have number := toRat_significant some_digit num den
  have width := hasDigits_significant some_digit posNum posDen
  obtain ⟨low, -⟩ := gridExponent_spec some_digit posNum posDen
  have least := toGrid_nearest (gridExponent count num den) num posDen (10 ^ (count - 1))
  rw [← number] at least
  push_cast at least
  rw [abs_of_nonneg (sub_nonneg.mpr low)] at least
  -- a decimal off the grid is too small to be as near
  have off : ∀ e : Decimal, e.HasDigits count → e.exponent < gridExponent count num den →
      |(num / den : ℚ) - (significant count num den).toRat| < |(num / den : ℚ) - e.toRat| := by
    intro e digits finer
    have small := digits.toRat_lt_of_finer some_digit finer
    rw [abs_of_nonneg (sub_nonneg.mpr (small.le.trans low))]
    linarith
  refine ⟨width, ?_, ?_⟩
  · intro e digits
    rcases Int.lt_or_le e.exponent (gridExponent count num den) with finer | coarse
    · exact (off e digits finer).le
    · obtain ⟨n, point⟩ := exists_toRat_eq coarse
      rw [point, number]
      exact toGrid_nearest _ num posDen n
  · intro e digits other tie
    rcases Int.lt_or_le e.exponent (gridExponent count num den) with finer | coarse
    · exact absurd tie (off e digits finer).ne'
    · obtain ⟨n, point⟩ := exists_toRat_eq coarse
      have another : n ≠ toGrid num den (gridExponent count num den) := by
        rintro rfl
        exact other (digits.eq_of_toRat_eq width some_digit (point.trans number.symm))
      rw [point, number] at tie
      exact significant_even several (toGrid_tie _ posDen another tie)

/-- It is the only decimal that a quotient rounds to. -/
theorem roundsTo_iff (several : 1 < count) (posNum : 0 < num) (posDen : 0 < den) {d : Decimal} :
    RoundsTo count (num / den) d ↔ d = significant count num den := by
  have rounded := significant_roundsTo several posNum posDen
  constructor
  · intro other
    exact other.unique (by omega) rounded
  · rintro rfl
    exact rounded

end Significant

end Decimal
end Calculator
