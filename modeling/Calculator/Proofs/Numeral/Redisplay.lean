/-
# Calculator.Proofs.Numeral.Redisplay -- reading the text of a result

The text of a result is a numeral when it has no exponent, and then the value that it reads as
is shown by the same text.  That value need not be the result's own, of which only fifteen
digits are shown.

Decimals of fifteen digits are farther apart than doubles of their size: another one is off by
at least one part in `10 ^ 15` of the number (`Decimal.HasDigits.apart`), and reading moves the
number by at most one part in `2 ^ 53` (`Decimal.readsAs_close`).  So what is read rounds to the
decimal it was read from (`Decimal.RoundsTo.of_close`).

* `exists_reread`: a positional text is read as a value that it shows;
* `value?_of_mark`: a text with an exponent is no numeral.
-/
import Calculator.Proofs.Numeral.Grammar

namespace Calculator

set_option autoImplicit false

namespace Decimal

/-! ## Decimals with as many digits -/

section Apart

variable {count : Nat} {d e : Decimal}

/-- Of two decimals on one grid the step between them tells them apart. -/
theorem HasDigits.apart_of_coarser (left : d.HasDigits count) (other : d.toRat ≠ e.toRat)
    (coarse : d.exponent ≤ e.exponent) : d.toRat ≤ 10 ^ count * |d.toRat - e.toRat| := by
  obtain ⟨n, point⟩ := exists_toRat_eq coarse
  have positive := ten_zpow_pos d.exponent
  have apart : (1 : ℚ) ≤ |(d.coefficient : ℚ) - n| := by
    have different : (d.coefficient : ℤ) - n ≠ 0 := by
      intro same
      have equal : d.coefficient = n := by omega
      exact other (by rw [point, toRat, equal])
    exact_mod_cast Int.one_le_abs different
  have distance : |d.toRat - e.toRat| = |(d.coefficient : ℚ) - n| * 10 ^ d.exponent := by
    rw [point, toRat, ← sub_mul, abs_mul, abs_of_pos positive]
  rw [distance]
  calc d.toRat ≤ 10 ^ count * 10 ^ d.exponent := left.toRat_lt.le
    _ ≤ 10 ^ count * (|(d.coefficient : ℚ) - n| * 10 ^ d.exponent) := by
        gcongr
        exact le_mul_of_one_le_left positive.le apart

/-- A decimal of a finer grid lies below those with as many digits, by a step of its own. -/
theorem HasDigits.apart_of_finer (left : d.HasDigits count) (right : e.HasDigits count)
    (some_digit : 0 < count) (finer : e.exponent < d.exponent) :
    d.toRat ≤ 10 ^ count * |d.toRat - e.toRat| := by
  obtain ⟨k, rfl⟩ := Nat.exists_eq_succ_of_ne_zero some_digit.ne'
  have step : (10 : ℚ) ^ d.exponent = 10 * 10 ^ (d.exponent - 1) := by
    rw [← zpow_one_add₀ (by norm_num)]
    congr 1
    omega
  have number : d.toRat = 10 * d.coefficient * 10 ^ (d.exponent - 1) := by
    rw [toRat, step]
    ring
  have one : (1 : ℚ) ≤ 10 ^ k := one_le_pow₀ (by norm_num)
  have least : (10 : ℚ) ^ k ≤ d.coefficient := by exact_mod_cast left.low
  have most : (e.coefficient : ℚ) ≤ 10 * 10 ^ k - 1 := by
    have high : e.coefficient + 1 ≤ 10 ^ (k + 1) := right.high
    rw [le_sub_iff_add_le, ← pow_succ']
    exact_mod_cast high
  have below : e.toRat ≤ (10 * 10 ^ k - 1) * 10 ^ (d.exponent - 1) := by
    rw [toRat]
    gcongr
    · linarith
    · norm_num
    · omega
  have positive := ten_zpow_pos (d.exponent - 1)
  rw [pow_succ' (10 : ℚ) k]
  generalize (10 : ℚ) ^ (d.exponent - 1) = unit at *
  generalize (10 : ℚ) ^ k = full at *
  have many : 10 * (d.coefficient : ℚ) ≤ 10 * full * (10 * (d.coefficient - full) + 1) := by
    have product := mul_nonneg (sub_nonneg.mpr least) (by linarith : (0 : ℚ) ≤ 100 * full - 10)
    linarith
  calc d.toRat = 10 * d.coefficient * unit := number
    _ ≤ 10 * full * (10 * (d.coefficient - full) + 1) * unit :=
        mul_le_mul_of_nonneg_right many positive.le
    _ = 10 * full * ((10 * (d.coefficient - full) + 1) * unit) := mul_assoc ..
    _ ≤ 10 * full * |d.toRat - e.toRat| := by
        have distance := le_abs_self (d.toRat - e.toRat)
        gcongr
        linarith

/-- **Decimals with as many digits are apart** by one part in that power of ten. -/
theorem HasDigits.apart (left : d.HasDigits count) (right : e.HasDigits count)
    (some_digit : 0 < count) (other : d ≠ e) :
    d.toRat ≤ 10 ^ count * |d.toRat - e.toRat| := by
  rcases Int.lt_or_le e.exponent d.exponent with finer | coarse
  · exact left.apart_of_finer right some_digit finer
  · exact left.apart_of_coarser (mt (left.eq_of_toRat_eq right some_digit) other) coarse

/-- **A number that is close to a decimal rounds to it.** -/
theorem RoundsTo.of_close {x : ℚ} (digits : d.HasDigits count) (some_digit : 0 < count)
    (close : 2 * 10 ^ count * |x - d.toRat| < d.toRat) : RoundsTo count x d := by
  have nearer : ∀ e : Decimal, e.HasDigits count → e ≠ d → |x - d.toRat| < |x - e.toRat| := by
    intro e other different
    have apart := digits.apart other some_digit different.symm
    have triangle := abs_sub_le d.toRat x e.toRat
    rw [abs_sub_comm d.toRat x] at triangle
    have power : (0 : ℚ) < 10 ^ count := by positivity
    have twice : 10 ^ count * (2 * |x - d.toRat|) < 10 ^ count * |d.toRat - e.toRat| := by linarith
    linarith [lt_of_mul_lt_mul_left twice power.le]
  refine ⟨digits, ?_, ?_⟩
  · intro e other
    by_cases same : e = d
    · rw [same]
    · exact (nearer e other same).le
  · intro e other different tie
    exact absurd tie (nearer e other different).ne'

end Apart

/-! ## Reading -/

/-- **Reading moves a decimal by little**, unless it is very small. -/
theorem readsAs_close {d : Decimal} {m : Magnitude} (reads : d.readsAs m)
    (large : 10 ^ (-4 : Int) ≤ d.toRat) : 2 ^ 53 * |m.toRat - d.toRat| ≤ d.toRat := by
  have positive : (0 : ℚ) < d.denominator := by exact_mod_cast d.denominator_pos
  have most : d.denominator ≤ d.numerator * 10 ^ 4 := by
    rw [d.toRat_eq, le_div_iff₀ positive, zpow_neg, inv_mul_le_iff₀ (by norm_num), mul_comm] at large
    exact_mod_cast large
  have unit : 10 ^ 4 * 2 ^ 52 ≤ Magnitude.unitsPerOne := by
    calc 10 ^ 4 * 2 ^ 52 ≤ 2 ^ 66 := by decide
      _ ≤ 2 ^ Magnitude.unitExponent := Nat.pow_le_pow_right (by decide) (by decide)
  have units : 2 ^ 52 * d.denominator ≤ d.numerator * Magnitude.unitsPerOne := by
    calc 2 ^ 52 * d.denominator ≤ 2 ^ 52 * (d.numerator * 10 ^ 4) := Nat.mul_le_mul_left _ most
      _ = d.numerator * (10 ^ 4 * 2 ^ 52) := by ac_rfl
      _ ≤ d.numerator * Magnitude.unitsPerOne := Nat.mul_le_mul_left _ unit
  have relative :=
    Magnitude.nearest_relative d.denominator_pos (readsAs_iff_nearest.mp reads) units
  rw [abs_sub_comm, d.toRat_eq_units, Magnitude.toRat, Magnitude.distance_units, mul_div_assoc']
  exact div_le_div_of_nonneg_right relative Magnitude.cast_unitsPerOne_pos.le

/-- What is not greater than `10 ^ 15` is read as a magnitude. -/
theorem exists_readsAs {d : Decimal} (small : d.toRat ≤ 10 ^ 15) : ∃ m, d.readsAs m := by
  have positive : (0 : ℚ) < d.denominator := by exact_mod_cast d.denominator_pos
  have most : d.numerator ≤ 10 ^ 15 * d.denominator := by
    rw [d.toRat_eq, div_le_iff₀ positive] at small
    exact_mod_cast small
  obtain ⟨bound, -, units⟩ := Binary64.ofNat_exact (isExact_powerOfTen (k := 15) (by decide))
  have itself := bound.nearest_units 1 Nat.one_pos
  have order : d.numerator * Magnitude.unitsPerOne * 1 ≤ bound.units * 1 * d.denominator := by
    rw [Nat.mul_one, Nat.mul_one, units, Nat.mul_right_comm]
    exact Nat.mul_le_mul_right _ most
  obtain ⟨m, found, -⟩ :=
    Magnitude.exists_nearest_of_le Nat.one_pos d.denominator_pos order itself
  exact ⟨m, readsAs_iff_nearest.mpr found⟩

theorem not_isZero_of_readsAs {d : Decimal} {m : Magnitude} (large : 10 ^ (-4 : Int) ≤ d.toRat)
    (reads : d.readsAs m) : ¬ m.isZero := by
  intro zero
  have close := readsAs_close reads large
  have positive : 0 < d.toRat := (ten_zpow_pos _).trans_le large
  have number : m.toRat = 0 := by
    rw [Magnitude.toRat, m.units_eq_zero_iff.mpr zero, Nat.cast_zero, zero_div]
  rw [number, zero_sub, abs_neg, abs_of_pos positive] at close
  linarith

/-- **What is read from a decimal of fifteen digits rounds to it.** -/
theorem roundsTo_of_readsAs {d : Decimal} {m : Magnitude} (width : d.HasDigits 15)
    (large : 10 ^ (-4 : Int) ≤ d.toRat) (reads : d.readsAs m) : RoundsTo 15 m.toRat d := by
  have close := readsAs_close reads large
  have positive : 0 < d.toRat := (ten_zpow_pos _).trans_le large
  refine .of_close width (by decide) ?_
  have nonneg := abs_nonneg (m.toRat - d.toRat)
  linarith

end Decimal

namespace Numeral

/-! ## Positional texts -/

section Positional

variable {d : Decimal} (width : d.HasDigits 15)
include width

theorem le_toRat_of_place (low : -4 ≤ d.leadingPlace) : 10 ^ (-4 : Int) ≤ d.toRat := by
  have least := width.le_toRat
  rw [exponent_eq width, ← zpow_natCast, ← zpow_add₀ (by norm_num)] at least
  refine le_trans (zpow_le_zpow_right₀ (by norm_num) ?_) least
  omega

theorem toRat_le_of_place (high : d.leadingPlace < 15) : d.toRat ≤ 10 ^ 15 := by
  have most := width.toRat_lt
  rw [exponent_eq width, ← zpow_natCast, ← zpow_add₀ (by norm_num)] at most
  refine most.le.trans ?_
  rw [← zpow_natCast]
  exact zpow_le_zpow_right₀ (by norm_num) (by omega)

/-- A positional text of fifteen digits is read as a value that they show. -/
theorem exists_read_of_place (place : -4 ≤ d.leadingPlace ∧ d.leadingPlace < 15) (negative : Bool) :
    ∃ n, value? (signed negative d.trim.positional) = some (.finite negative n) ∧ ¬ n.isZero ∧
      Decimal.significant significantDigits n.units Magnitude.unitsPerOne = d := by
  have large := le_toRat_of_place width place.1
  have small := toRat_le_of_place width place.2
  obtain ⟨e, read, trimmed⟩ := unsigned?_positional d.trim
  have same : e.SameValue d := trimmed.trans d.trim_sameValue
  rw [← same.toRat_eq] at small
  obtain ⟨n, reads⟩ := Decimal.exists_readsAs small
  have readsToo := (same.readsAs_iff n).mp reads
  have nonzero := Decimal.not_isZero_of_readsAs large readsToo
  have rounds := Decimal.roundsTo_of_readsAs width large readsToo
  refine ⟨n, value?_of_readsAs (body_positional _) read reads negative, nonzero, ?_⟩
  exact ((Decimal.roundsTo_iff (by decide) (Magnitude.units_pos nonzero) Magnitude.unitsPerOne_pos).mp
    rounds).symm

end Positional

/-! ## Exponents -/

theorem mark_not_mem {text : List Char} (plain : ∀ c ∈ text, c.isDigit ∨ c = '.') : 'E' ∉ text := by
  intro member
  exact absurd (plain 'E' member) (by decide)

/-- A text has an exponent mark exactly when it is not positional. -/
theorem mark_mem_shownMagnitude_iff {m : Magnitude} :
    'E' ∈ shownMagnitude m ↔ ¬ isPositionalPlace
      (Decimal.significant significantDigits m.units Magnitude.unitsPerOne).trim.leadingPlace := by
  unfold shownMagnitude
  dsimp only
  split
  · rename_i positional
    have none := mark_not_mem (body_positional (Decimal.significant significantDigits m.units
      Magnitude.unitsPerOne).trim).chars
    simp [none, positional]
  · rename_i marked
    simp [exponentMark, marked]

section Unmarked

variable {m : Magnitude}

theorem positional_of_unmarked {negative : Bool}
    (unmarked : 'E' ∉ (signed negative (shownMagnitude m)).toList) :
    isPositionalPlace
      (Decimal.significant significantDigits m.units Magnitude.unitsPerOne).trim.leadingPlace := by
  have none : 'E' ∉ shownMagnitude m := by
    rw [toList_signed] at unmarked
    cases negative <;> simpa using unmarked
  exact not_not.mp (mt mark_mem_shownMagnitude_iff.mpr none)

theorem shownMagnitude_of_positional (positional : isPositionalPlace
      (Decimal.significant significantDigits m.units Magnitude.unitsPerOne).trim.leadingPlace) :
    shownMagnitude m =
      (Decimal.significant significantDigits m.units Magnitude.unitsPerOne).trim.positional :=
  if_pos positional

/-- The positional text of a magnitude is read as one that it shows. -/
theorem exists_reread (nonzero : ¬ m.isZero) (negative : Bool) (positional : isPositionalPlace
      (Decimal.significant significantDigits m.units Magnitude.unitsPerOne).trim.leadingPlace) :
    ∃ n, value? (signed negative (shownMagnitude m)) = some (.finite negative n) ∧
      shown (.finite negative n) = signed negative (shownMagnitude m) := by
  have place := (isPositionalPlace_iff _).mp positional
  rw [Decimal.leadingPlace_trim (coefficient_significant_pos nonzero)] at place
  obtain ⟨n, read, some_value, same⟩ :=
    exists_read_of_place (roundsTo_shown nonzero).digits place negative
  have again : shownMagnitude n = shownMagnitude m := by
    rw [shownMagnitude, shownMagnitude, same]
  refine ⟨n, ?_, ?_⟩
  · rw [shownMagnitude_of_positional positional]
    exact read
  · rw [shown, if_neg some_value, again]

end Unmarked

section Shown

variable {x : Binary64} (finite : x.isFinite) (unmarked : 'E' ∉ (shown x).toList)
include finite unmarked

/-- **A result without an exponent is read as a value that it shows.** -/
theorem exists_value_of_unmarked : ∃ y, value? (shown x) = some y ∧ shown y = shown x := by
  obtain ⟨negative, m, rfl⟩ := Binary64.exists_finite finite
  by_cases zero : m.isZero
  · have text : shown (.finite negative m) = "0" := if_pos zero
    rw [text]
    exact ⟨.zero, value?_zero, rfl⟩
  · have text : shown (.finite negative m) = signed negative (shownMagnitude m) := if_neg zero
    rw [text] at unmarked ⊢
    obtain ⟨n, read, same⟩ := exists_reread zero negative (positional_of_unmarked unmarked)
    exact ⟨_, read, same⟩

/-- It is a minus or none, digits, and at most one point. -/
theorem shaped_of_unmarked : Shaped (shown x) := by
  obtain ⟨negative, m, rfl⟩ := Binary64.exists_finite finite
  by_cases zero : m.isZero
  · have text : shown (.finite negative m) = "0" := if_pos zero
    rw [text]
    exact ⟨false, ['0'], body_zero, rfl⟩
  · have text : shown (.finite negative m) = signed negative (shownMagnitude m) := if_neg zero
    rw [text] at unmarked ⊢
    rw [shownMagnitude_of_positional (positional_of_unmarked unmarked)]
    exact ⟨negative, _, body_positional _, rfl⟩

end Shown

/-- **A text with an exponent is no numeral.** -/
theorem value?_of_mark {text : String} (mark : 'E' ∈ text.toList) : value? text = none := by
  by_contra some_value
  obtain ⟨x, read⟩ := Option.ne_none_iff_exists'.mp some_value
  obtain ⟨sign, negative, body, -, whole, which, readable, -, -⟩ := reads_of_value? read
  rw [whole, List.mem_append] at mark
  rcases mark with inSign | inBody
  · cases which <;> simp at inSign
  · exact mark_not_mem readable.chars inBody

end Numeral

end Calculator
