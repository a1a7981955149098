/-
# Calculator.Proofs.Numeral.Integers -- integers as numerals and as results

A numeral of digits alone, with a minus or without, stands for an integer.  Up to `2 ^ 53` it is
read as that integer.  Below `10 ^ 15` an integer is also written as such a numeral, in both of
the texts of a value: as a result it has no more than fifteen digits, and as an operand the
search for its shortest decimal ends on a grid of whole numbers, where only the integer itself
reads back.

* `exists_value_of_isInteger`: reading;
* `shown_of_represents`, `ofValue_of_represents`: writing.
-/
import Calculator.Proofs.Binary64.Integers
import Calculator.Proofs.Decimal.Layout
import Calculator.Proofs.Numeral.Redisplay

namespace Calculator

set_option autoImplicit false

/-! ## Whole numbers -/

/-- On a scale that is no finer than the ones, a significand is a whole number. -/
theorem Magnitude.point_ones (s p : Nat) : point s (p + unitExponent) = (s * 2 ^ p : Nat) := by
  have unit := cast_unitsPerOne_pos.ne'
  rw [point, Nat.pow_add, ← Nat.mul_assoc]
  show ((s * 2 ^ p * unitsPerOne : Nat) : ℚ) / unitsPerOne = _
  push_cast
  field_simp

namespace Decimal

/-- **A whole number that is read as an integer below `2 ^ 53` is that integer**: another one is
nearer to itself, or, when it has more bits, to `2 ^ 53`. -/
theorem eq_of_readsAs {d : Decimal} {k n : Nat} (whole : d.toRat = k) {m : Magnitude}
    (reads : d.readsAs m) (units : m.units = n * Magnitude.unitsPerOne) (small : n < 2 ^ 53) :
    k = n := by
  have rounds := Decimal.readsAs_iff_roundsTo.mp reads
  have number := Magnitude.toRat_of_units units
  rw [whole] at rounds
  rcases Nat.lt_or_ge k (2 ^ 53) with below | above
  · have nearest := rounds.nearest k (0 + Magnitude.unitExponent) below
    rw [Magnitude.point_ones, number, Nat.pow_zero, Nat.mul_one, sub_self, abs_zero] at nearest
    have same := sub_eq_zero.mp (abs_eq_zero.mp (le_antisymm nearest (abs_nonneg _)))
    exact_mod_cast same
  · have nearest := rounds.nearest 1 (53 + Magnitude.unitExponent) (by decide)
    have order : (2 ^ 53 : ℚ) ≤ k := by exact_mod_cast above
    have bound : (n : ℚ) < 2 ^ 53 := by exact_mod_cast small
    rw [Magnitude.point_ones, number, Nat.one_mul] at nearest
    push_cast at nearest
    rw [abs_of_nonneg (by linarith), abs_of_nonneg (by linarith)] at nearest
    linarith

/-- A decimal without trailing zeros that is a whole number is written as its digits. -/
theorem positional_of_whole {d : Decimal} {n : Nat} (settled : d.coefficient % 10 ≠ 0)
    (whole : d.toRat = n) : d.positional = digits n := by
  have positive : (d.denominator : ℚ) ≠ 0 := by exact_mod_cast d.denominator_pos.ne'
  rw [d.toRat_eq, div_eq_iff positive] at whole
  have product : d.numerator = n * d.denominator := by exact_mod_cast whole
  rw [numerator, denominator] at product
  by_cases front : 0 ≤ d.exponent
  · have flat : (-d.exponent).toNat = 0 := by omega
    rw [flat, Nat.pow_zero, Nat.mul_one] at product
    rw [positional, if_pos front, product]
  · obtain ⟨places, more⟩ : ∃ places, (-d.exponent).toNat = places + 1 :=
      ⟨(-d.exponent).toNat - 1, by omega⟩
    have flat : d.exponent.toNat = 0 := by omega
    rw [flat, more, Nat.pow_zero, Nat.mul_one, Nat.pow_succ, ← Nat.mul_assoc] at product
    omega

/-- Without its trailing zeros a whole number is written as its digits. -/
theorem positional_trim_of_whole {d : Decimal} {n : Nat} (pos : 0 < n) (whole : d.toRat = n) :
    d.trim.positional = digits n := by
  have some_coefficient : 0 < d.coefficient := by
    rw [Nat.pos_iff_ne_zero]
    intro zero
    have none : d.toRat = 0 := by simp [toRat, zero]
    rw [none] at whole
    exact pos.ne' (by exact_mod_cast whole.symm)
  apply positional_of_whole (trim_settled some_coefficient)
  rw [d.trim_sameValue.toRat_eq, whole]

/-- A decimal with no places behind the point is a whole number. -/
theorem exists_toRat_eq_natCast {d : Decimal} (whole : 0 ≤ d.exponent) : ∃ n : Nat, d.toRat = n := by
  obtain ⟨n, same⟩ := exists_toRat_eq whole
  exact ⟨n, by simpa using same⟩

end Decimal

/-! ## The shortest decimal of an integer -/

namespace Magnitude

/-- A neighbour that reads back is a hit. -/
theorem isSome_onGrid? (tie : Tie) {m : Magnitude} {exponent : Int}
    (reads : Decimal.readsAs ⟨m.units * 10 ^ (-exponent).toNat / (unitsPerOne * 10 ^ exponent.toNat),
      exponent⟩ m) : (m.onGrid? tie exponent).isSome := by
  unfold onGrid?
  extract_lets num den below above preferAbove
  have low : below.readsAs m = true := reads
  rw [low, Bool.true_and]
  cases high : above.readsAs m <;> cases preferAbove <;> simp

theorem onGrid?_exponent {tie : Tie} {m : Magnitude} {exponent : Int} {d : Decimal}
    (found : m.onGrid? tie exponent = some d) : d.exponent = exponent := by
  unfold onGrid? at found
  extract_lets num den below above preferAbove at found
  split at found
  · rw [← Option.some.inj found]
  · split at found
    · rw [← Option.some.inj found]
    · cases found

/-- Where a grid of the search has a hit, the search ends there or earlier. -/
theorem exists_searchGrids (tie : Tie) {m : Magnitude} {count finer : Nat} {exponent : Int}
    (within : finer < count) (hit : (m.onGrid? tie (exponent - finer)).isSome) :
    ∃ d, m.searchGrids tie count exponent = some d ∧ exponent - finer ≤ d.exponent := by
  obtain ⟨more, rfl⟩ := Nat.exists_eq_add_of_lt within
  have early : ((List.range (finer + 1)).findSome? fun (finer : Nat) =>
      m.onGrid? tie (exponent - finer)).isSome := by
    rw [List.findSome?_isSome_iff]
    exact ⟨finer, List.mem_range.mpr finer.lt_succ_self, hit⟩
  obtain ⟨d, found⟩ := Option.isSome_iff_exists.mp early
  obtain ⟨place, member, matched⟩ := List.exists_of_findSome?_eq_some found
  refine ⟨d, ?_, ?_⟩
  · rw [searchGrids, Nat.add_right_comm, List.range_add, List.findSome?_append, found]
    rfl
  · have close := List.mem_range.mp member
    rw [onGrid?_exponent matched]
    omega

section Whole

variable {m : Magnitude} {n : Nat} (units : m.units = n * unitsPerOne)
include units

theorem readsAs_of_units : (Decimal.mk n 0).readsAs m := by
  have itself := m.nearest_units 1 Nat.one_pos
  rw [Nat.mul_one, units] at itself
  rw [Decimal.readsAs_iff_nearest]
  simpa [Decimal.numerator, Decimal.denominator] using itself

theorem leadingPlace_of_units (pos : 0 < n) :
    m.leadingPlace = ((Decimal.digits n).length : Int) - 1 := by
  have unit := unitsPerOne_pos
  rw [leadingPlace, units, Decimal.placeOf, if_pos (Nat.le_mul_of_pos_left _ pos),
    Nat.mul_div_cancel _ unit]

/-- **The shortest decimal of an integer is the integer.** -/
theorem exists_shortest_eq (tie : Tie) (pos : 0 < n) (small : n < 10 ^ 15) :
    ∃ d : Decimal, m.shortest tie = d.trim ∧ d.toRat = n := by
  have unit := unitsPerOne_pos
  have few : (Decimal.digits n).length ≤ 15 := (Decimal.length_digits_le_iff (by decide)).mpr small
  have some_digit := Decimal.length_digits_pos n
  -- the grid of the ones is among the first fifteen
  have ones : m.leadingPlace - ((Decimal.digits n).length - 1 : Nat) = 0 := by
    rw [leadingPlace_of_units units pos]
    omega
  have hit : (m.onGrid? tie (m.leadingPlace - ((Decimal.digits n).length - 1 : Nat))).isSome := by
    rw [ones]
    apply isSome_onGrid?
    rw [units]
    simpa [Nat.mul_div_cancel _ unit] using readsAs_of_units units
  obtain ⟨d, found, coarse⟩ :=
    exists_searchGrids tie (show (Decimal.digits n).length - 1 < 17 by omega) hit
  rw [ones] at coarse
  obtain ⟨k, whole⟩ := Decimal.exists_toRat_eq_natCast coarse
  have same : k = n := Decimal.eq_of_readsAs whole (searchGrids_readsAs found) units (by omega)
  refine ⟨d, ?_, by rw [whole, same]⟩
  rw [shortest, found, Option.getD_some]

end Whole

end Magnitude

/-! ## Fifteen digits of an integer -/

namespace Decimal

/-- An integer below `10 ^ 15`, with as many zeros behind it as there is room for. -/
def padding (n : Nat) : Decimal :=
  ⟨n * 10 ^ (15 - (digits n).length), -((15 - (digits n).length : Nat) : Int)⟩

theorem toRat_padding (n : Nat) : (padding n).toRat = n := by
  have power : (10 : ℚ) ^ (15 - (digits n).length) ≠ 0 := by positivity
  rw [toRat, padding, zpow_neg, zpow_natCast]
  push_cast
  field_simp

theorem hasDigits_padding {n : Nat} (pos : 0 < n) (small : n < 10 ^ 15) :
    (padding n).HasDigits 15 := by
  have few : (digits n).length ≤ 15 := (length_digits_le_iff (by decide)).mpr small
  obtain ⟨place, length⟩ := Nat.exists_eq_succ_of_ne_zero (length_digits_pos n).ne'
  obtain ⟨low, high⟩ := (length_digits_eq_iff pos).mp length
  obtain ⟨room, total⟩ := Nat.exists_eq_add_of_le few
  have filled : 15 - (digits n).length = room := by omega
  constructor
  · calc 10 ^ (15 - 1) = 10 ^ place * 10 ^ room := by rw [← Nat.pow_add]; congr 1; omega
      _ ≤ n * 10 ^ room := Nat.mul_le_mul_right _ low
      _ = (padding n).coefficient := by rw [padding, filled]
  · calc (padding n).coefficient = n * 10 ^ room := by rw [padding, filled]
      _ < 10 ^ (place + 1) * 10 ^ room := Nat.mul_lt_mul_of_pos_right high (Nat.pow_pos (by decide))
      _ = 10 ^ 15 := by rw [← Nat.pow_add]; congr 1; omega

end Decimal

namespace Numeral

section Whole

variable {m : Magnitude} {n : Nat} (units : m.units = n * Magnitude.unitsPerOne) (pos : 0 < n)
  (small : n < 10 ^ 15)
include units pos

theorem not_isZero_of_units : ¬ m.isZero := by
  have unit := Magnitude.unitsPerOne_pos
  rw [← m.units_eq_zero_iff, units]
  exact (Nat.mul_pos pos unit).ne'

include small

/-- **The fifteen digits that are shown of an integer are its own.** -/
theorem significant_of_units :
    Decimal.significant significantDigits m.units Magnitude.unitsPerOne = .padding n := by
  have rounded := roundsTo_shown (not_isZero_of_units units pos)
  have digits := Decimal.hasDigits_padding pos small
  have whole := Decimal.toRat_padding n
  have positive : (0 : ℚ) < n := by exact_mod_cast pos
  refine rounded.unique (by decide) (.of_close digits (by decide) ?_)
  rw [whole, Magnitude.toRat_of_units units, sub_self, abs_zero, mul_zero]
  exact positive

theorem shownMagnitude_of_units : shownMagnitude m = Decimal.digits n := by
  have digits := Decimal.hasDigits_padding pos small
  have some_coefficient : 0 < (Decimal.padding n).coefficient :=
    Nat.lt_of_lt_of_le (by decide) digits.low
  have place := exponent_eq digits
  have exponent : (Decimal.padding n).exponent = -((15 - (Decimal.digits n).length : Nat) : Int) := rfl
  have some_digit := Decimal.length_digits_pos n
  have same := significant_of_units units pos small
  have positional : isPositionalPlace (Decimal.padding n).trim.leadingPlace := by
    rw [isPositionalPlace_iff, Decimal.leadingPlace_trim some_coefficient]
    omega
  rw [shownMagnitude_of_positional (by rw [same]; exact positional), same]
  exact Decimal.positional_trim_of_whole pos (Decimal.toRat_padding n)

theorem positional_shortest_of_units (tie : Tie) :
    (m.shortest tie).positional = Decimal.digits n := by
  obtain ⟨d, shortest, whole⟩ := Magnitude.exists_shortest_eq units tie pos small
  rw [shortest]
  exact Decimal.positional_trim_of_whole pos whole

end Whole

/-- An integer is written as a minus, or none, and the digits of its size. -/
theorem signed_digits (n : Int) : signed (decide (n < 0)) (Decimal.digits n.natAbs) = toString n := by
  cases n with
  | ofNat k => rfl
  | negSucc k =>
      rw [decide_eq_true (Int.negSucc_lt_zero k)]
      show String.ofList ('-' :: Decimal.digits (k + 1)) = "-" ++ Nat.repr (k + 1)
      rw [← String.toList_inj, String.toList_ofList, String.toList_append]
      simp [Nat.repr, Decimal.digits]

/-- A sign and the digits of a size, or a zero without a sign, are an integer's text. -/
theorem signed_of_signedUnits {negative : Bool} {m : Magnitude} {n : Int}
    (same : Binary64.signedUnits negative m = n * Magnitude.unitsPerOne) {body : List Char}
    (written : 0 < n.natAbs → body = Decimal.digits n.natAbs) :
    (if m.isZero then "0" else signed negative body) = toString n := by
  have units := Binary64.units_of_signedUnits same
  by_cases zero : n = 0
  · subst zero
    have none : m.isZero := m.units_eq_zero_iff.mp (by rw [units, Int.natAbs_zero, Nat.zero_mul])
    rw [if_pos none]
    rfl
  · have pos : 0 < n.natAbs := Int.natAbs_pos.mpr zero
    have sign : negative = decide (n < 0) := by
      rw [Bool.eq_iff_iff, decide_eq_true_eq]
      exact Binary64.negative_iff_of_signedUnits same zero
    rw [if_neg (not_isZero_of_units units pos), written pos, sign, signed_digits]

section Represents

variable {x : Binary64} {n : Int} (represents : x.Represents n) (small : n.natAbs < 10 ^ 15)
include represents small

/-- **An integer below `10 ^ 15` is shown as itself.** -/
theorem shown_of_represents : shown x = toString n := by
  obtain ⟨negative, m, rfl, same⟩ := represents
  have units := Binary64.units_of_signedUnits same
  exact signed_of_signedUnits same fun pos => shownMagnitude_of_units units pos small

/-- **An integer below `10 ^ 15` is written as itself.** -/
theorem ofValue_of_represents : ofValue x = toString n := by
  obtain ⟨negative, m, rfl, same⟩ := represents
  have units := Binary64.units_of_signedUnits same
  exact signed_of_signedUnits same fun pos => positional_shortest_of_units units pos small .upward

end Represents

/-! ## Integer numerals -/

/-- Digits with a minus or without. -/
def IsInteger (text : String) : Prop :=
  ∃ negative body, body ≠ [] ∧ (∀ c ∈ body, c.isDigit) ∧ text = signed negative body

/-- The integer that a numeral of digits stands for. -/
def integer (text : String) : Int :=
  let (negative, body) := splitSign text.toList
  if negative then -(Decimal.ofDigits body : Int) else Decimal.ofDigits body

/-- **An integer numeral up to `2 ^ 53` is read as its integer.** -/
theorem exists_value_of_isInteger {text : String} (isInteger : IsInteger text)
    (small : (integer text).natAbs ≤ 2 ^ 53) :
    ∃ x, Numeral.value text = .ok x ∧ x.Represents (integer text) := by
  obtain ⟨negative, body, nonempty, digits, rfl⟩ := isInteger
  have valid := body_of_digits nonempty digits
  have whole : integer (signed negative body) =
      if negative then -(Decimal.ofDigits body : Int) else Decimal.ofDigits body := by
    rw [integer, valid.splitSign_signed]
  have size : (integer (signed negative body)).natAbs = Decimal.ofDigits body := by
    rw [whole]
    split <;> omega
  rw [size] at small
  obtain ⟨m, units⟩ := Magnitude.exists_units_of_le small
  have reads := Magnitude.readsAs_of_units units
  refine ⟨.finite negative m, ?_, negative, m, rfl, ?_⟩
  · exact Numeral.value_eq_ok.mpr
      (value?_of_readsAs valid (unsigned?_of_digits nonempty digits) reads negative)
  · rw [whole, Binary64.signedUnits, units]
    cases negative with
    | false => exact Int.natCast_mul _ _
    | true => rw [if_pos rfl, if_pos rfl, Int.neg_mul, Int.natCast_mul]

theorem IsInteger.shaped {text : String} (isInteger : IsInteger text) : Shaped text := by
  obtain ⟨negative, body, nonempty, digits, rfl⟩ := isInteger
  exact ⟨negative, body, body_of_digits nonempty digits, rfl⟩

end Numeral

end Calculator
