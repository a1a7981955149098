/-
# Calculator.Proofs.Numeral.Canonical -- the text of a result

A result is shown as the decimal of fifteen digits that its value rounds to, and the text is
the one tidy way to write that decimal: in positional notation when its first digit stands at
one of the places from the fourth behind the point to the fifteenth in front of it, with an
exponent otherwise (`Canonical`).  Nothing in it is superfluous, no zero and no point
(`Written.Tidy`).

* `exists_positional`, `exists_mantissa`: both notations of a decimal are tidy and denote it;
* `shown_canonical`: what a finite value is shown as.
-/
import Calculator.Proofs.Numeral.Slices

namespace Calculator

set_option autoImplicit false

/-! ## Numbers -/

/-- The number that a magnitude stands for. -/
def Magnitude.toRat (m : Magnitude) : ℚ := m.units / Magnitude.unitsPerOne

/-- The number that a finite double stands for. -/
def Binary64.toRat : Binary64 → ℚ
  | .finite negative m => if negative then -m.toRat else m.toRat
  | _ => 0

namespace Numeral

open Decimal (IsDigits NoLeadingZero isDigits_digits pointed ofDigits RoundsTo)

/-! ## Texts in parts -/

/-- The parts of a text: digits, digits behind a point, and an exponent. -/
structure Written where
  whole : List Char
  fraction : Option (List Char)
  exponent : Option Int

namespace Written

def text (w : Written) : List Char :=
  w.whole ++ pointed w.fraction ++ (w.exponent.map exponentMark).getD []

/-- The digits on both sides of the point. -/
def digits (w : Written) : List Char := w.whole ++ w.fraction.getD []

/-- The number that the text denotes. -/
def value (w : Written) : ℚ :=
  ofDigits w.digits * 10 ^ (w.exponent.getD 0 - (w.fraction.getD []).length)

/-- No superfluous zero leads, none ends the digits behind a point, there are digits on both
sides of it, no more than fifteen of them are significant, and one that is no zero stands in
front of the point when there is an exponent. -/
structure Tidy (w : Written) : Prop where
  whole : IsDigits w.whole
  leading : NoLeadingZero w.whole
  fraction : ∀ digits ∈ w.fraction, IsDigits digits ∧ digits.getLast? ≠ some '0'
  few : (w.digits.dropWhile (· == '0')).length ≤ 15
  mantissa : w.exponent.isSome → ∃ digit, digit ≠ '0' ∧ w.whole = [digit]

end Written

/-- The text of a number that is not zero: it denotes the decimal of fifteen digits that the
number rounds to, with the sign of the number, and is written in the notation that belongs to
the place of the first digit. -/
def Canonical (number : ℚ) (text : String) : Prop :=
  ∃ (coefficient : Nat) (place : Int) (w : Written),
    RoundsTo 15 |number| ⟨coefficient, place - 14⟩ ∧
    w.value = coefficient * 10 ^ (place - 14) ∧ w.Tidy ∧
    w.exponent = (if -4 ≤ place ∧ place < 15 then none else some place) ∧
    text = signed (number < 0) w.text

/-! ## Notations of significant digits -/

/-- At most fifteen digits, with no zero at either end. -/
structure Significant (digits : List Char) : Prop where
  isDigits : IsDigits digits
  head : digits.head? ≠ some '0'
  last : digits.getLast? ≠ some '0'
  few : digits.length ≤ 15

namespace Significant

variable {digits : List Char} (significant : Significant digits)
include significant

/-- Zeros between the point and the digits. -/
theorem tidy_behind (zeros : Nat) :
    Written.Tidy ⟨['0'], some (List.replicate zeros '0' ++ digits), none⟩ where
  whole := isDigits_digits 0
  leading := .inl rfl
  fraction := by
    rintro fraction member
    obtain rfl := Option.some.inj member
    refine ⟨⟨?_, ?_⟩, ?_⟩
    · simp [significant.isDigits.nonempty]
    · intro c member
      rcases List.mem_append.mp member with zero | digit
      · rw [List.eq_of_mem_replicate zero]
        rfl
      · exact significant.isDigits.each c digit
    · rw [List.getLast?_append_of_ne_nil _ significant.isDigits.nonempty]
      exact significant.last
  few := by
    have zeros_only : ∀ c ∈ '0' :: List.replicate zeros '0', (c == '0') = true := by simp
    have split : Written.digits ⟨['0'], some (List.replicate zeros '0' ++ digits), none⟩ =
        '0' :: List.replicate zeros '0' ++ digits := rfl
    rw [split, List.dropWhile_append_of_pos zeros_only]
    exact (List.dropWhile_suffix _).length_le.trans significant.few
  mantissa := by simp

/-- Zeros between the digits and the place of ones. -/
theorem tidy_whole (zeros : Nat) (few : digits.length + zeros ≤ 15) :
    Written.Tidy ⟨digits ++ List.replicate zeros '0', none, none⟩ where
  whole := by
    refine ⟨by simp [significant.isDigits.nonempty], ?_⟩
    intro c member
    rcases List.mem_append.mp member with digit | zero
    · exact significant.isDigits.each c digit
    · rw [List.eq_of_mem_replicate zero]
      rfl
  leading := by
    right
    rw [List.head?_append_of_ne_nil _ significant.isDigits.nonempty]
    exact significant.head
  fraction := by simp
  few := by
    refine (List.dropWhile_suffix _).length_le.trans ?_
    simpa [Written.digits] using few
  mantissa := by simp

/-- The point between two digits; with an exponent, behind the first one. -/
theorem tidy_cut (front : Nat) (exponent : Option Int) (some_digit : 0 < front)
    (within : front < digits.length) (normal : exponent.isSome → front = 1) :
    Written.Tidy ⟨digits.take front, some (digits.drop front), exponent⟩ where
  whole := by
    refine ⟨?_, fun c member => significant.isDigits.each c (List.mem_of_mem_take member)⟩
    rw [ne_eq, List.take_eq_nil_iff]
    rintro (none | empty)
    · omega
    · exact significant.isDigits.nonempty empty
  leading := by
    right
    rw [List.head?_take, if_neg (by omega)]
    exact significant.head
  fraction := by
    rintro fraction member
    obtain rfl := Option.some.inj member
    refine ⟨⟨?_, fun c member => significant.isDigits.each c (List.mem_of_mem_drop member)⟩, ?_⟩
    · rw [ne_eq, List.drop_eq_nil_iff]
      omega
    · rw [List.getLast?_drop, if_neg (by omega)]
      exact significant.last
  few := by
    have whole : Written.digits ⟨digits.take front, some (digits.drop front), exponent⟩ = digits :=
      List.take_append_drop front digits
    rw [whole]
    exact (List.dropWhile_suffix _).length_le.trans significant.few
  mantissa := by
    intro marked
    obtain rfl := normal marked
    obtain ⟨first, rest, rfl⟩ := List.exists_cons_of_ne_nil significant.isDigits.nonempty
    exact ⟨first, fun zero => significant.head (by rw [zero]; rfl), rfl⟩

/-- One digit with an exponent. -/
theorem tidy_single (single : digits.length = 1) (exponent : Int) :
    Written.Tidy ⟨digits, none, some exponent⟩ where
  whole := significant.isDigits
  leading := .inr significant.head
  fraction := by simp
  few := by
    refine (List.dropWhile_suffix _).length_le.trans ?_
    simpa [Written.digits] using significant.few
  mantissa := by
    intro _
    obtain ⟨first, rfl⟩ := List.length_eq_one_iff.mp single
    exact ⟨first, fun zero => significant.head (by rw [zero]; rfl), rfl⟩

end Significant

/-! ## What they denote -/

theorem value_behind (digits : List Char) (zeros : Nat) :
    Written.value ⟨['0'], some (List.replicate zeros '0' ++ digits), none⟩ =
      ofDigits digits * 10 ^ (-(zeros + digits.length : Nat) : Int) := by
  have leading : ofDigits (['0'] ++ (List.replicate zeros '0' ++ digits)) = ofDigits digits := by
    have flat : ofDigits ['0'] = 0 := rfl
    rw [Decimal.ofDigits_append, Decimal.ofDigits_append, Decimal.ofDigits_zeros, flat,
      Nat.mul_zero, Nat.mul_zero, Nat.zero_add, Nat.zero_add]
  rw [Written.value, Written.digits, Option.getD_some, leading, List.length_append,
    List.length_replicate, Option.getD_none, Int.zero_sub]

theorem value_whole (digits : List Char) (zeros : Nat) :
    Written.value ⟨digits ++ List.replicate zeros '0', none, none⟩ =
      ofDigits digits * 10 ^ (zeros : Int) := by
  have shifted : ofDigits (digits ++ List.replicate zeros '0' ++ []) =
      10 ^ zeros * ofDigits digits := by
    rw [List.append_nil, Decimal.ofDigits_append, Decimal.ofDigits_zeros, List.length_replicate,
      Nat.add_zero]
  rw [Written.value, Written.digits, Option.getD_none, shifted, zpow_natCast]
  simp [mul_comm]

theorem value_cut (digits : List Char) (front : Nat) (exponent : Option Int) :
    Written.value ⟨digits.take front, some (digits.drop front), exponent⟩ =
      ofDigits digits * 10 ^ (exponent.getD 0 - (digits.length - front : Nat)) := by
  rw [Written.value, Written.digits, Option.getD_some, List.take_append_drop, List.length_drop]

theorem value_single (digits : List Char) (exponent : Int) :
    Written.value ⟨digits, none, some exponent⟩ = ofDigits digits * 10 ^ exponent := by
  simp [Written.value, Written.digits]

/-! ## Decimals in both notations -/

section Notations

variable {d : Decimal}

theorem significant_digits (settled : d.coefficient % 10 ≠ 0)
    (few : (Decimal.digits d.coefficient).length ≤ 15) :
    Significant (Decimal.digits d.coefficient) where
  isDigits := isDigits_digits _
  head := Decimal.head?_digits (by omega)
  last := Decimal.getLast?_digits_ne_zero settled
  few := few

/-- **Positional notation is tidy and denotes the decimal**, if it has no trailing zero and no
place too many. -/
theorem exists_positional (settled : d.coefficient % 10 ≠ 0)
    (few : (Decimal.digits d.coefficient).length ≤ 15) (within : d.leadingPlace < 15) :
    ∃ w : Written, w.text = d.positional ∧ w.exponent = none ∧ w.Tidy ∧ w.value = d.toRat := by
  have significant := significant_digits settled few
  have place : d.leadingPlace = d.exponent + (Decimal.digits d.coefficient).length - 1 := rfl
  rcases Int.lt_or_le d.leadingPlace 0 with behind | front
  · refine ⟨_, ?_, rfl, significant.tidy_behind (-d.leadingPlace - 1).toNat, ?_⟩
    · rw [Decimal.positional_behind behind]
      simp [Written.text, pointed]
    · have exponent : -(((-d.leadingPlace - 1).toNat + (Decimal.digits d.coefficient).length : Nat)
          : Int) = d.exponent := by omega
      rw [value_behind, exponent, Decimal.ofDigits_digits, Decimal.toRat]
  rcases Int.lt_or_le d.exponent 0 with behind | whole
  · refine ⟨_, ?_, rfl, significant.tidy_cut (d.leadingPlace.toNat + 1) none
      (Nat.succ_pos _) (by omega) (by simp), ?_⟩
    · rw [Decimal.positional_cut front behind]
      simp [Written.text, pointed]
    · have exponent : 0 - (((Decimal.digits d.coefficient).length - (d.leadingPlace.toNat + 1) : Nat)
          : Int) = d.exponent := by omega
      rw [value_cut, Option.getD_none, exponent, Decimal.ofDigits_digits, Decimal.toRat]
  · refine ⟨_, ?_, rfl, significant.tidy_whole
      (d.leadingPlace.toNat + 1 - (Decimal.digits d.coefficient).length) (by omega), ?_⟩
    · rw [Decimal.positional_whole (by omega) whole]
      simp [Written.text, pointed]
    · have exponent : ((d.leadingPlace.toNat + 1 - (Decimal.digits d.coefficient).length : Nat)
          : Int) = d.exponent := by omega
      rw [value_whole, exponent, Decimal.ofDigits_digits, Decimal.toRat]

/-- **A mantissa with its exponent is tidy and denotes the decimal**, if it has no trailing
zero. -/
theorem exists_mantissa (settled : d.coefficient % 10 ≠ 0)
    (few : (Decimal.digits d.coefficient).length ≤ 15) :
    ∃ w : Written, w.text = d.mantissa ++ exponentMark d.leadingPlace ∧
      w.exponent = some d.leadingPlace ∧ w.Tidy ∧ w.value = d.toRat := by
  have significant := significant_digits settled few
  have place : d.leadingPlace = d.exponent + (Decimal.digits d.coefficient).length - 1 := rfl
  have number := Decimal.ofDigits_digits d.coefficient
  rw [Decimal.mantissa, Decimal.toRat]
  generalize Decimal.digits d.coefficient = digits at *
  cases digits with
  | nil => exact absurd rfl significant.isDigits.nonempty
  | cons first behind =>
    cases behind with
    | nil =>
      refine ⟨_, ?_, rfl, significant.tidy_single rfl d.leadingPlace, ?_⟩
      · simp [Written.text, pointed]
      · have exponent : d.leadingPlace = d.exponent := by
          rw [List.length_singleton] at place
          omega
        rw [value_single, number, exponent]
    | cons second rest =>
      refine ⟨_, ?_, rfl, significant.tidy_cut 1 (some d.leadingPlace) Nat.one_pos (by simp)
        (by simp), ?_⟩
      · simp [Written.text, pointed]
      · have exponent : d.leadingPlace - ((first :: second :: rest).length - 1 : Nat) =
            d.exponent := by
          simp only [List.length_cons] at place ⊢
          omega
        rw [value_cut, Option.getD_some, exponent, number]

end Notations

/-! ## The text of a magnitude -/

theorem isPositionalPlace_iff (place : Int) : isPositionalPlace place ↔ -4 ≤ place ∧ place < 15 := by
  unfold isPositionalPlace
  rw [Bool.and_eq_true, decide_eq_true_iff, decide_eq_true_iff]
  rfl

/-- The exponent of a decimal with fifteen digits, by the place of the first one. -/
theorem exponent_eq {d : Decimal} (width : d.HasDigits 15) : d.exponent = d.leadingPlace - 14 := by
  have pos : 0 < d.coefficient := Nat.lt_of_lt_of_le (by decide) width.low
  have length : (Decimal.digits d.coefficient).length = 14 + 1 :=
    (Decimal.length_digits_eq_iff pos).mpr ⟨width.low, width.high⟩
  rw [Decimal.leadingPlace, length]
  omega

/-- Of a decimal with fifteen digits the notation that belongs to its place is tidy and
denotes it, without the zeros at its end. -/
theorem exists_written {d : Decimal} (width : d.HasDigits 15) :
    ∃ w : Written,
      w.text = (if isPositionalPlace d.trim.leadingPlace then d.trim.positional
        else d.trim.mantissa ++ exponentMark d.trim.leadingPlace) ∧
      w.exponent = (if -4 ≤ d.leadingPlace ∧ d.leadingPlace < 15 then none
        else some d.leadingPlace) ∧
      w.Tidy ∧ w.value = d.toRat := by
  have pos : 0 < d.coefficient := Nat.lt_of_lt_of_le (by decide) width.low
  have settled := Decimal.trim_settled pos
  have few : (Decimal.digits d.trim.coefficient).length ≤ 15 := by
    obtain ⟨zeros, split⟩ := Decimal.digits_eq_trim pos
    have total : (Decimal.digits d.coefficient).length ≤ 15 :=
      (Decimal.length_digits_le_iff (by decide)).mpr width.high
    rw [split, List.length_append] at total
    omega
  rw [← (Decimal.trim_sameValue d).toRat_eq, ← Decimal.leadingPlace_trim pos]
  by_cases positional : -4 ≤ d.trim.leadingPlace ∧ d.trim.leadingPlace < 15
  · rw [if_pos positional, if_pos ((isPositionalPlace_iff _).mpr positional)]
    exact exists_positional settled few positional.2
  · rw [if_neg positional, if_neg (mt (isPositionalPlace_iff _).mp positional)]
    exact exists_mantissa settled few

/-! ## The text of a result -/

theorem toRat_pos {m : Magnitude} (nonzero : ¬ m.isZero) : 0 < m.toRat := by
  have units := Magnitude.units_pos nonzero
  have unit := Magnitude.unitsPerOne_pos
  exact div_pos (by exact_mod_cast units) (by exact_mod_cast unit)

/-- A magnitude is shown as the decimal that it rounds to. -/
theorem roundsTo_shown {m : Magnitude} (nonzero : ¬ m.isZero) :
    RoundsTo 15 m.toRat (.significant significantDigits m.units Magnitude.unitsPerOne) :=
  Decimal.significant_roundsTo (by decide) (Magnitude.units_pos nonzero) Magnitude.unitsPerOne_pos

theorem canonical_shown {x : Binary64} (finite : x.isFinite) (nonzero : ¬ x.isZero) :
    Canonical x.toRat (shown x) := by
  obtain ⟨negative, m, rfl⟩ := Binary64.exists_finite finite
  have nonzero : ¬ m.isZero := nonzero
  have positive := toRat_pos nonzero
  have sign : decide ((Binary64.finite negative m).toRat < 0) = negative := by
    cases negative <;> simp [Binary64.toRat, positive, positive.le]
  have size : |(Binary64.finite negative m).toRat| = m.toRat := by
    cases negative <;> simp [Binary64.toRat, abs_of_pos positive]
  have rounded := roundsTo_shown nonzero
  obtain ⟨w, text, exponent, tidy, value⟩ := exists_written rounded.digits
  have body : shownMagnitude m = w.text := text.symm
  have place := exponent_eq rounded.digits
  generalize Decimal.significant significantDigits m.units Magnitude.unitsPerOne = d at *
  refine ⟨d.coefficient, d.leadingPlace, w, ?_, ?_, tidy, exponent, ?_⟩
  · rw [size, ← place]
    exact rounded
  · rw [value, ← place, Decimal.toRat]
  · rw [sign, shown, if_neg nonzero, body]

/-- The text of zero denotes zero. -/
theorem value_eq_zero_of_text {w : Written} (tidy : w.Tidy) (zero : w.text = ['0']) :
    w.value = 0 := by
  obtain ⟨whole, fraction, exponent⟩ := w
  obtain ⟨digit, rest, rfl⟩ := List.exists_cons_of_ne_nil tidy.whole.nonempty
  simp only [Written.text, List.cons_append, List.cons.injEq, List.append_eq_nil_iff] at zero
  obtain ⟨rfl, ⟨rfl, point⟩, -⟩ := zero
  cases fraction with
  | none =>
    have none : ofDigits ['0'] = 0 := rfl
    simp [Written.value, Written.digits, none]
  | some fraction => exact absurd point (by simp [pointed])

theorem Canonical.ne_minus_zero {number : ℚ} {text : String} (canonical : Canonical number text) :
    text ≠ "-0" := by
  obtain ⟨coefficient, place, w, rounded, value, tidy, -, rfl⟩ := canonical
  intro minus
  have chars : (if decide (number < 0) then '-' :: w.text else w.text) = ['-', '0'] := by
    rw [← toList_signed, minus]
    decide
  split at chars
  · -- a decimal of fifteen digits is not zero
    have zero := value_eq_zero_of_text tidy (List.tail_eq_of_cons_eq chars)
    have large : 10 ^ 14 ≤ coefficient := rounded.digits.low
    have positive : (0 : ℚ) < coefficient := by exact_mod_cast Nat.lt_of_lt_of_le (by decide) large
    rw [value] at zero
    exact absurd zero (mul_pos positive (Decimal.ten_zpow_pos _)).ne'
  · -- a tidy text starts with a digit
    obtain ⟨digit, rest, whole⟩ := List.exists_cons_of_ne_nil tidy.whole.nonempty
    have isDigit := tidy.whole.each digit (by simp [whole])
    rw [Written.text, whole, List.cons_append, List.cons_append] at chars
    rw [List.head_eq_of_cons_eq chars] at isDigit
    exact absurd isDigit (by decide)

/-- What is greater than zero has no sign, and is not zero. -/
theorem positive_of_lt {negative : Bool} {m : Magnitude}
    (positive : Binary64.zero.lt (.finite negative m)) : negative = false ∧ ¬ m.isZero := by
  have less : Binary64.signedUnits false .zero < Binary64.signedUnits negative m :=
    of_decide_eq_true positive
  have origin : Binary64.signedUnits false .zero = 0 := rfl
  rw [origin] at less
  cases negative with
  | true =>
    simp only [Binary64.signedUnits, if_true] at less
    omega
  | false =>
    simp only [Binary64.signedUnits, Bool.false_eq_true, if_false] at less
    exact ⟨rfl, mt m.units_eq_zero_iff.mpr (by omega)⟩

/-- **The shown text of a finite value is canonical**: a zero is `0` without a sign, and any
other value has the one text of the decimal that it rounds to, with a minus in front when it is
negative.  It is made out of its digits without a step that fails. -/
theorem shown_canonical {x : Binary64} (finite : x.isFinite) :
    (x.isZero → shown x = "0") ∧ (¬ x.isZero → Canonical x.toRat (shown x)) ∧ shown x ≠ "-0" ∧
      (Binary64.zero.lt x → shown x.neg = "-" ++ shown x) ∧ shown? x = some (shown x) := by
  have canonical := canonical_shown finite
  obtain ⟨negative, m, rfl⟩ := Binary64.exists_finite finite
  refine ⟨fun zero => if_pos zero, canonical, ?_, ?_, shown?_eq _⟩
  · by_cases zero : m.isZero
    · rw [shown, if_pos zero]
      decide
    · exact (canonical zero).ne_minus_zero
  · intro positive
    obtain ⟨rfl, nonzero⟩ := positive_of_lt positive
    rw [Binary64.neg, shown, shown, if_neg nonzero, if_neg nonzero, ← String.toList_inj]
    simp [signed]

/-- Rounding carries into a sixteenth digit in front of the point, and the notation changes. -/
theorem shown_canonical_carry :
    (Binary64.ofBits 0x430c6bf52633ffff).isFinite ∧
      Canonical (Binary64.ofBits 0x430c6bf52633ffff).toRat "1E+15" := by
  have finite : (Binary64.ofBits 0x430c6bf52633ffff).isFinite := by decide
  have nonzero : ¬ (Binary64.ofBits 0x430c6bf52633ffff).isZero := by decide
  have text : shown (.ofBits 0x430c6bf52633ffff) = "1E+15" := by decide +kernel
  refine ⟨finite, ?_⟩
  rw [← text]
  exact (shown_canonical finite).2.1 nonzero

end Numeral

end Calculator
