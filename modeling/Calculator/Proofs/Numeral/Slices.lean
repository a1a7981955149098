/-
# Calculator.Proofs.Numeral.Slices -- the text of a result, cut out of its digits

A result's text can be made from its fifteen digits and the place of the first one alone:
the zeros behind the digits are dropped, and what remains is filled up with zeros or cut by
the point.  `shown?` makes it this way, step by step, and fails where a difference of counts
would be negative or a cut would lie outside the digits.  It never fails, and the text is the
one that is shown (`shown?_eq`).
-/
import Mathlib.Data.List.DropRight
import Calculator.Numeral
import Calculator.Proofs.Binary64.Exact
import Calculator.Proofs.Decimal.Layout
import Calculator.Proofs.Decimal.Significant

namespace Calculator.Numeral

set_option autoImplicit false

/-! ## Steps that may fail -/

/-- An integer as a count, unless it is negative. -/
def count? (n : Int) : Option Nat := if 0 ≤ n then some n.toNat else none

/-- A difference of counts, unless it is negative. -/
def minus? (m n : Nat) : Option Nat := if n ≤ m then some (m - n) else none

/-- The characters in front of a cut and those behind it, unless there are too few. -/
def cut? (n : Nat) (cs : List Char) : Option (List Char × List Char) :=
  if n ≤ cs.length then some (cs.take n, cs.drop n) else none

theorem count?_of_nonneg {n : Int} (nonneg : 0 ≤ n) : count? n = some n.toNat := if_pos nonneg

theorem minus?_of_le {m n : Nat} (le : n ≤ m) : minus? m n = some (m - n) := if_pos le

theorem cut?_of_le {n : Nat} {cs : List Char} (le : n ≤ cs.length) :
    cut? n cs = some (cs.take n, cs.drop n) := if_pos le

/-! ## Texts from digits -/

/-- Digits without the zeros at their end, one zero at least. -/
def withoutZeros (digits : List Char) : List Char :=
  match digits.rdropWhile (· == '0') with
  | [] => ['0']
  | kept => kept

/-- Digits, the first one at a place, in positional notation. -/
def positional? (digits : List Char) (place : Int) : Option (List Char) :=
  if place < 0 then
    (count? (-place - 1)).map fun zeros => '0' :: '.' :: (List.replicate zeros '0' ++ digits)
  else
    (count? place).bind fun width =>
      if digits.length ≤ width + 1 then
        (minus? (width + 1) digits.length).map fun zeros => digits ++ List.replicate zeros '0'
      else
        (cut? (width + 1) digits).map fun parts => parts.1 ++ '.' :: parts.2

/-- Digits, the first one at a place, as a mantissa and an exponent. -/
def marked? (digits : List Char) (place : Int) : Option (List Char) :=
  (cut? 1 digits).map fun parts =>
    if parts.2.isEmpty then parts.1 ++ exponentMark place
    else parts.1 ++ '.' :: parts.2 ++ exponentMark place

/-- A magnitude other than zero, made from its fifteen digits. -/
def shownMagnitude? (m : Magnitude) : Option (List Char) :=
  let decimal := Decimal.significant significantDigits m.units Magnitude.unitsPerOne
  let digits := withoutZeros (Decimal.digits decimal.coefficient)
  if isPositionalPlace decimal.leadingPlace then positional? digits decimal.leadingPlace
  else marked? digits decimal.leadingPlace

/-- The text of a result, made step by step. -/
def shown? : Binary64 → Option String
  | .nan => some "NaN"
  | .infinity negative => some (infinityName negative)
  | .finite negative m =>
      if m.isZero then some "0" else (shownMagnitude? m).map (signed negative)

/-! ## No step fails -/

section Steps

variable {d : Decimal}

/-- The digits that remain are those of the decimal without trailing zeros. -/
theorem withoutZeros_digits (pos : 0 < d.coefficient) :
    withoutZeros (Decimal.digits d.coefficient) = Decimal.digits d.trim.coefficient := by
  obtain ⟨zeros, split⟩ := Decimal.digits_eq_trim pos
  have last := Decimal.getLast?_digits_ne_zero (Decimal.trim_settled pos)
  have nonempty := Decimal.digits_ne_nil d.trim.coefficient
  generalize Decimal.digits d.trim.coefficient = kept at split last nonempty
  have trimmed : (Decimal.digits d.coefficient).rdropWhile (· == '0') = kept := by
    obtain ⟨front, digit, rfl⟩ := List.eq_nil_or_concat' kept |>.resolve_left nonempty
    have other : ¬ (digit == '0') = true := by simpa using last
    rw [split, List.rdropWhile, List.reverse_append, List.reverse_replicate,
      List.dropWhile_append_of_pos (by simp), List.reverse_append, List.reverse_singleton,
      List.singleton_append, List.dropWhile_cons, if_neg other]
    simp
  unfold withoutZeros
  rw [trimmed]
  split
  · exact absurd rfl nonempty
  · rfl

theorem positional?_eq (pos : 0 < d.coefficient) :
    positional? (Decimal.digits d.coefficient) d.leadingPlace = some d.positional := by
  have some_digit := Decimal.length_digits_pos d.coefficient
  rw [positional?]
  split
  · rename_i behind
    rw [count?_of_nonneg (by omega), Option.map_some, Decimal.positional_behind behind]
  · rename_i front
    rw [count?_of_nonneg (by omega), Option.bind_some]
    split
    · rename_i short
      have whole : 0 ≤ d.exponent := by
        rw [Decimal.leadingPlace] at short front
        omega
      rw [minus?_of_le short, Option.map_some, Decimal.positional_whole pos whole]
    · rename_i long
      have behind : d.exponent < 0 := by
        rw [Decimal.leadingPlace] at long
        omega
      rw [cut?_of_le (by omega), Option.map_some, Decimal.positional_cut (by omega) behind]

theorem marked?_eq (place : Int) :
    marked? (Decimal.digits d.coefficient) place = some (d.mantissa ++ exponentMark place) := by
  have nonempty := Decimal.digits_ne_nil d.coefficient
  rw [Decimal.mantissa]
  generalize Decimal.digits d.coefficient = digits at nonempty
  cases digits with
  | nil => exact absurd rfl nonempty
  | cons first behind =>
    cases behind with
    | nil => rfl
    | cons second rest => simp [marked?, cut?]

end Steps

theorem coefficient_significant_pos {m : Magnitude} (nonzero : ¬ m.isZero) :
    0 < (Decimal.significant significantDigits m.units Magnitude.unitsPerOne).coefficient := by
  have width : Decimal.HasDigits significantDigits
      (.significant significantDigits m.units Magnitude.unitsPerOne) :=
    Decimal.hasDigits_significant (by decide) (Magnitude.units_pos nonzero)
      (Nat.two_pow_pos Magnitude.unitExponent)
  exact Nat.lt_of_lt_of_le (by decide) width.low

theorem shownMagnitude?_eq {m : Magnitude} (nonzero : ¬ m.isZero) :
    shownMagnitude? m = some (shownMagnitude m) := by
  have pos := coefficient_significant_pos nonzero
  unfold shownMagnitude? shownMagnitude
  generalize Decimal.significant significantDigits m.units Magnitude.unitsPerOne = d at pos
  have settled := Decimal.trim_settled pos
  simp only [withoutZeros_digits pos, ← Decimal.leadingPlace_trim pos]
  split
  · exact positional?_eq (by omega)
  · exact marked?_eq _

/-- **The text of a result is made from its digits without a step that fails.** -/
theorem shown?_eq (x : Binary64) : shown? x = some (shown x) := by
  cases x with
  | nan => rfl
  | infinity negative => rfl
  | finite negative m =>
    rw [shown?, shown]
    split
    · rfl
    · rename_i nonzero
      rw [shownMagnitude?_eq nonzero, Option.map_some]

end Calculator.Numeral
