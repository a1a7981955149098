/-
# Calculator.Proofs.Binary64.Integers -- doubles that are integers

A double represents an integer when it is that many ones, and zero when it is one of the two
zeros (`Represents`).  Integers up to `2 ^ 53` are magnitudes, the greatest of them as well, since
its significand is a power of two.  So a sum, a difference or a product of integers that is no
greater is not rounded at all: the exact result is among the magnitudes.

* `Represents.add`, `Represents.sub`, `Represents.mul`: operations on integers are exact.
-/
import Mathlib.Algebra.Order.Ring.Int
import Mathlib.Tactic.FieldSimp
import Calculator.Proofs.Binary64.Exact
import Calculator.Proofs.Numeral.Canonical

namespace Calculator

set_option autoImplicit false

theorem isExact_of_le {n : Nat} (small : n ≤ 2 ^ 53) : IsExact n := by
  rcases Nat.lt_or_eq_of_le small with below | rfl
  · exact isExact_of_lt below
  · exact isExact_two_mul (n := 2 ^ 52) (by decide)

namespace Magnitude

theorem exists_units_of_le {n : Nat} (small : n ≤ 2 ^ 53) :
    ∃ m : Magnitude, m.units = n * unitsPerOne := by
  obtain ⟨m, -, units⟩ := Binary64.ofNat_exact (isExact_of_le small)
  exact ⟨m, units⟩

theorem intCast_unitsPerOne_pos : 0 < (unitsPerOne : Int) := by exact_mod_cast unitsPerOne_pos

/-- As many ones are that number. -/
theorem toRat_of_units {m : Magnitude} {n : Nat} (units : m.units = n * unitsPerOne) :
    m.toRat = n := by
  have unit : (unitsPerOne : ℚ) ≠ 0 := by exact_mod_cast unitsPerOne_pos.ne'
  rw [toRat, units]
  push_cast
  field_simp

end Magnitude

namespace Binary64

/-- The double is this integer; zero is either of the two zeros. -/
def Represents (x : Binary64) (n : Int) : Prop :=
  ∃ negative m, x = .finite negative m ∧ signedUnits negative m = n * Magnitude.unitsPerOne

section Units

variable {negative : Bool} {m : Magnitude} {n : Int}

theorem signedUnits_zero (negative : Bool) : signedUnits negative .zero = 0 := by
  cases negative <;> rfl

theorem units_of_signedUnits (same : signedUnits negative m = n * Magnitude.unitsPerOne) :
    m.units = n.natAbs * Magnitude.unitsPerOne := by
  have size : (signedUnits negative m).natAbs = m.units := by
    unfold signedUnits
    split <;> omega
  rw [← size, same, Int.natAbs_mul, Int.natAbs_natCast]

/-- The sign of an integer other than zero is the double's. -/
theorem negative_iff_of_signedUnits (same : signedUnits negative m = n * Magnitude.unitsPerOne)
    (nonzero : n ≠ 0) : negative = true ↔ n < 0 := by
  have unit := Magnitude.intCast_unitsPerOne_pos
  cases negative with
  | false =>
      have above : 0 * (Magnitude.unitsPerOne : Int) ≤ n * Magnitude.unitsPerOne := by
        rw [← same, signedUnits, if_neg Bool.false_ne_true]
        omega
      have nonneg := le_of_mul_le_mul_right above unit
      simp [nonneg]
  | true =>
      have below : n * (Magnitude.unitsPerOne : Int) ≤ 0 * Magnitude.unitsPerOne := by
        rw [← same, signedUnits, if_pos rfl]
        omega
      have nonpos := le_of_mul_le_mul_right below unit
      simp only [true_iff]
      omega

theorem signedUnits_of_units (units : m.units = n.natAbs * Magnitude.unitsPerOne)
    (sign : n ≠ 0 → (negative = true ↔ n < 0)) :
    signedUnits negative m = n * Magnitude.unitsPerOne := by
  have size : (m.units : Int) = n.natAbs * Magnitude.unitsPerOne := by exact_mod_cast units
  by_cases zero : n = 0
  · subst zero
    rw [Int.natAbs_zero, Nat.zero_mul] at units
    rw [Int.zero_mul, signedUnits, units, Int.natCast_zero, Int.neg_zero, ite_self]
  · have sign := sign zero
    rw [signedUnits, size]
    split
    · rename_i minus
      have below := sign.mp minus
      rw [Int.ofNat_natAbs_of_nonpos below.le, Int.neg_mul, Int.neg_neg]
    · rename_i plus
      have above := mt sign.mpr plus
      rw [Int.natAbs_of_nonneg (not_lt.mp above)]

end Units

/-- The signs of two integers differ when their product is negative. -/
theorem bne_iff_mul_neg {a b : Bool} {i j : Int} (left : a = true ↔ i < 0)
    (right : b = true ↔ j < 0) (some_i : i ≠ 0) (some_j : j ≠ 0) :
    (a != b) = true ↔ i * j < 0 := by
  rw [mul_neg_iff, bne_iff_ne, Ne, Bool.eq_iff_iff, left, right]
  omega

/-- An exact quotient that is an integer up to `2 ^ 53` is not rounded. -/
theorem represents_nearest {n : Int} (small : n.natAbs ≤ 2 ^ 53) {negative : Bool}
    (sign : n ≠ 0 → (negative = true ↔ n < 0)) {num den : Nat} (pos : 0 < den)
    (exact : num = n.natAbs * Magnitude.unitsPerOne * den) :
    (nearest negative num den).Represents n := by
  obtain ⟨m, units⟩ := Magnitude.exists_units_of_le small
  have found := m.nearest_units den pos
  rw [units, ← exact] at found
  exact ⟨negative, m, nearest_of_some found negative, signedUnits_of_units units sign⟩

namespace Represents

variable {x y : Binary64} {i j : Int}

theorem isFinite (left : x.Represents i) : x.isFinite := by
  obtain ⟨negative, m, rfl, -⟩ := left
  rfl

/-- The number of the double is the integer. -/
theorem toRat (left : x.Represents i) : x.toRat = i := by
  obtain ⟨negative, m, rfl, units⟩ := left
  have unit : (Magnitude.unitsPerOne : ℚ) ≠ 0 := by
    exact_mod_cast Magnitude.intCast_unitsPerOne_pos.ne'
  have number : (signedUnits negative m : ℚ) = i * Magnitude.unitsPerOne := by exact_mod_cast units
  rw [eq_comm, ← mul_div_cancel_right₀ (i : ℚ) unit, ← number, signedUnits, Binary64.toRat,
    Magnitude.toRat]
  split
  · push_cast
    rw [neg_div]
  · push_cast
    rfl

theorem zero (negative : Bool) : (finite negative .zero).Represents 0 :=
  ⟨negative, .zero, rfl, by rw [signedUnits_zero, Int.zero_mul]⟩

theorem neg (left : x.Represents i) : x.neg.Represents (-i) := by
  obtain ⟨negative, m, rfl, units⟩ := left
  refine ⟨!negative, m, rfl, ?_⟩
  rw [Int.neg_mul, ← units]
  cases negative <;> simp [signedUnits]

/-- Dropping the sign of a zero changes no integer. -/
theorem unsignZero (left : x.Represents i) : x.unsignZero.Represents i := by
  by_cases none : x.isZero
  · obtain ⟨negative, m, rfl, units⟩ := left
    have empty := m.units_eq_zero_iff.mpr none
    have nothing : i = 0 := by
      by_contra nonzero
      have product := Int.mul_ne_zero nonzero Magnitude.intCast_unitsPerOne_pos.ne'
      rw [← units] at product
      simp [signedUnits, empty] at product
    rw [Binary64.unsignZero, if_pos none, nothing]
    exact zero false
  · rwa [Binary64.unsignZero, if_neg none]

variable (left : x.Represents i) (right : y.Represents j)
include left right

/-- **A sum of integers is exact.** -/
theorem add (small : (i + j).natAbs ≤ 2 ^ 53) : (x.add y).Represents (i + j) := by
  obtain ⟨a, m, rfl, first⟩ := left
  obtain ⟨b, n, rfl, second⟩ := right
  have unit := Magnitude.intCast_unitsPerOne_pos
  have total : signedUnits a m + signedUnits b n = (i + j) * Magnitude.unitsPerOne := by
    rw [first, second, Int.add_mul]
  have nothing : (i + j) * (Magnitude.unitsPerOne : Int) = 0 ↔ i + j = 0 := by
    rw [Int.mul_eq_zero, or_iff_left unit.ne']
  simp only [Binary64.add, total]
  split
  · rename_i none
    rw [nothing.mp none]
    exact zero (a && b)
  · refine represents_nearest small (fun nonzero => ?_) Nat.one_pos ?_
    · rw [decide_eq_true_eq, mul_neg_iff]
      omega
    · rw [Int.natAbs_mul, Int.natAbs_natCast, Nat.mul_one]

/-- **A difference of integers is exact.** -/
theorem sub (small : (i - j).natAbs ≤ 2 ^ 53) : (x.sub y).Represents (i - j) := by
  rw [Int.sub_eq_add_neg] at small ⊢
  exact left.add right.neg small

/-- **A product of integers is exact.** -/
theorem mul (small : (i * j).natAbs ≤ 2 ^ 53) : (x.mul y).Represents (i * j) := by
  obtain ⟨a, m, rfl, first⟩ := left
  obtain ⟨b, n, rfl, second⟩ := right
  have unit := Magnitude.unitsPerOne_pos
  rw [Binary64.mul]
  refine represents_nearest small (fun nonzero => ?_) unit ?_
  · obtain ⟨some_i, some_j⟩ := Int.mul_ne_zero_iff.mp nonzero
    exact bne_iff_mul_neg (negative_iff_of_signedUnits first some_i)
      (negative_iff_of_signedUnits second some_j) some_i some_j
  · rw [units_of_signedUnits first, units_of_signedUnits second, Int.natAbs_mul,
      Nat.mul_mul_mul_comm, Nat.mul_assoc (i.natAbs * j.natAbs)]

end Represents

end Binary64

end Calculator
