/-
# Calculator.Proofs.Binary64.Rounding -- the magnitude that a number rounds to

A number rounds to a magnitude when no number with a significand of fifty-three bits is nearer,
and where another one is as near, the magnitude's significand is the even one
(`Magnitude.RoundsTo`).  The numbers that are compared have any scale, so that one beyond the
greatest magnitude is among them: what is nearest to it, or half way to it, rounds to no
magnitude.

`Magnitude.nearest` rounds a quotient on the scale of its own.  A number with a significand of
fifty-three bits is on that grid, or else below all that have their top bit there and so farther
away (`rounded_lt_of_finer`).

* `Magnitude.nearest_eq_some_iff`: rounding a quotient is correct;
* `Magnitude.nearest_relative`: by how much a quotient is moved.
-/
import Mathlib.Algebra.Order.Field.Basic
import Calculator.Proofs.Binary64.Order
import Calculator.Proofs.Numeral.Canonical

namespace Calculator

set_option autoImplicit false

namespace Magnitude

/-! ## Magnitudes by their units -/

/-- A magnitude is determined by its units. -/
theorem units_injective {m n : Magnitude} (same : m.units = n.units) : m = n := by
  have left := m.nearest_units 1 Nat.one_pos
  rw [same, n.nearest_units 1 Nat.one_pos] at left
  exact (Option.some.inj left).symm

/-- The number of a significand on a scale. -/
def point (significand scale : Nat) : ℚ := (significand * 2 ^ scale : Nat) / unitsPerOne

/-- **The magnitude that a number rounds to**: of the numbers with a significand of fifty-three
bits none is nearer, and where another one is as near, this one is even. -/
structure RoundsTo (x : ℚ) (m : Magnitude) : Prop where
  nearest : ∀ s p, s < 2 ^ 53 → |x - m.toRat| ≤ |x - point s p|
  even : ∀ s p, s < 2 ^ 53 → point s p ≠ m.toRat → |x - point s p| = |x - m.toRat| →
    m.significand % 2 = 0

/-! ## Rounding a quotient of units -/

/-- Whole numbers that are half a step away at most are neighbours. -/
theorem neighbours_of_close {x : ℚ} {m n : Nat} (left : |x - m| ≤ 1 / 2)
    (right : |x - n| ≤ 1 / 2) : m ≤ n + 1 ∧ n ≤ m + 1 := by
  rw [abs_le] at left right
  constructor
  · have apart : (m : ℚ) ≤ n + 1 := by linarith
    exact_mod_cast apart
  · have apart : (n : ℚ) ≤ m + 1 := by linarith
    exact_mod_cast apart

section Quotient

variable {num den : Nat} (pos : 0 < den)

theorem step_pos (scale : Nat) : (0 : ℚ) < 2 ^ scale := by positivity

theorem quotient_scaled (num den scale : Nat) :
    (num / (den * 2 ^ scale : Nat) : ℚ) = num / den / 2 ^ scale := by
  push_cast
  rw [div_div]

/-- The distance to a number on a scale, in steps of the scale. -/
theorem distance_eq (num den n scale : Nat) :
    |(num / den : ℚ) - (n * 2 ^ scale : Nat)| =
      |(num / (den * 2 ^ scale : Nat) : ℚ) - n| * 2 ^ scale := by
  rw [quotient_scaled]
  push_cast
  exact distance_scaled (step_pos scale) _ _

include pos

/-- On the scale of the quotient no number is nearer. -/
theorem rounded_nearest_on_scale (n : Nat) :
    |(num / den : ℚ) - rounded num den| ≤
      |(num / den : ℚ) - (n * 2 ^ scaleOf (num / den) : Nat)| := by
  rw [rounded, distance_eq, distance_eq]
  exact mul_le_mul_of_nonneg_right (roundHalfEven_nearest num (unit_pos pos _) n)
    (step_pos _).le

/-- With fifty-three bits on a finer scale a number is farther away. -/
theorem rounded_lt_of_finer {s p : Nat} (fits : s < 2 ^ 53) (finer : p < scaleOf (num / den)) :
    |(num / den : ℚ) - rounded num den| < |(num / den : ℚ) - (s * 2 ^ p : Nat)| := by
  have whole : 2 ^ 52 * 2 ^ scaleOf (num / den) * den ≤ num :=
    (Nat.le_div_iff_mul_le pos).mp (le_of_scaleOf (Nat.zero_lt_of_lt finer))
  have small : s * 2 ^ p < 2 ^ 52 * 2 ^ scaleOf (num / den) := by
    calc s * 2 ^ p < 2 ^ 53 * 2 ^ p := Nat.mul_lt_mul_of_pos_right fits (Nat.two_pow_pos p)
      _ = 2 ^ 52 * 2 ^ (p + 1) := full_eq p
      _ ≤ 2 ^ 52 * 2 ^ scaleOf (num / den) :=
          Nat.mul_le_mul_left _ (Nat.pow_le_pow_right (by decide) finer)
  have near : |(num / den : ℚ) - rounded num den| ≤
      |(num / den : ℚ) - (2 ^ 52 * 2 ^ scaleOf (num / den) : Nat)| :=
    rounded_nearest_on_scale pos (2 ^ 52)
  have positive : (0 : ℚ) < den := by exact_mod_cast pos
  have low : ((2 ^ 52 * 2 ^ scaleOf (num / den) : Nat) : ℚ) ≤ num / den := by
    rw [le_div_iff₀ positive]
    exact_mod_cast whole
  have below : ((s * 2 ^ p : Nat) : ℚ) < (2 ^ 52 * 2 ^ scaleOf (num / den) : Nat) := by
    exact_mod_cast small
  rw [abs_of_nonneg (sub_nonneg.mpr low)] at near
  rw [abs_of_nonneg (sub_nonneg.mpr (below.le.trans low))]
  linarith

/-- A number of fifty-three bits that is no farther away is on the scale of the quotient. -/
theorem exists_on_scale {s p : Nat} (fits : s < 2 ^ 53)
    (near : |(num / den : ℚ) - (s * 2 ^ p : Nat)| ≤ |(num / den : ℚ) - rounded num den|) :
    ∃ k, p = scaleOf (num / den) + k ∧ s * 2 ^ p = s * 2 ^ k * 2 ^ scaleOf (num / den) := by
  have coarse : scaleOf (num / den) ≤ p := by
    by_contra finer
    exact absurd near (not_le.mpr (rounded_lt_of_finer pos fits (not_le.mp finer)))
  obtain ⟨k, rfl⟩ := Nat.exists_eq_add_of_le coarse
  exact ⟨k, rfl, by rw [Nat.pow_add, Nat.mul_assoc, Nat.mul_comm (2 ^ k)]⟩

/-- **No number of fifty-three bits is nearer.** -/
theorem rounded_nearest {s : Nat} (fits : s < 2 ^ 53) (p : Nat) :
    |(num / den : ℚ) - rounded num den| ≤ |(num / den : ℚ) - (s * 2 ^ p : Nat)| := by
  by_contra farther
  obtain ⟨k, -, same⟩ := exists_on_scale pos fits (not_le.mp farther).le
  rw [same] at farther
  exact farther (rounded_nearest_on_scale pos _)

/-- **Where another one is as near, it is odd** and the rounded one is even. -/
theorem rounded_tie {s p : Nat} (fits : s < 2 ^ 53) (other : s * 2 ^ p ≠ rounded num den)
    (tie : |(num / den : ℚ) - (s * 2 ^ p : Nat)| = |(num / den : ℚ) - rounded num den|) :
    significandOf num den % 2 = 0 ∧ s % 2 = 1 := by
  obtain ⟨k, -, same⟩ := exists_on_scale pos fits tie.le
  have another : s * 2 ^ k ≠ significandOf num den := by
    intro equal
    exact other (by rw [same, equal, rounded])
  rw [same, rounded, distance_eq num den (s * 2 ^ k), distance_eq num den (significandOf num den)]
    at tie
  have scaled := mul_right_cancel₀ (step_pos _).ne' tie
  have close : |(num / (den * 2 ^ scaleOf (num / den) : Nat) : ℚ) - significandOf num den| ≤ 1 / 2 :=
    roundHalfEven_close (unit_pos pos _)
  have even : significandOf num den % 2 = 0 := roundHalfEven_tie (unit_pos pos _) another scaled
  have neighbours := neighbours_of_close (scaled.le.trans close) close
  have odd : s * 2 ^ k % 2 = 1 := by omega
  refine ⟨even, ?_⟩
  cases k with
  | zero => simpa using odd
  | succ k =>
    rw [Nat.pow_succ, ← Nat.mul_assoc, Nat.mul_mod_left] at odd
    exact absurd odd (by decide)

/-- The rounded quotient is a number of fifty-three bits itself. -/
theorem exists_rounded_eq : ∃ s p, s < 2 ^ 53 ∧ rounded num den = s * 2 ^ p := by
  have most : significandOf num den ≤ 2 ^ 53 := significandOf_le pos
  rcases Nat.lt_or_eq_of_le most with fits | full
  · exact ⟨_, _, fits, rfl⟩
  · exact ⟨2 ^ 52, scaleOf (num / den) + 1, by decide, by rw [rounded, full, full_eq]⟩

/-- What is rounded up to a significand that does not fit has an even one. -/
theorem even_of_units {m : Magnitude} (units : m.units = rounded num den)
    (even : significandOf num den % 2 = 0) : m.significand % 2 = 0 := by
  have least : 0 < scaleOf (num / den) → 2 ^ 52 ≤ significandOf num den := le_significandOf pos
  have within := units_le_greatest m
  rw [units] at within
  have most : significandOf num den ≤ 2 ^ 53 := significandOf_le pos
  rcases Nat.lt_or_eq_of_le most with fits | full
  · have scale : scaleOf (num / den) ≤ 2045 := by
      by_contra coarse
      exact absurd (greatest_lt_rounded pos (not_le.mp coarse)) (not_lt.mpr within)
    have same : m = ⟨significandOf num den, scaleOf (num / den), fits, by omega, scale⟩ :=
      units_injective units
    rwa [same]
  · have scale : scaleOf (num / den) + 1 ≤ 2045 := by
      by_contra coarse
      rw [rounded, full] at within
      exact absurd (greatest_lt (by omega)) (not_lt.mpr within)
    have same : m = ⟨2 ^ 52, scaleOf (num / den) + 1, by decide, by omega, scale⟩ :=
      units_injective (by rw [units, rounded, full, full_eq]; rfl)
    rw [same]
    show 2 ^ 52 % 2 = 0
    decide

end Quotient

/-! ## Correct rounding -/

section Correct

theorem cast_unitsPerOne_pos : (0 : ℚ) < unitsPerOne := by exact_mod_cast unitsPerOne_pos

/-- Distances in units. -/
theorem distance_units (num den n : Nat) :
    |(num / den / unitsPerOne : ℚ) - (n : ℚ) / unitsPerOne| =
      |(num / den : ℚ) - n| / unitsPerOne := by
  rw [← sub_div, abs_div, abs_of_pos cast_unitsPerOne_pos]

variable {num den : Nat} (pos : 0 < den)
include pos

theorem roundsTo_of_units {m : Magnitude} (units : m.units = rounded num den) :
    RoundsTo (num / den / unitsPerOne) m where
  nearest s p fits := by
    rw [toRat, point, distance_units, distance_units, units]
    exact div_le_div_of_nonneg_right (rounded_nearest pos fits p) cast_unitsPerOne_pos.le
  even s p fits other tie := by
    rw [toRat, point, distance_units, distance_units, units] at tie
    have another : s * 2 ^ p ≠ rounded num den := by
      intro same
      exact other (by rw [point, toRat, same, units])
    have closest := (div_left_inj' cast_unitsPerOne_pos.ne').mp tie
    exact even_of_units pos units (rounded_tie pos fits another closest).1

/-- What a quotient rounds to has the units that it is rounded to. -/
theorem units_of_roundsTo {m : Magnitude} (rounds : RoundsTo (num / den / unitsPerOne) m) :
    m.units = rounded num den := by
  by_contra other
  obtain ⟨s, p, fits, same⟩ : ∃ s p, s < 2 ^ 53 ∧ rounded num den = s * 2 ^ p :=
    exists_rounded_eq pos
  have nearest := rounds.nearest s p fits
  have even := rounds.even s p fits
  rw [point, ← same, toRat, distance_units, distance_units] at nearest even
  have least : |(num / den : ℚ) - rounded num den| ≤ |(num / den : ℚ) - m.units| :=
    rounded_nearest pos m.canonical.1 m.scale
  have tie : |(num / den : ℚ) - m.units| = |(num / den : ℚ) - rounded num den| :=
    le_antisymm ((div_le_div_iff_of_pos_right cast_unitsPerOne_pos).mp nearest) least
  have odd := (rounded_tie pos m.canonical.1 other tie).2
  have apart : (rounded num den : ℚ) / unitsPerOne ≠ m.units / unitsPerOne := by
    intro equal
    exact other (by exact_mod_cast ((div_left_inj' cast_unitsPerOne_pos.ne').mp equal).symm)
  have even := even apart (by rw [tie])
  omega

/-- **Rounding a quotient is correct**: the magnitude that it finds is the one that the quotient
rounds to, and when it finds none there is none. -/
theorem nearest_eq_some_iff {m : Magnitude} :
    nearest num den = some m ↔ RoundsTo (num / den / unitsPerOne) m := by
  constructor
  · intro found
    exact roundsTo_of_units pos (units_of_nearest pos found)
  · intro rounds
    have units := units_of_roundsTo pos rounds
    rcases nearest_spec num pos with ⟨other, found, same⟩ | ⟨-, beyond⟩
    · rw [found, units_injective (same.trans units.symm)]
    · rw [← units] at beyond
      exact absurd (units_le_greatest m) (not_le.mpr beyond)

/-- **A quotient is moved by little**, unless it is a significand without its top bit. -/
theorem nearest_relative {m : Magnitude} (found : nearest num den = some m)
    (large : 2 ^ 52 * den ≤ num) : 2 ^ 53 * |(num / den : ℚ) - m.units| ≤ num / den := by
  have positive : (0 : ℚ) < den := by exact_mod_cast pos
  have step : 2 ^ 52 * 2 ^ scaleOf (num / den) * den ≤ num := by
    rcases Nat.eq_zero_or_pos (scaleOf (num / den)) with flat | scaled
    · rwa [flat, Nat.pow_zero, Nat.mul_one]
    · exact (Nat.le_div_iff_mul_le pos).mp (le_of_scaleOf scaled)
  have low : (2 ^ 52 * 2 ^ scaleOf (num / den) : ℚ) ≤ num / den := by
    rw [le_div_iff₀ positive]
    exact_mod_cast step
  have close : |(num / (den * 2 ^ scaleOf (num / den) : Nat) : ℚ) - significandOf num den| ≤ 1 / 2 :=
    roundHalfEven_close (unit_pos pos _)
  rw [units_of_nearest pos found, rounded, distance_eq]
  have half := mul_le_mul_of_nonneg_right close (step_pos (scaleOf (num / den))).le
  linarith

end Correct

end Magnitude

end Calculator
