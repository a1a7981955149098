/-
# Calculator.Proofs.Binary64.Exact -- whole numbers that are doubles

A whole number is a double without any rounding when it is a significand of fifty-three bits
times a power of two that is not too large (`IsExact`).  Numbers of up to fifteen digits are,
and powers of ten up to `10 ^ 22`, whose odd part `5 ^ 22` still fits.

A quotient of two such numbers is rounded once (`Binary64.div_exact`), so that it is the double
nearest to the quotient of the numbers themselves.
-/
import Calculator.Binary64.Arithmetic
import Calculator.Proofs.Numeral.Rereading

namespace Calculator

set_option autoImplicit false

namespace Magnitude

/-- A significand may be given with fewer bits than it has room for. -/
theorem exists_units {s p : Nat} (below : s < 2 ^ 53) (fits : p ≤ 2045) :
    ∃ m : Magnitude, m.units = s * 2 ^ p := by
  induction p generalizing s with
  | zero => exact ⟨⟨s, 0, below, .inr rfl, by decide⟩, rfl⟩
  | succ p ih =>
      rcases Nat.lt_or_ge s (2 ^ 52) with low | high
      · obtain ⟨m, units⟩ := ih (s := 2 * s) (by omega) (by omega)
        refine ⟨m, ?_⟩
        rw [units, Nat.pow_succ, Nat.mul_comm 2 s, Nat.mul_assoc, Nat.mul_comm 2]
      · exact ⟨⟨s, p + 1, below, .inl high, fits⟩, rfl⟩

theorem unitsPerOne_pos : 0 < unitsPerOne := Nat.two_pow_pos _

/-- There is one zero. -/
theorem eq_zero_of_isZero {m : Magnitude} (none : m.isZero) : m = .zero := by
  obtain ⟨significand, scale, below, shape, fits⟩ := m
  obtain rfl : significand = 0 := beq_iff_eq.mp none
  obtain rfl : scale = 0 := by omega
  rfl

theorem units_eq_zero_iff (m : Magnitude) : m.units = 0 ↔ m.isZero := by
  have power : 0 < 2 ^ m.scale := Nat.two_pow_pos m.scale
  rw [units, isZero, beq_iff_eq, Nat.mul_eq_zero]
  omega

theorem units_pos {m : Magnitude} (nonzero : ¬ m.isZero) : 0 < m.units :=
  Nat.pos_of_ne_zero (mt m.units_eq_zero_iff.mp nonzero)

end Magnitude

/-- A significand of fifty-three bits times a power of two. -/
def IsExact (n : Nat) : Prop := ∃ s p, s < 2 ^ 53 ∧ p ≤ 971 ∧ n = s * 2 ^ p

theorem isExact_of_lt {n : Nat} (below : n < 2 ^ 53) : IsExact n :=
  ⟨n, 0, below, by decide, (Nat.mul_one n).symm⟩

/-- A factor of two needs no room in the significand. -/
theorem isExact_two_mul {n : Nat} (below : n < 2 ^ 53) : IsExact (2 * n) :=
  ⟨n, 1, below, by decide, Nat.mul_comm 2 n⟩

theorem isExact_powerOfTen {k : Nat} (small : k ≤ 22) : IsExact (10 ^ k) := by
  refine ⟨5 ^ k, k, ?_, by omega, ?_⟩
  · calc 5 ^ k ≤ 5 ^ 22 := Nat.pow_le_pow_right (by decide) small
      _ < 2 ^ 53 := by decide
  · rw [← Nat.mul_pow]

namespace Binary64

theorem nearest_of_none {num den : Nat} (beyond : Magnitude.nearest num den = none)
    (negative : Bool) : nearest negative num den = .infinity negative := by
  unfold nearest
  simp only [beyond]

/-- A whole number of units that is a magnitude's is rounded to it. -/
theorem nearest_units (negative : Bool) (m : Magnitude) :
    nearest negative m.units 1 = .finite negative m := by
  have itself := m.nearest_units 1 Nat.one_pos
  rw [Nat.mul_one] at itself
  exact nearest_of_some itself negative

/-- Equal quotients have one nearest double. -/
theorem nearest_congr {num den num' den' : Nat} (pos : 0 < den) (pos' : 0 < den')
    (same : num * den' = num' * den) (negative : Bool) :
    nearest negative num den = nearest negative num' den' := by
  have magnitudes := Magnitude.nearest_congr pos pos' same
  cases found : Magnitude.nearest num den with
  | some m => rw [nearest_of_some found, nearest_of_some (magnitudes ▸ found)]
  | none => rw [nearest_of_none found, nearest_of_none (magnitudes ▸ found)]

theorem ofNat_exact {n : Nat} (exact : IsExact n) :
    ∃ m : Magnitude, ofNat n = .finite false m ∧ m.units = n * Magnitude.unitsPerOne := by
  obtain ⟨s, p, below, fits, rfl⟩ := exact
  obtain ⟨m, units⟩ := Magnitude.exists_units (p := p + Magnitude.unitExponent) below
    (by rw [Magnitude.unitExponent]; omega)
  have scaled : m.units = s * 2 ^ p * Magnitude.unitsPerOne := by
    rw [units, Nat.pow_add, ← Nat.mul_assoc]
    rfl
  refine ⟨m, ?_, scaled⟩
  rw [ofNat, ← scaled, nearest_units]

/-- **The quotient of exact numbers is rounded once.** -/
theorem div_exact {a b : Nat} (left : IsExact a) (right : IsExact b) (pos : 0 < b) :
    (ofNat a).div (ofNat b) = nearest false (a * Magnitude.unitsPerOne) b := by
  obtain ⟨m, dividend, units⟩ := ofNat_exact left
  obtain ⟨n, divisor, parts⟩ := ofNat_exact right
  have unit := Magnitude.unitsPerOne_pos
  have nonzero : ¬ n.isZero := by
    rw [← n.units_eq_zero_iff, parts, Nat.mul_eq_zero]
    omega
  rw [dividend, divisor, div, if_neg nonzero, units, parts]
  refine nearest_congr (Nat.mul_pos pos unit) pos ?_ _
  rw [← Nat.mul_assoc, Nat.mul_right_comm (a * Magnitude.unitsPerOne)]

end Binary64

end Calculator
