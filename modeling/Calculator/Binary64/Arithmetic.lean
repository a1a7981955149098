/-
# Calculator.Binary64.Arithmetic -- the nearest double, and operations that use it

`Magnitude.nearest n d` is the magnitude nearest to `n / d` units, a half going to
the even significand, or `none` when `n / d` lies beyond the largest finite double
by half a step or more.  Reading a decimal and all four operations find an exact
quotient and round it once.
-/
import Calculator.Binary64.Basic

namespace Calculator

set_option autoImplicit false

namespace Magnitude

/-- The scale on which a quotient with this whole part has its significand. -/
def scaleOf (whole : Nat) : Nat := whole.log2 - 52

/-- The magnitude nearest to `num / den` units, if it is finite. -/
def nearest (num den : Nat) : Option Magnitude :=
  let scale := scaleOf (num / den)
  let significand := roundHalfEven num (den * 2 ^ scale)
  if fits : significand < 2 ^ 53 ∧ (2 ^ 52 ≤ significand ∨ scale = 0) ∧ scale ≤ 2045 then
    some ⟨significand, scale, fits⟩
  else if room : scale + 1 ≤ 2045 then
    some ⟨2 ^ 52, scale + 1, by omega⟩
  else
    none

theorem scaleOf_units (m : Magnitude) : scaleOf m.units = m.scale := by
  obtain ⟨s, p, below, shape, fits⟩ := m
  simp only [scaleOf, units]
  rcases Nat.lt_or_ge s (2 ^ 52) with low | high
  · have flat : p = 0 := by omega
    subst flat
    have : s.log2 ≤ 52 := by
      rcases Nat.eq_zero_or_pos s with rfl | pos
      · decide
      · have := (Nat.log2_lt (by omega)).2 low
        omega
    simp only [Nat.pow_zero, Nat.mul_one]
    omega
  · have positive : s * 2 ^ p ≠ 0 := Nat.mul_ne_zero (by omega) (by simp)
    have : (s * 2 ^ p).log2 = 52 + p := by
      rw [Nat.log2_eq_iff positive]
      constructor
      · rw [Nat.pow_add]
        exact Nat.mul_le_mul_right _ high
      · rw [show 52 + p + 1 = 53 + p by omega, Nat.pow_add]
        exact Nat.mul_lt_mul_of_pos_right below (Nat.two_pow_pos p)
    omega

/-- A magnitude is the nearest to itself, whatever the denominator. -/
theorem nearest_units (m : Magnitude) (den : Nat) (pos : 0 < den) :
    nearest (m.units * den) den = some m := by
  have scale : scaleOf (m.units * den / den) = m.scale := by
    rw [Nat.mul_div_cancel _ pos, scaleOf_units]
  have whole : roundHalfEven (m.units * den) (den * 2 ^ m.scale) = m.significand := by
    have same : m.units * den = m.significand * (den * 2 ^ m.scale) := by
      rw [units, Nat.mul_assoc, Nat.mul_comm den]
    rw [same, roundHalfEven_mul _ _ (Nat.mul_pos pos (Nat.two_pow_pos _))]
  simp only [nearest, scale, whole, m.canonical, and_self, dif_pos]

end Magnitude

namespace Binary64

/-- The double nearest to `num / den` units with the given sign; a quotient that
is too large is infinite. -/
def nearest (negative : Bool) (num den : Nat) : Binary64 :=
  match Magnitude.nearest num den with
  | some m => .finite negative m
  | none => .infinity negative

def ofNat (n : Nat) : Binary64 := nearest false (n * Magnitude.unitsPerOne) 1

/-! ## Operations -/

def add : Binary64 → Binary64 → Binary64
  | .nan, _ => .nan
  | _, .nan => .nan
  | .infinity a, .infinity b => if a = b then .infinity a else .nan
  | .infinity a, .finite _ _ => .infinity a
  | .finite _ _, .infinity b => .infinity b
  | .finite a m, .finite b n =>
      let sum := signedUnits a m + signedUnits b n
      if sum = 0 then .finite (a && b) .zero else nearest (decide (sum < 0)) sum.natAbs 1

def sub (x y : Binary64) : Binary64 := add x y.neg

def mul : Binary64 → Binary64 → Binary64
  | .nan, _ => .nan
  | _, .nan => .nan
  | .infinity a, .infinity b => .infinity (a != b)
  | .infinity a, .finite b n => if n.isZero then .nan else .infinity (a != b)
  | .finite a m, .infinity b => if m.isZero then .nan else .infinity (a != b)
  | .finite a m, .finite b n => nearest (a != b) (m.units * n.units) Magnitude.unitsPerOne

def div : Binary64 → Binary64 → Binary64
  | .nan, _ => .nan
  | _, .nan => .nan
  | .infinity _, .infinity _ => .nan
  | .infinity a, .finite b _ => .infinity (a != b)
  | .finite a _, .infinity b => .finite (a != b) .zero
  | .finite a m, .finite b n =>
      if n.isZero then
        if m.isZero then .nan else .infinity (a != b)
      else
        nearest (a != b) (m.units * Magnitude.unitsPerOne) n.units

end Binary64

end Calculator
