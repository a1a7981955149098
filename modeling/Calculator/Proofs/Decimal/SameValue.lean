/-
# Calculator.Proofs.Decimal.SameValue -- decimals that denote one number

A decimal is written in many ways: `12 * 10 ^ -1` is also `120 * 10 ^ -2`.  Rounding
does not see the difference, because a quotient is rounded alike however it is
expanded (`Magnitude.nearest_congr`).  `Decimal.SameValue` says that two decimals
denote one number, without dividing.

* `Decimal.trim_sameValue`: dropping trailing zeros keeps the number;
* `Decimal.SameValue.readsAs_iff`: decimals of one number are one double.
-/
import Calculator.Decimal

namespace Calculator

set_option autoImplicit false

/-! ## Expanding a quotient -/

theorem roundHalfEven_expand (num den k : Nat) (pos : 0 < k) :
    roundHalfEven (num * k) (den * k) = roundHalfEven num den := by
  have remainder : num * k % (den * k) = num % den * k := Nat.mul_mod_mul_right k num den
  have quotient : num * k / (den * k) = num / den := Nat.mul_div_mul_right num den pos
  have less : 2 * (num % den * k) < den * k ↔ 2 * (num % den) < den := by
    rw [← Nat.mul_assoc]
    exact Nat.mul_lt_mul_right pos
  have half : 2 * (num % den * k) = den * k ↔ 2 * (num % den) = den := by
    rw [← Nat.mul_assoc]
    exact Nat.mul_left_inj (Nat.ne_of_gt pos)
  simp only [roundHalfEven, remainder, quotient, less, half]

namespace Magnitude

theorem nearest_expand (num den k : Nat) (pos : 0 < k) :
    nearest (num * k) (den * k) = nearest num den := by
  have quotient : num * k / (den * k) = num / den := Nat.mul_div_mul_right num den pos
  have significand : roundHalfEven (num * k) (den * k * 2 ^ scaleOf (num / den)) =
      roundHalfEven num (den * 2 ^ scaleOf (num / den)) := by
    rw [Nat.mul_right_comm]
    exact roundHalfEven_expand num _ k pos
  simp only [nearest, quotient, significand]

/-- Equal quotients have one nearest magnitude. -/
theorem nearest_congr {num den num' den' : Nat} (pos : 0 < den) (pos' : 0 < den')
    (same : num * den' = num' * den) : nearest num den = nearest num' den' := by
  rw [← nearest_expand num den den' pos', same, Nat.mul_comm den den',
    nearest_expand num' den' den pos]

end Magnitude

namespace Decimal

/-- Both decimals denote the same number. -/
def SameValue (d e : Decimal) : Prop :=
  d.numerator * e.denominator = e.numerator * d.denominator

theorem readsAs_iff_nearest {d : Decimal} {m : Magnitude} :
    d.readsAs m ↔
      Magnitude.nearest (d.numerator * Magnitude.unitsPerOne) d.denominator = some m := by
  rw [readsAs, decide_eq_true_eq]

theorem denominator_pos (d : Decimal) : 0 < d.denominator := Nat.pow_pos (by decide)

namespace SameValue

theorem refl (d : Decimal) : d.SameValue d := rfl

theorem trans {d e f : Decimal} (first : d.SameValue e) (second : e.SameValue f) :
    d.SameValue f := by
  refine Nat.eq_of_mul_eq_mul_right e.denominator_pos ?_
  calc d.numerator * f.denominator * e.denominator
      = d.numerator * e.denominator * f.denominator := Nat.mul_right_comm ..
    _ = e.numerator * d.denominator * f.denominator := by rw [first]
    _ = e.numerator * f.denominator * d.denominator := Nat.mul_right_comm ..
    _ = f.numerator * e.denominator * d.denominator := by rw [second]
    _ = f.numerator * d.denominator * e.denominator := Nat.mul_right_comm ..

theorem nearest_eq {d e : Decimal} (same : d.SameValue e) (unit : Nat) :
    Magnitude.nearest (d.numerator * unit) d.denominator =
      Magnitude.nearest (e.numerator * unit) e.denominator := by
  refine Magnitude.nearest_congr d.denominator_pos e.denominator_pos ?_
  rw [Nat.mul_right_comm, same, Nat.mul_right_comm]

theorem readsAs_iff {d e : Decimal} (same : d.SameValue e) (m : Magnitude) :
    d.readsAs m ↔ e.readsAs m := by
  rw [readsAs_iff_nearest, readsAs_iff_nearest, same.nearest_eq]

end SameValue

/-- Moving a factor of ten from the coefficient to the exponent. -/
theorem sameValue_shift (coefficient : Nat) (exponent : Int) :
    SameValue ⟨coefficient, exponent + 1⟩ ⟨coefficient * 10, exponent⟩ := by
  simp only [SameValue, numerator, denominator]
  rcases Int.lt_or_le exponent 0 with below | above
  · have up : (exponent + 1).toNat = 0 := by omega
    have down : (-exponent).toNat = (-(exponent + 1)).toNat + 1 := by omega
    have flat : exponent.toNat = 0 := by omega
    rw [up, down, flat, Nat.pow_succ]
    ac_rfl
  · have up : (exponent + 1).toNat = exponent.toNat + 1 := by omega
    have down : (-(exponent + 1)).toNat = 0 := by omega
    have flat : (-exponent).toNat = 0 := by omega
    rw [up, down, flat, Nat.pow_succ]
    ac_rfl

/-- Dropping trailing zeros keeps the number. -/
theorem trim_sameValue (d : Decimal) : d.trim.SameValue d := by
  induction d using trim.induct with
  | case1 d trailing ih =>
    have whole : d.coefficient / 10 * 10 = d.coefficient := by omega
    rw [trim, if_pos trailing]
    refine ih.trans ?_
    have shifted := sameValue_shift (d.coefficient / 10) d.exponent
    rwa [whole] at shifted
  | case2 d settled =>
    rw [trim, if_neg settled]
    exact .refl d

end Decimal

end Calculator
