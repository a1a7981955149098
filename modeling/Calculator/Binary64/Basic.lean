/-
# Calculator.Binary64.Basic -- double-precision numbers

A finite double is a sign and a `Magnitude`, which is a whole number of units of
`2 ^ -1074`, the least positive double.  So comparisons and sums are integer
arithmetic.  The significand has its top bit set unless the scale is zero, and a
magnitude has one representation.  The two zeros are told apart and the NaNs are not.
-/
import Calculator.Rounding

namespace Calculator

set_option autoImplicit false

/-- The absolute value of a finite double: `significand * 2 ^ scale` units. -/
structure Magnitude where
  significand : Nat
  scale : Nat
  canonical : significand < 2 ^ 53 ∧ (2 ^ 52 ≤ significand ∨ scale = 0) ∧ scale ≤ 2045
  deriving DecidableEq

namespace Magnitude

/-- The least positive double is `2 ^ -unitExponent`, and it is the unit. -/
def unitExponent : Nat := 1074

def unitsPerOne : Nat := 2 ^ unitExponent

def units (m : Magnitude) : Nat := m.significand * 2 ^ m.scale

def zero : Magnitude := ⟨0, 0, by decide⟩

def isZero (m : Magnitude) : Bool := m.significand == 0

/-- A significand without the top bit is written with scale zero, any other one
with a hidden top bit and one more than its scale; both come to this sum. -/
def toBits (m : Magnitude) : Nat := m.scale * 2 ^ 52 + m.significand

end Magnitude

inductive Binary64 where
  | nan
  | infinity (negative : Bool)
  | finite (negative : Bool) (magnitude : Magnitude)
  deriving DecidableEq

namespace Binary64

def zero : Binary64 := .finite false .zero

def isFinite : Binary64 → Bool
  | .finite _ _ => true
  | _ => false

def isZero : Binary64 → Bool
  | .finite _ m => m.isZero
  | _ => false

def neg : Binary64 → Binary64
  | .nan => .nan
  | .infinity negative => .infinity (!negative)
  | .finite negative m => .finite (!negative) m

def abs : Binary64 → Binary64
  | .nan => .nan
  | .infinity _ => .infinity false
  | .finite _ m => .finite false m

/-- A finite double as a signed number of units; both zeros are `0`. -/
def signedUnits (negative : Bool) (m : Magnitude) : Int :=
  if negative then -(m.units : Int) else m.units

/-- Whether the first double is less than the second; never so with a NaN. -/
def lt : Binary64 → Binary64 → Bool
  | .nan, _ => false
  | _, .nan => false
  | .infinity a, .infinity b => a && !b
  | .infinity a, .finite _ _ => a
  | .finite _ _, .infinity b => !b
  | .finite a m, .finite b n => signedUnits a m < signedUnits b n

/-! ## The interchange format -/

def signBit (negative : Bool) : Nat := if negative then 2 ^ 63 else 0

def toBits : Binary64 → Nat
  | .nan => 0x7ff8000000000000
  | .infinity negative => signBit negative + 0x7ff0000000000000
  | .finite negative m => signBit negative + m.toBits

/-- The double with the given bits.  The exponent field selects between a
significand without its top bit, one with it, and the special values. -/
def ofBits (bits : Nat) : Binary64 :=
  let negative := decide (bits / 2 ^ 63 % 2 = 1)
  let field := bits / 2 ^ 52 % 2 ^ 11
  let fraction := bits % 2 ^ 52
  if low : field = 0 then
    .finite negative ⟨fraction, 0, by omega⟩
  else if high : field = 2047 then
    if fraction = 0 then .infinity negative else .nan
  else
    .finite negative ⟨2 ^ 52 + fraction, field - 1, by omega⟩

end Binary64

theorem Binary64.ofBits_toBits (x : Binary64) : Binary64.ofBits x.toBits = x := by
  match x with
  | .nan => decide
  | .infinity false => decide
  | .infinity true => decide
  | .finite negative m =>
    obtain ⟨s, p, below, shape, fits⟩ := m
    have bits : (Binary64.finite negative ⟨s, p, below, shape, fits⟩).toBits =
        signBit negative + (p * 2 ^ 52 + s) := rfl
    have sign : decide ((signBit negative + (p * 2 ^ 52 + s)) / 2 ^ 63 % 2 = 1) = negative := by
      cases negative <;> simp only [signBit, Bool.false_eq_true, if_true, if_false] <;> simp <;>
        omega
    rw [bits]
    rcases Nat.lt_or_ge s (2 ^ 52) with low | high
    · have flat : p = 0 := by omega
      subst flat
      have field : (signBit negative + (0 * 2 ^ 52 + s)) / 2 ^ 52 % 2 ^ 11 = 0 := by
        cases negative <;> simp only [signBit, Bool.false_eq_true, if_true, if_false] <;> omega
      have fraction : (signBit negative + (0 * 2 ^ 52 + s)) % 2 ^ 52 = s := by
        cases negative <;> simp only [signBit, Bool.false_eq_true, if_true, if_false] <;> omega
      simp only [ofBits, sign, fraction, field, dif_pos]
    · have field : (signBit negative + (p * 2 ^ 52 + s)) / 2 ^ 52 % 2 ^ 11 = p + 1 := by
        cases negative <;> simp only [signBit, Bool.false_eq_true, if_true, if_false] <;> omega
      have fraction : (signBit negative + (p * 2 ^ 52 + s)) % 2 ^ 52 = s - 2 ^ 52 := by
        cases negative <;> simp only [signBit, Bool.false_eq_true, if_true, if_false] <;> omega
      have back : 2 ^ 52 + (s - 2 ^ 52) = s := by omega
      have inside : ¬ p + 1 = 2047 := by omega
      simp only [ofBits, sign, fraction, field, back, inside, Nat.add_one_ne_zero, dif_neg,
        not_false_eq_true, Nat.add_sub_cancel]

end Calculator
