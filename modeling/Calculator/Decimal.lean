/-
# Calculator.Decimal -- decimals, and the doubles nearest to them

A `Decimal` is what a numeral denotes before rounding, and what a double is turned
into before it is written: rounded to a number of digits (`Decimal.significant`), or
with the fewest digits that read back as the same double (`Magnitude.shortest`).  The
search for these looks at the two neighbours of a magnitude on the grid of one-digit
decimals, then of two digits, and so on; if both read back, the nearer counts.
-/
import Calculator.Binary64.Arithmetic

namespace Calculator

set_option autoImplicit false

/-- The number `coefficient * 10 ^ exponent`. -/
structure Decimal where
  coefficient : Nat
  exponent : Int
  deriving DecidableEq

namespace Decimal

/-! ## Digits -/

def digits (n : Nat) : List Char := Nat.toDigits 10 n

/-- The number that a list of digits denotes; leading zeros do not count. -/
def ofDigits (cs : List Char) : Nat := Nat.ofDigitChars 10 cs 0

def padded (width n : Nat) : List Char :=
  List.replicate (width - (digits n).length) '0' ++ digits n

theorem ofDigits_digits (n : Nat) : ofDigits (digits n) = n :=
  Nat.ofDigitChars_toDigits (by decide) (by decide)

def numerator (d : Decimal) : Nat := d.coefficient * 10 ^ d.exponent.toNat

def denominator (d : Decimal) : Nat := 10 ^ (-d.exponent).toNat

/-- The place of the first digit of `num / den`: the exponent `e` with
`10 ^ e ≤ num / den < 10 ^ (e + 1)`. -/
def placeOf (num den : Nat) : Int :=
  if den ≤ num then (digits (num / den)).length - 1
  else -((digits ((den - 1) / num)).length : Int)

def leadingPlace (d : Decimal) : Int := d.exponent + (digits d.coefficient).length - 1

/-- The same number with no trailing zero in its coefficient. -/
def trim (d : Decimal) : Decimal :=
  if 0 < d.coefficient ∧ d.coefficient % 10 = 0 then
    trim ⟨d.coefficient / 10, d.exponent + 1⟩
  else d
termination_by d.coefficient
decreasing_by omega

/-! ## Texts -/

/-- All places, with a point only when there are places behind it. -/
def positional (d : Decimal) : List Char :=
  if 0 ≤ d.exponent then digits (d.coefficient * 10 ^ d.exponent.toNat)
  else
    let places := (-d.exponent).toNat
    digits (d.coefficient / 10 ^ places) ++ '.' :: padded places (d.coefficient % 10 ^ places)

def mantissa (d : Decimal) : List Char :=
  match digits d.coefficient with
  | first :: second :: rest => first :: '.' :: second :: rest
  | short => short

/-! ## Between decimals and doubles -/

def toBinary64 (negative : Bool) (d : Decimal) : Binary64 :=
  .nearest negative (d.numerator * Magnitude.unitsPerOne) d.denominator

/-- The quotient `num / den` rounded to `count` significant digits, a half going to
the even digit.  Rounding up may carry into a new place. -/
def significant (count num den : Nat) : Decimal :=
  let exponent := placeOf num den - (count - 1 : Nat)
  let coefficient := roundHalfEven (num * 10 ^ (-exponent).toNat) (den * 10 ^ exponent.toNat)
  if coefficient = 10 ^ count then ⟨10 ^ (count - 1), exponent + 1⟩
  else ⟨coefficient, exponent⟩

def readsAs (d : Decimal) (m : Magnitude) : Bool :=
  Magnitude.nearest (d.numerator * Magnitude.unitsPerOne) d.denominator = some m

end Decimal

/-! ## The fewest digits -/

inductive Tie where
  | upward
  | toEven
  deriving DecidableEq

namespace Magnitude

def leadingPlace (m : Magnitude) : Int := Decimal.placeOf m.units unitsPerOne

/-- All decimal digits: a unit is `5 ^ 1074 / 10 ^ 1074`. -/
def exactDecimal (m : Magnitude) : Decimal := ⟨m.units * 5 ^ unitExponent, -unitExponent⟩

/-- The neighbour on the grid of multiples of `10 ^ exponent` that reads back. -/
def onGrid? (tie : Tie) (m : Magnitude) (exponent : Int) : Option Decimal :=
  let num := m.units * 10 ^ (-exponent).toNat
  let den := unitsPerOne * 10 ^ exponent.toNat
  let below : Decimal := ⟨num / den, exponent⟩
  let above : Decimal := ⟨num / den + 1, exponent⟩
  let preferAbove :=
    match compare (2 * (num % den)) den with
    | .lt => false
    | .gt => true
    | .eq =>
      match tie with
      | .upward => true
      | .toEven => num / den % 2 = 1
  if below.readsAs m && !(above.readsAs m && preferAbove) then some below
  else if above.readsAs m then some above
  else none

/-- The first hit on the grids from `10 ^ exponent` down, `count` of them. -/
def searchGrids (tie : Tie) (m : Magnitude) (count : Nat) (exponent : Int) : Option Decimal :=
  (List.range count).findSome? fun (finer : Nat) => m.onGrid? tie (exponent - finer)

/-- The decimal with the fewest digits that reads back as this magnitude. -/
def shortest (tie : Tie) (m : Magnitude) : Decimal :=
  ((m.searchGrids tie 17 m.leadingPlace).getD m.exactDecimal).trim

end Magnitude

end Calculator
