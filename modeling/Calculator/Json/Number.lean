/-
# Calculator.Json.Number -- numbers in JSON and what they are worth

A double is read in two roundings.  The leading digits of the literal, as many as fit
sixty-four bits, are a whole number that is rounded to a double; that is multiplied or
divided by the power of ten that the rest of the literal amounts to, and rounded
again.  A long literal can so miss the nearest double by a step.  A double is written
with the fewest digits that identify it.
-/
import Calculator.Decimal
import Calculator.Json.Value

namespace Calculator.Json.Number

set_option autoImplicit false

/-! ## Reading -/

def wordLimit : Nat := 2 ^ 64

def natural? (n : Number) : Option Nat :=
  if n.negative || n.fraction.isSome || n.exponent.isSome then none
  else
    let value := Decimal.ofDigits n.whole
    if value < wordLimit then some value else none

/-- Takes digits onto a number while it fits, and returns the digits left over. -/
def absorb (word : Nat) : List Char → Nat × List Char
  | [] => (word, [])
  | d :: rest =>
      let next := 10 * word + (d.toNat - '0'.toNat)
      if next < wordLimit then absorb next rest else (word, d :: rest)

def writtenExponent (n : Number) : Int :=
  match n.exponent with
  | none => 0
  | some (true, digits) => -(Decimal.ofDigits digits : Int)
  | some (false, digits) => Decimal.ofDigits digits

/-- The leading digits as a number of sixty-four bits, and the power of ten that
the literal multiplies it by. -/
def parts (n : Number) : Nat × Int :=
  let (word, dropped) := absorb 0 n.whole
  let fraction := n.fraction.getD []
  let (word, left) := absorb word fraction
  (word, dropped.length - (fraction.length - left.length : Nat) + n.writtenExponent)

/-- The greatest power of ten that is a finite double. -/
def greatestPower : Nat := 308

def powerOfTen (exponent : Nat) : Binary64 := .ofNat (10 ^ exponent)

/-- Divides by a power of ten, by the greatest that is finite while it is needed. -/
def divideByPower (x : Binary64) (exponent : Nat) : Binary64 :=
  if x.isZero then x
  else if exponent ≤ greatestPower then x.div (powerOfTen exponent)
  else divideByPower (x.div (powerOfTen greatestPower)) (exponent - greatestPower)
termination_by exponent
decreasing_by
  simp only [greatestPower] at *
  omega

def multiplyByPower? (x : Binary64) (exponent : Nat) : Option Binary64 :=
  if x.isZero then some x
  else if exponent ≤ greatestPower then
    let product := x.mul (powerOfTen exponent)
    if product.isFinite then some product else none
  else none

def scaled? (word : Nat) (exponent : Int) : Option Binary64 :=
  if 0 ≤ exponent then multiplyByPower? (.ofNat word) exponent.toNat
  else some (divideByPower (.ofNat word) (-exponent).toNat)

def toBinary64? (n : Number) : Option Binary64 :=
  let (word, exponent) := n.parts
  match scaled? word exponent with
  | some x => some (if n.negative then x.neg else x)
  | none => none

/-! ## Writing -/

def ofNatural (n : Nat) : Number := ⟨false, Decimal.digits n, none, none⟩

def isPositionalPlace (place : Int) : Bool := -5 ≤ place && place < 16

/-- A decimal without an exponent: there always is a digit behind the point. -/
def positional (negative : Bool) (d : Decimal) : Number :=
  if 0 ≤ d.exponent then
    ⟨negative, Decimal.digits (d.coefficient * 10 ^ d.exponent.toNat), some ['0'], none⟩
  else
    let places := (-d.exponent).toNat
    ⟨negative, Decimal.digits (d.coefficient / 10 ^ places),
      some (Decimal.padded places (d.coefficient % 10 ^ places)), none⟩

/-- A decimal with an exponent: one digit, and the others behind a point. -/
def scientific (negative : Bool) (d : Decimal) : Number :=
  let place := d.leadingPlace
  let exponent := some (decide (place < 0), Decimal.digits place.natAbs)
  match Decimal.digits d.coefficient with
  | first :: second :: rest => ⟨negative, [first], some (second :: rest), exponent⟩
  | short => ⟨negative, short, none, exponent⟩

def ofFinite (negative : Bool) (m : Magnitude) : Number :=
  if m.isZero then ⟨negative, ['0'], some ['0'], none⟩
  else
    let decimal := m.shortest .toEven
    if isPositionalPlace decimal.leadingPlace then positional negative decimal
    else scientific negative decimal

end Number

/-- A double as a value; one that is not finite is null. -/
def Value.ofBinary64 : Binary64 → Value
  | .finite negative m => .number (Number.ofFinite negative m)
  | _ => .null

end Calculator.Json
