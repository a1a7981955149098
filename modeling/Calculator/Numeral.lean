/-
# Calculator.Numeral -- numbers as texts

A numeral is an optional sign, then digits with at most one point among, before or
after them.  Its value is the nearest double, if that is finite.  A value has two
texts: `ofValue` is the numeral that goes back into an expression, and `shown` is the
text of a result, positional from `10 ^ -4` to below `10 ^ 15` and with an exponent
elsewhere.  Settings on a command line are written in a wider notation.
-/
import Calculator.Decimal

namespace Calculator.Numeral

set_option autoImplicit false

def splitSign : List Char → Bool × List Char
  | '-' :: body => (true, body)
  | '+' :: body => (false, body)
  | body => (false, body)

/-- Digits with at most one point, and at least one digit. -/
def unsigned? (body : List Char) : Option Decimal :=
  let whole := body.takeWhile Char.isDigit
  match body.dropWhile Char.isDigit with
  | [] => if whole.isEmpty then none else some ⟨Decimal.ofDigits whole, 0⟩
  | '.' :: fraction =>
      if fraction.all Char.isDigit && !(whole.isEmpty && fraction.isEmpty) then
        some ⟨Decimal.ofDigits (whole ++ fraction), -(fraction.length : Int)⟩
      else none
  | _ => none

def value? (text : String) : Option Binary64 :=
  let (negative, body) := splitSign text.toList
  match unsigned? body with
  | none => none
  | some decimal =>
      let value := decimal.toBinary64 negative
      if value.isFinite then some value else none

/-- The sign key drops a leading minus or puts one in front, whatever the rest of the text. -/
def toggleSign (text : String) : String :=
  match text.toList with
  | '-' :: body => String.ofList body
  | _ => "-" ++ text

/-! ## Writing -/

def significantDigits : Nat := 15

def isPositionalPlace (place : Int) : Bool := -4 ≤ place && place < significantDigits

def signed (negative : Bool) (body : List Char) : String :=
  String.ofList (if negative then '-' :: body else body)

/-- An exponent as it follows a mantissa: always signed, at least two digits. -/
def exponentMark (place : Int) : List Char :=
  'E' :: (if place < 0 then '-' else '+') :: Decimal.padded 2 place.natAbs

def shownMagnitude (m : Magnitude) : List Char :=
  let decimal := (Decimal.significant significantDigits m.units Magnitude.unitsPerOne).trim
  if isPositionalPlace decimal.leadingPlace then decimal.positional
  else decimal.mantissa ++ exponentMark decimal.leadingPlace

def infinityName (negative : Bool) : String := signed negative "inf".toList

def shown : Binary64 → String
  | .nan => "NaN"
  | .infinity negative => infinityName negative
  | .finite negative m => if m.isZero then "0" else signed negative (shownMagnitude m)

/-- The numeral that reads back as the same value, in positional notation however long. -/
def ofValue : Binary64 → String
  | .nan => "NaN"
  | .infinity negative => infinityName negative
  | .finite negative m =>
      if m.isZero then "0" else signed negative (m.shortest .upward).positional

/-! ## Numbers of a command line -/

/-- An exponent that has passed `65535` takes no further digits; only a number with tens of
thousands of digits could tell. -/
def cappedExponent (digits : List Char) : Nat :=
  digits.foldl (fun e d => if e < 0x10000 then 10 * e + (d.toNat - '0'.toNat) else e) 0

def exponentDigits? (digits : List Char) : Option Nat :=
  if !digits.isEmpty && digits.all Char.isDigit then some (cappedExponent digits) else none

def exponent? : List Char → Option Int
  | '-' :: digits => (exponentDigits? digits).map fun e => -(e : Int)
  | '+' :: digits => (exponentDigits? digits).map fun e => (e : Int)
  | digits => (exponentDigits? digits).map fun e => (e : Int)

def isExponentMark (c : Char) : Bool := c == 'e' || c == 'E'

def scientific? (body : List Char) : Option Decimal :=
  match unsigned? (body.takeWhile fun c => !isExponentMark c) with
  | none => none
  | some decimal =>
    match body.dropWhile fun c => !isExponentMark c with
    | [] => some decimal
    | _ :: rest => (exponent? rest).map fun e => ⟨decimal.coefficient, decimal.exponent + e⟩

/-- The double nearest to a number in this notation; infinities and NaN have names. -/
def scientificValue? (text : String) : Option Binary64 :=
  let (negative, body) := splitSign text.toList
  let name := String.ofList (body.map Char.toLower)
  if name = "nan" then some .nan
  else if name = "inf" ∨ name = "infinity" then some (.infinity negative)
  else (scientific? body).map (Decimal.toBinary64 negative)

/-- Digits with an optional plus, up to sixty-four bits. -/
def natural? (text : String) : Option Nat :=
  let digits :=
    match text.toList with
    | '+' :: rest => rest
    | all => all
  if !digits.isEmpty && digits.all Char.isDigit then
    let value := Decimal.ofDigits digits
    if value < 2 ^ 64 then some value else none
  else none

end Calculator.Numeral
