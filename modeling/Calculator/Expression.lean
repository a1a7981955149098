/-
# Calculator.Expression -- tokens, and the value of an expression

An expression is a list of tokens.  A numeral keeps its text; its value is read when
it is needed.  The shape of a list is checked first.  It is then reduced in two
passes.  `reduceProducts` moves a cursor over the operators: at times or divided by,
the operator and its operands give way to one numeral, and the cursor stays, since
the next operator has moved there.  `reduceSums` combines the first two operands
until no operator is left.  Every combination is written back as a numeral, which
the next one reads; a partial result of negative zero is written `0`.
-/
import Calculator.Numeral

namespace Calculator

set_option autoImplicit false

/-! ## Faults -/

/-- Why an expression has no value, or a script no keys. -/
inductive Fault where
  /-- There is no expression, or it ends with an operator. -/
  | incomplete
  /-- Numerals and operators do not alternate; the detail names the place. -/
  | malformed (detail : String)
  /-- The text is no numeral, or its value is not finite. -/
  | badNumeral (text : String)
  /-- A divisor is closer to zero than the tolerance. -/
  | divisionByZero
  /-- A partial result is not finite. -/
  | notFinite
  /-- A script holds a character that is no key. -/
  | unknownKey (key : String)
  deriving DecidableEq, Repr

namespace Fault

def message : Fault → String
  | .incomplete => "Incomplete expression"
  | .malformed detail => "Malformed expression: " ++ detail
  | .badNumeral text => "Invalid number: " ++ text
  | .divisionByZero => "Division by zero"
  | .notFinite => "Result is not a finite number"
  | .unknownKey key => "Unknown key: '" ++ key ++ "'"

def isEvaluationFailure : Fault → Bool
  | .malformed _ => true
  | .badNumeral _ => true
  | .divisionByZero => true
  | .notFinite => true
  | .incomplete => false
  | .unknownKey _ => false

end Fault

/-! ## Computations that can fail -/

section Bind

variable {ε α β : Type} {x : Except ε α} {next : α → Except ε β}

theorem ok_bind (a : α) (next : α → Except ε β) : (Except.ok a >>= next) = next a := rfl

theorem bind_eq_ok_iff {result : β} :
    (x >>= next) = .ok result ↔ ∃ middle, x = .ok middle ∧ next middle = .ok result := by
  cases x with
  | error fault => simp [bind, Except.bind]
  | ok middle => simp [ok_bind]

theorem bind_eq_error_iff {fault : ε} :
    (x >>= next) = .error fault ↔
      x = .error fault ∨ ∃ middle, x = .ok middle ∧ next middle = .error fault := by
  cases x with
  | error met => simp [bind, Except.bind]
  | ok middle => simp [ok_bind]

end Bind

/-! ## Operators and tokens -/

inductive Operator where
  | add
  | subtract
  | multiply
  | divide
  deriving DecidableEq, Repr

namespace Operator

def glyph : Operator → Char
  | .add => '+'
  | .subtract => '-'
  | .multiply => '×'
  | .divide => '÷'

def symbol (op : Operator) : String := String.singleton op.glyph

/-- An operator may be read from more characters than the one that is written. -/
def ofChar? : Char → Option Operator
  | '+' => some .add
  | '-' => some .subtract
  | '−' => some .subtract
  | '×' => some .multiply
  | '*' => some .multiply
  | '÷' => some .divide
  | '/' => some .divide
  | _ => none

def ofSymbol? (text : String) : Option Operator :=
  match text.toList with
  | [c] => ofChar? c
  | _ => none

def isMultiplicative : Operator → Bool
  | .multiply => true
  | .divide => true
  | .add => false
  | .subtract => false

def apply : Operator → Binary64 → Binary64 → Binary64
  | .add => .add
  | .subtract => .sub
  | .multiply => .mul
  | .divide => .div

theorem ofChar?_glyph (op : Operator) : ofChar? op.glyph = some op := by
  cases op <;> rfl

theorem ofSymbol?_symbol (op : Operator) : ofSymbol? op.symbol = some op := by
  simp [ofSymbol?, symbol, ofChar?_glyph]

end Operator

inductive Token where
  | numeral (text : String)
  | operator (op : Operator)
  deriving DecidableEq, Repr

/-- The value of a numeral's text; without one the whole text is at fault. -/
def Numeral.value (text : String) : Except Fault Binary64 :=
  match Numeral.value? text with
  | some value => .ok value
  | none => .error (.badNumeral text)

namespace Token

def isNumeral : Token → Bool
  | .numeral _ => true
  | .operator _ => false

def isOperator : Token → Bool
  | .numeral _ => false
  | .operator _ => true

def operator? : Token → Option Operator
  | .numeral _ => none
  | .operator op => some op

def text : Token → String
  | .numeral text => text
  | .operator op => op.symbol

/-- The value of a numeral; an operator has none, and its symbol is at fault. -/
def value : Token → Except Fault Binary64
  | .numeral text => Numeral.value text
  | .operator op => .error (.badNumeral op.symbol)

def render (tokens : List Token) : String := " ".intercalate (tokens.map text)

end Token

/-! ## Tolerances -/

theorem Binary64.abs_abs (x : Binary64) : x.abs.abs = x.abs := by
  cases x <;> rfl

/-- How close to zero a divisor may be: a double without a sign. -/
structure Tolerance where
  bound : Binary64
  unsigned : bound.abs = bound
  deriving DecidableEq

namespace Tolerance

def of (x : Binary64) : Tolerance := ⟨x.abs, x.abs_abs⟩

/-- The double `1.121039e-44`. -/
def defaultBound : Binary64 := Decimal.toBinary64 false ⟨1121039, -50⟩

def default : Tolerance := of defaultBound

/-- Whether a divisor counts as zero.  A tolerance of zero forbids none, not even zero, and
NaN forbids none either. -/
def forbids (t : Tolerance) (divisor : Binary64) : Bool := divisor.abs.lt t.bound

end Tolerance

/-! ## The shape -/

/-- Numerals have even positions and operators odd ones; the first token out of
place is at fault. -/
def checkPlaces (position : Nat) : List Token → Except Fault Unit
  | [] => .ok ()
  | token :: rest =>
      if token.isNumeral = (position % 2 == 0) then checkPlaces (position + 1) rest
      else .error (.malformed
        ("unexpected '" ++ token.text ++ "' at position " ++ toString position))

def checkShape (tokens : List Token) : Except Fault Unit :=
  match tokens.getLast? with
  | none => .error .incomplete
  | some (.operator _) => .error .incomplete
  | some (.numeral _) => checkPlaces 0 tokens

/-! ## Reducing -/

def checkFinite (value : Binary64) : Except Fault Binary64 :=
  if value.isFinite then .ok value else .error .notFinite

def applyOperator (tolerance : Tolerance) (left : Token) (op : Operator) (right : Token) :
    Except Fault Binary64 := do
  let x ← left.value
  let y ← right.value
  if op = .divide ∧ tolerance.forbids y then .error .divisionByZero
  else checkFinite (op.apply x y)

def splice (work : List Token) (position : Nat) (value : Binary64) : List Token :=
  work.take position ++ .numeral (Numeral.ofValue value) :: work.drop (position + 3)

theorem length_splice {work : List Token} {position : Nat} (inside : position + 2 < work.length)
    (value : Binary64) : (splice work position value).length + 2 = work.length := by
  simp only [splice, List.length_append, List.length_take, List.length_cons, List.length_drop]
  omega

/-- Combines the operands around times and divided by, from a cursor on. -/
def reduceProducts (tolerance : Tolerance) (work : List Token) (cursor : Nat) :
    Except Fault (List Token) :=
  if inside : 0 < cursor ∧ cursor + 1 < work.length then
    match work[cursor].operator? with
    | some op =>
      if op.isMultiplicative then do
        let value ← applyOperator tolerance work[cursor - 1] op work[cursor + 1]
        reduceProducts tolerance (splice work (cursor - 1) value) cursor
      else reduceProducts tolerance work (cursor + 2)
    | none => reduceProducts tolerance work (cursor + 2)
  else .ok work
termination_by work.length - cursor
decreasing_by
  · have room : cursor - 1 + 2 < work.length := by omega
    have shorter := length_splice room value
    omega
  · omega
  · omega

/-- Combines the first two operands as long as there are two. -/
def reduceSums (tolerance : Tolerance) (work : List Token) : Except Fault (List Token) :=
  match work with
  | left :: token :: right :: rest =>
    match token.operator? with
    | some op => do
        let value ← applyOperator tolerance left op right
        reduceSums tolerance (splice (left :: token :: right :: rest) 0 value)
    | none => .error (.malformed "expected an operator")
  | _ => .ok work
termination_by work.length
decreasing_by simp [splice]

/-- The value of a list of tokens: of the one token that is left of it. -/
def evaluate (tolerance : Tolerance) (tokens : List Token) : Except Fault Binary64 := do
  checkShape tokens
  let products ← reduceProducts tolerance tokens 1
  match ← reduceSums tolerance products with
  | [only] => do
      let value ← only.value
      checkFinite value
  | _ => .error (.malformed "reduction left extra tokens")

end Calculator
