/-
# Calculator.Calculation -- the expression under construction

A calculation holds the tokens that are settled, the numeral being typed, and
whether the tokens are the result of the last evaluation.  Typing on a result starts a
new expression.  An operator takes the place of one that is already last, and with
nothing in front of it it is ignored.  An evaluation settles the numeral (`commit`),
which is undone if it fails (`reopen`).
-/
import Calculator.Expression

namespace Calculator

set_option autoImplicit false

def emptyDisplay : String := "0"

structure Calculation where
  tokens : List Token
  numeral : String
  isResult : Bool
  deriving DecidableEq, Repr

inductive Phase where
  | empty
  | entering
  | evaluated
  deriving DecidableEq, Repr

namespace Calculation

def empty : Calculation := ⟨[], "", false⟩

def ofValue (value : Binary64) : Calculation := ⟨[.numeral (Numeral.ofValue value)], "", true⟩

/-- The numeral being typed is the last token. -/
def allTokens (c : Calculation) : List Token :=
  if c.numeral.isEmpty then c.tokens else c.tokens ++ [.numeral c.numeral]

def phase (c : Calculation) : Phase :=
  if c.isResult then .evaluated
  else if c.allTokens.isEmpty then .empty
  else .entering

def display (c : Calculation) : String :=
  if c.allTokens.isEmpty then emptyDisplay else Token.render c.allTokens

/-! ## Editing -/

def isNumeralChar (ch : Char) : Bool := ch.isDigit || ch == '.'

/-- A result gives way to a new expression; anything else is kept. -/
def startFresh (c : Calculation) : Calculation := if c.isResult then empty else c

/-- Types a digit or a point; any other character is ignored. -/
def typeChar (c : Calculation) (ch : Char) : Calculation :=
  if isNumeralChar ch then
    let c := c.startFresh
    if ch = '.' ∧ '.' ∈ c.numeral.toList then c
    else { c with numeral := c.numeral.push ch }
  else c

/-- All that typing sees of a calculation is what it starts from. -/
theorem typeChar_congr {c d : Calculation} (fresh : c.startFresh = d.startFresh) {ch : Char}
    (numeral : isNumeralChar ch = true) : c.typeChar ch = d.typeChar ch := by
  rw [typeChar, typeChar, if_pos numeral, if_pos numeral, fresh]

def typeDigit (c : Calculation) (digit : Nat) : Calculation :=
  if digit < 10 then c.typeChar digit.digitChar else c

/-- Settles the numeral being typed, if there is one. -/
def commit (c : Calculation) : Calculation :=
  if c.numeral.isEmpty then c
  else { c with tokens := c.tokens ++ [.numeral c.numeral], numeral := "" }

/-- Takes a settled numeral back: the last token is being typed again. -/
def reopen (c : Calculation) : Calculation :=
  match c.tokens.getLast? with
  | some (.numeral text) => { c with tokens := c.tokens.dropLast, numeral := text }
  | _ => c

def dropOperator (tokens : List Token) : List Token :=
  match tokens.getLast? with
  | some (.operator _) => tokens.dropLast
  | _ => tokens

def operate (c : Calculation) (op : Operator) : Calculation :=
  let c := { c with isResult := false }
  if c.tokens.isEmpty && c.numeral.isEmpty then c
  else
    let c := c.commit
    { c with tokens := dropOperator c.tokens ++ [.operator op] }

def toggleSign (c : Calculation) : Calculation :=
  if c.numeral.isEmpty then
    match c.tokens.getLast? with
    | some (.numeral text) =>
        { c with tokens := c.tokens.dropLast ++ [.numeral (Numeral.toggleSign text)] }
    | _ => c
  else { c with numeral := Numeral.toggleSign c.numeral }

end Calculation

end Calculator
