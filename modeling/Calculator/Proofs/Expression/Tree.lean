/-
# Calculator.Proofs.Expression.Tree -- sums of terms, valued on doubles

An expression is a `SumTree`: terms joined by plus and minus, each an operand with
factors joined by times and divided by.  The types of the two kinds of operators
differ, so a term is a whole run of multiplications and divisions.

`SumTree.value` first reduces each term, from the left, then the terms, from the
left.  No text is written on the way: a partial result is a double (`PartialResult`),
finite and never negative zero.  An operand is read only when it is combined, so that
a term of one operand is read after all other terms have been reduced.

`Evaluates` says what every list of tokens comes to, also one that is no expression.

* `SumTree.expression`, `SumTree.exists_tokens_eq`: trees are written as the lists
  that alternate and end with a numeral, and as no other.
-/
import Calculator.Proofs.Expression.Alternation
import Calculator.Proofs.Numeral.Rereading

namespace Calculator

set_option autoImplicit false

/-! ## Trees -/

/-- An operator of the upper tier with its right operand. -/
structure Factor (α : Type) where
  op : Operator
  multiplicative : op.isMultiplicative = true
  operand : α

/-- An operand, multiplied and divided by others. -/
structure Term (α : Type) where
  first : α
  factors : List (Factor α)

/-- An operator of the lower tier with its right term. -/
structure Summand (α : Type) where
  op : Operator
  additive : op.isMultiplicative = false
  term : Term α

/-- A term with others added and subtracted. -/
structure SumTree (α : Type) where
  first : Term α
  rest : List (Summand α)

/-! ## The value of a tree -/

/-- A partial result: a finite double other than negative zero. -/
structure PartialResult where
  value : Binary64
  finite : value.isFinite
  unsigned : value.unsignZero = value

theorem Binary64.isFinite_unsignZero {x : Binary64} (finite : x.isFinite) :
    x.unsignZero.isFinite := by
  unfold unsignZero
  split
  · rfl
  · exact finite

theorem Binary64.unsignZero_unsignZero (x : Binary64) : x.unsignZero.unsignZero = x.unsignZero := by
  by_cases zero : x.isZero
  · rw [unsignZero, unsignZero, if_pos zero]
    rfl
  · rw [unsignZero, unsignZero, if_neg zero, if_neg zero]

/-- A computed value becomes a partial result if it is finite; the sign of a zero
is dropped. -/
def PartialResult.of (x : Binary64) : Except Fault PartialResult :=
  if finite : x.isFinite then
    .ok ⟨x.unsignZero, x.isFinite_unsignZero finite, x.unsignZero_unsignZero⟩
  else .error .notFinite

/-- What an operator stands between: an operand that has not been read, or a
partial result. -/
inductive Operand (α : Type) where
  | unread (operand : α)
  | computed (result : PartialResult)

section Value

variable {α : Type} (read : α → Except Fault Binary64) (tolerance : Tolerance)

def Operand.value : Operand α → Except Fault Binary64
  | .unread operand => read operand
  | .computed result => .ok result.value

/-- One operator: the left operand is read, then the right one; a divisor may be
too small, and the result too large. -/
def combine (left : Operand α) (op : Operator) (right : Operand α) :
    Except Fault (Operand α) := do
  let x ← left.value read
  let y ← right.value read
  if op = .divide ∧ y.abs.lt tolerance.bound then .error .divisionByZero
  else .computed <$> PartialResult.of (op.apply x y)

/-- Reduces a run of factors from the left; an operand alone stays unread. -/
def Term.reduce (term : Term α) : Except Fault (Operand α) :=
  term.factors.foldlM
    (fun left factor => combine read tolerance left factor.op (.unread factor.operand))
    (.unread term.first)

def Summand.reduce (summand : Summand α) : Except Fault (Operator × Operand α) :=
  (summand.op, ·) <$> summand.term.reduce read tolerance

/-- All terms are reduced, from the left, then added up, from the left. -/
def SumTree.value (tree : SumTree α) : Except Fault Binary64 := do
  let first ← tree.first.reduce read tolerance
  let rest ← tree.rest.mapM (Summand.reduce read tolerance)
  let total ← rest.foldlM (fun left pair => combine read tolerance left pair.1 pair.2) first
  total.value read

end Value

/-! ## Trees of numerals, and the tokens they are written as -/

def Factor.tokens (factor : Factor String) : List Token :=
  [.operator factor.op, .numeral factor.operand]

def Term.tokens (term : Term String) : List Token :=
  .numeral term.first :: term.factors.flatMap Factor.tokens

def Summand.tokens (summand : Summand String) : List Token :=
  .operator summand.op :: summand.term.tokens

def SumTree.tokens (tree : SumTree String) : List Token :=
  tree.first.tokens ++ tree.rest.flatMap Summand.tokens

/-- What a list of tokens comes to.  An unfinished list is incomplete, whatever else
is wrong with it; then the first token out of place is named; and a list that is
neither is a tree, and has its value. -/
inductive Evaluates (tolerance : Tolerance) : List Token → Except Fault Binary64 → Prop where
  | incomplete {tokens : List Token} (unfinished : Token.Unfinished tokens) :
      Evaluates tolerance tokens (.error .incomplete)
  | malformed {before after : List Token} {token : Token}
      (finished : ¬ Token.Unfinished (before ++ token :: after))
      (alternates : Token.Alternates before) (unfit : ¬ token.Fits before.length) :
      Evaluates tolerance (before ++ token :: after)
        (.error (.malformed
          ("unexpected '" ++ token.text ++ "' at position " ++ toString before.length)))
  | value (tree : SumTree String) :
      Evaluates tolerance tree.tokens (tree.value Numeral.value tolerance)

/-! ## Trees are the expressions -/

theorem Term.operations (term : Term String) :
    Token.Operations (term.factors.flatMap Factor.tokens) := by
  have each (factor : Factor String) : Token.Operations factor.tokens :=
    .cons factor.op factor.operand .nil
  exact .flatMap each term.factors

theorem Summand.operations (summand : Summand String) : Token.Operations summand.tokens :=
  .cons summand.op summand.term.first summand.term.operations

/-- What is written as a tree alternates, and ends with a numeral. -/
theorem SumTree.expression (tree : SumTree String) :
    Token.Alternates tree.tokens ∧ ¬ Token.Unfinished tree.tokens :=
  Token.expression_iff.mpr ⟨tree.first.first, _, rfl,
    tree.first.operations.append (.flatMap Summand.operations tree.rest)⟩

/-- Every expression is written as a tree: an operator of the upper tier continues the
term behind it, one of the lower tier starts a new one. -/
theorem SumTree.exists_tokens_eq {tokens : List Token} (alternates : Token.Alternates tokens)
    (finished : ¬ Token.Unfinished tokens) : ∃ tree : SumTree String, tree.tokens = tokens := by
  obtain ⟨first, rest, rfl, operations⟩ := Token.expression_iff.mp ⟨alternates, finished⟩
  clear alternates finished
  induction operations generalizing first with
  | nil => exact ⟨⟨⟨first, []⟩, []⟩, rfl⟩
  | cons op operand _ ih =>
      obtain ⟨⟨⟨head, factors⟩, summands⟩, same⟩ := ih operand
      obtain ⟨headed, rest⟩ := List.cons.inj same
      obtain rfl := Token.numeral.inj headed
      subst rest
      cases tier : op.isMultiplicative with
      | true => exact ⟨⟨⟨first, ⟨op, tier, head⟩ :: factors⟩, summands⟩, rfl⟩
      | false => exact ⟨⟨⟨first, []⟩, ⟨op, tier, head, factors⟩ :: summands⟩, rfl⟩

end Calculator
