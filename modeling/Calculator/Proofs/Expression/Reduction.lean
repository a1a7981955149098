/-
# Calculator.Proofs.Expression.Reduction -- the two passes are folds over a tree

An evaluation works on one list: it replaces an operator and its operands by the
numeral of their value, and reads that numeral again at the next operator.  The value
of a tree (`SumTree.value`) needs neither the list nor the texts.  Two facts bring
them together:

* a partial result reads back from its text as it was (`Operand.value_text`), so a
  combination of texts is the combination of the operands (`applyOperator_bind`);
* behind a part that has been reduced, the cursor stands in front of the first
  operator that has not been (`reduceProducts_factors`, `reduceProducts_summands`).

Main statement:

* `evaluates_iff`: evaluating a list of tokens comes to what `Evaluates` says.
-/
import Calculator.Proofs.Expression.Tree

namespace Calculator

set_option autoImplicit false

/-! ## Operands and their texts

An operand stands in the list as its text, and a text reads as the operand it stands
for (`Operand.value_text`).  So a combination of texts is the combination of their
operands, and each pass is its fold. -/

/-- The numeral that stands for an operand. -/
def Operand.text : Operand String → String
  | .unread text => text
  | .computed result => Numeral.ofValue result.value

theorem Operand.value_text (operand : Operand String) :
    Numeral.value operand.text = operand.value Numeral.value := by
  cases operand with
  | unread text => rfl
  | computed result =>
      rw [Operand.text, Operand.value, Numeral.value, Numeral.value?_ofValue result.finite,
        result.unsigned]

section Passes

variable (tolerance : Tolerance)

theorem PartialResult.text_of (x : Binary64) :
    Operand.text <$> (Operand.computed <$> PartialResult.of x) =
      Numeral.ofValue <$> checkFinite x := by
  unfold PartialResult.of checkFinite
  by_cases finite : x.isFinite
  · rw [dif_pos finite, if_pos finite]
    exact congrArg Except.ok (Numeral.ofValue_unsignZero x)
  · rw [dif_neg finite, if_neg finite]
    rfl

theorem applyOperator_text (left right : Operand String) (op : Operator) :
    Numeral.ofValue <$> applyOperator tolerance (.numeral left.text) op (.numeral right.text) =
      Operand.text <$> combine Numeral.value tolerance left op right := by
  unfold applyOperator combine
  rw [Token.value, Token.value, left.value_text, right.value_text]
  cases left.value Numeral.value with
  | error fault => rfl
  | ok x =>
    cases right.value Numeral.value with
    | error fault => rfl
    | ok y =>
      by_cases forbidden : op = .divide ∧ tolerance.forbids y
      · have small : op = .divide ∧ y.abs.lt tolerance.bound := forbidden
        simp only [ok_bind, if_pos forbidden, if_pos small]
        rfl
      · have large : ¬ (op = .divide ∧ y.abs.lt tolerance.bound) := forbidden
        simp only [ok_bind, if_neg forbidden, if_neg large]
        exact (PartialResult.text_of (op.apply x y)).symm

/-- The text of a combination goes on to what comes next. -/
theorem applyOperator_bind {β : Type} (left right : Operand String) (op : Operator)
    (next : String → Except Fault β) :
    (do let value ← applyOperator tolerance (.numeral left.text) op (.numeral right.text)
        next (Numeral.ofValue value)) =
      (do let result ← combine Numeral.value tolerance left op right
          next result.text) := by
  rw [← bind_map_left, applyOperator_text, bind_map_left]

theorem splice_append (front rest : List Token) (left op right : Token) (value : Binary64) :
    splice (front ++ left :: op :: right :: rest) front.length value =
      front ++ .numeral (Numeral.ofValue value) :: rest := by
  simp [splice, List.drop_append]

/-- The cursor is at an operator when a left operand is in front of it, and there is a
right one. -/
theorem cursor_inside (front rest : List Token) (left op right : Token) :
    0 < front.length + 1 ∧ front.length + 1 + 1 < (front ++ left :: op :: right :: rest).length := by
  rw [List.length_append, List.length_cons, List.length_cons, List.length_cons]
  omega

/-- At an operator of the upper tier the cursor stays. -/
theorem reduceProducts_upper {op : Operator} (tier : op.isMultiplicative = true)
    (front rest : List Token) (left right : Token) :
    reduceProducts tolerance (front ++ left :: .operator op :: right :: rest) (front.length + 1) =
      (do let value ← applyOperator tolerance left op right
          reduceProducts tolerance (front ++ .numeral (Numeral.ofValue value) :: rest)
            (front.length + 1)) := by
  obtain ⟨behind, inside⟩ := cursor_inside front rest left (.operator op) right
  have third : (front ++ left :: .operator op :: right :: rest)[front.length + 1 + 1] = right := by
    simp [List.getElem_append_right, Nat.add_assoc]
  rw [reduceProducts, dif_pos ⟨behind, inside⟩]
  simp [List.getElem_append_right, Token.operator?, tier, splice_append, third]

/-- At an operator of the lower tier the cursor moves on to the next one. -/
theorem reduceProducts_lower {op : Operator} (tier : op.isMultiplicative = false)
    (front rest : List Token) (left right : Token) :
    reduceProducts tolerance (front ++ left :: .operator op :: right :: rest) (front.length + 1) =
      reduceProducts tolerance ((front ++ [left, .operator op]) ++ right :: rest)
        ((front ++ [left, .operator op]).length + 1) := by
  rw [reduceProducts, dif_pos (cursor_inside front rest left (.operator op) right)]
  simp [List.getElem_append_right, Token.operator?, tier]

/-- Behind the last operand there is no operator. -/
theorem reduceProducts_last (front : List Token) (last : Token) :
    reduceProducts tolerance (front ++ [last]) (front.length + 1) = .ok (front ++ [last]) := by
  rw [reduceProducts, dif_neg (by simp)]

/-- The factors of a term: the pass reduces them to the term's operand. -/
theorem reduceProducts_factors (front tail : List Token) (left : Operand String)
    (factors : List (Factor String)) :
    reduceProducts tolerance
        (front ++ .numeral left.text :: (factors.flatMap Factor.tokens ++ tail)) (front.length + 1) =
      (do let result ← factors.foldlM
            (fun left factor => combine Numeral.value tolerance left factor.op
              (.unread factor.operand)) left
          reduceProducts tolerance (front ++ .numeral result.text :: tail) (front.length + 1)) := by
  induction factors generalizing left with
  | nil => rfl
  | cons factor factors ih =>
      have step := applyOperator_bind tolerance left (.unread factor.operand) factor.op
        fun text => reduceProducts tolerance
          (front ++ .numeral text :: (factors.flatMap Factor.tokens ++ tail)) (front.length + 1)
      rw [List.flatMap_cons, Factor.tokens, List.foldlM_cons, bind_assoc]
      refine (reduceProducts_upper tolerance factor.multiplicative front _ _ _).trans ?_
      refine step.trans (bind_congr fun result => ?_)
      exact ih result

/-- The tokens of operators with operands that have been reduced. -/
def reducedTokens (pairs : List (Operator × Operand String)) : List Token :=
  pairs.flatMap fun pair => [.operator pair.1, .numeral pair.2.text]

/-- The rest of a tree: each term is reduced in turn, behind those that have been. -/
theorem reduceProducts_summands (front : List Token) (left : Operand String)
    (summands : List (Summand String)) :
    reduceProducts tolerance
        (front ++ .numeral left.text :: summands.flatMap Summand.tokens) (front.length + 1) =
      (do let reduced ← summands.mapM (Summand.reduce Numeral.value tolerance)
          pure (front ++ .numeral left.text :: reducedTokens reduced)) := by
  induction summands generalizing front left with
  | nil => exact reduceProducts_last tolerance front _
  | cons summand summands ih =>
      have term := reduceProducts_factors tolerance
        (front ++ [.numeral left.text, .operator summand.op]) (summands.flatMap Summand.tokens)
        (.unread summand.term.first) summand.term.factors
      rw [List.flatMap_cons, Summand.tokens, Term.tokens, List.cons_append, List.cons_append]
      refine (reduceProducts_lower tolerance summand.additive front _ _ _).trans (term.trans ?_)
      simp only [ih]
      simp only [Summand.reduce, Term.reduce, List.mapM_cons, bind_assoc, pure_bind, bind_map_left,
        reducedTokens, List.flatMap_cons, List.append_assoc, List.cons_append, List.nil_append]

/-- The second pass combines the operands from the left. -/
theorem reduceSums_operands (left : Operand String) (pairs : List (Operator × Operand String)) :
    reduceSums tolerance (.numeral left.text :: reducedTokens pairs) =
      (do let total ← pairs.foldlM
            (fun left pair => combine Numeral.value tolerance left pair.1 pair.2) left
          pure [.numeral total.text]) := by
  induction pairs generalizing left with
  | nil =>
      rw [reducedTokens, List.flatMap_nil, reduceSums]
      · rfl
      · simp
  | cons pair pairs ih =>
      have step := applyOperator_bind tolerance left pair.2 pair.1
        fun text => reduceSums tolerance (.numeral text :: reducedTokens pairs)
      rw [reducedTokens, List.flatMap_cons, List.foldlM_cons, bind_assoc]
      simp only [List.cons_append, List.nil_append]
      rw [reduceSums]
      refine step.trans (bind_congr fun result => ?_)
      exact ih result

/-- Both passes over the tokens of a tree, and the folds over the tree. -/
theorem reduce_tokens (tree : SumTree String) :
    (do let products ← reduceProducts tolerance tree.tokens 1
        reduceSums tolerance products) =
      (do let first ← tree.first.reduce Numeral.value tolerance
          let rest ← tree.rest.mapM (Summand.reduce Numeral.value tolerance)
          let total ← rest.foldlM
            (fun left pair => combine Numeral.value tolerance left pair.1 pair.2) first
          pure [.numeral total.text]) := by
  have first := reduceProducts_factors tolerance [] (tree.rest.flatMap Summand.tokens)
    (.unread tree.first.first) tree.first.factors
  have rest (left : Operand String) := reduceProducts_summands tolerance [] left tree.rest
  simp only [List.nil_append, List.length_nil, Nat.zero_add] at first rest
  rw [SumTree.tokens, Term.tokens, List.cons_append]
  rw [Operand.text] at first
  simp only [first, rest, Term.reduce, bind_assoc, pure_bind, reduceSums_operands]

end Passes

theorem Numeral.value_eq_ok {text : String} {x : Binary64} :
    Numeral.value text = .ok x ↔ value? text = some x := by
  rw [Numeral.value]
  cases value? text <;> simp

theorem Operand.isFinite_of_value {operand : Operand String} {x : Binary64}
    (read : operand.value Numeral.value = .ok x) : x.isFinite := by
  cases operand with
  | unread text => exact Numeral.isFinite_of_value? (Numeral.value_eq_ok.mp read)
  | computed result =>
      obtain rfl := Except.ok.inj read
      exact result.finite

/-- What is left in the end has a finite value, if it has one. -/
theorem Operand.checkFinite_value (operand : Operand String) :
    (Token.value (.numeral operand.text) >>= checkFinite) = operand.value Numeral.value := by
  rw [Token.value, operand.value_text]
  cases read : operand.value Numeral.value with
  | error fault => rfl
  | ok x => exact if_pos (isFinite_of_value read)

section Evaluation

variable (tolerance : Tolerance)

theorem evaluate_tokens (tree : SumTree String) :
    evaluate tolerance tree.tokens = tree.value Numeral.value tolerance := by
  obtain ⟨alternates, finished⟩ := tree.expression
  rw [evaluate, checkShape_alternates alternates finished, ok_bind, ← bind_assoc, reduce_tokens]
  simp only [SumTree.value, bind_assoc, pure_bind, Operand.checkFinite_value]

/-! ## Every list of tokens -/

theorem evaluate_of_evaluates {tokens : List Token} {answer : Except Fault Binary64}
    (evaluates : Evaluates tolerance tokens answer) : evaluate tolerance tokens = answer := by
  cases evaluates with
  | incomplete unfinished =>
      rw [evaluate, checkShape_unfinished unfinished]
      rfl
  | malformed finished alternates unfit =>
      rw [evaluate, checkShape_unfit finished alternates unfit]
      rfl
  | value tree => exact evaluate_tokens tolerance tree

/-- Every list of tokens is unfinished, or has a first unfit token, or is a tree. -/
theorem exists_evaluates (tokens : List Token) : ∃ answer, Evaluates tolerance tokens answer := by
  by_cases unfinished : Token.Unfinished tokens
  · exact ⟨_, .incomplete unfinished⟩
  · by_cases alternates : Token.Alternates tokens
    · obtain ⟨tree, rfl⟩ := SumTree.exists_tokens_eq alternates unfinished
      exact ⟨_, .value tree⟩
    · obtain ⟨before, token, after, rfl, fit, unfit⟩ := Token.exists_first_unfit alternates
      exact ⟨_, .malformed unfinished fit unfit⟩

/-- **Evaluating is valuing the tree.**  For every list of tokens, well formed or
not, and every tolerance, the two passes over numerals answer what the folds over
doubles do, and the same fault first. -/
theorem evaluates_iff (tokens : List Token) (answer : Except Fault Binary64) :
    Evaluates tolerance tokens answer ↔ evaluate tolerance tokens = answer := by
  constructor
  · exact evaluate_of_evaluates tolerance
  · rintro rfl
    obtain ⟨answer, evaluates⟩ := exists_evaluates tolerance tokens
    rwa [evaluate_of_evaluates tolerance evaluates]

end Evaluation

end Calculator
