/-
# Calculator.Proofs.Expression.Answer -- what an evaluation can answer

A value that is answered is finite, because it is a numeral's or a partial result.
A fault that is answered has to do with the shape of the list or with numbers; for a
list of the right shape it is one of the three `Fault.Numerical` ones.
-/
import Calculator.Proofs.Expression.Reduction

namespace Calculator

set_option autoImplicit false

/-! ## Values -/

theorem isFinite_of_evaluate {tolerance : Tolerance} {tokens : List Token} {x : Binary64}
    (evaluated : evaluate tolerance tokens = .ok x) : x.isFinite := by
  obtain ⟨answer, evaluates⟩ := exists_evaluates tolerance tokens
  obtain rfl := (evaluate_of_evaluates tolerance evaluates).symm.trans evaluated
  generalize same : Except.ok x = answer at evaluates
  cases evaluates with
  | incomplete unfinished => cases same
  | malformed finished alternates unfit => cases same
  | value tree =>
      obtain ⟨first, -, rest⟩ := bind_eq_ok_iff.mp same.symm
      obtain ⟨reduced, -, rest⟩ := bind_eq_ok_iff.mp rest
      obtain ⟨total, -, read⟩ := bind_eq_ok_iff.mp rest
      exact Operand.isFinite_of_value read

/-! ## Faults -/

/-- A numeral without a value, a divisor too close to zero, or a result too large. -/
def Fault.Numerical (fault : Fault) : Prop :=
  (∃ text, fault = .badNumeral text) ∨ fault = .divisionByZero ∨ fault = .notFinite

/-- Every fault that the computation can answer is numerical. -/
def FaultsNumerical {α : Type} (x : Except Fault α) : Prop :=
  ∀ fault, x = .error fault → fault.Numerical

namespace FaultsNumerical

variable {α β : Type}

theorem ok (x : α) : FaultsNumerical (.ok x) := fun _ found => by cases found

theorem error {fault : Fault} (numerical : fault.Numerical) :
    FaultsNumerical (.error fault : Except Fault α) := by
  intro found same
  cases same
  exact numerical

theorem bind {x : Except Fault α} {next : α → Except Fault β} (first : FaultsNumerical x)
    (rest : ∀ middle, FaultsNumerical (next middle)) : FaultsNumerical (x >>= next) := by
  cases x with
  | error fault => exact error (first fault rfl)
  | ok middle => exact rest middle

theorem map {x : Except Fault α} (f : α → β) (first : FaultsNumerical x) :
    FaultsNumerical (f <$> x) := by
  cases x with
  | error fault => exact error (first fault rfl)
  | ok middle => exact ok (f middle)

theorem foldlM {step : β → α → Except Fault β} (each : ∀ y x, FaultsNumerical (step y x))
    (list : List α) (start : β) : FaultsNumerical (list.foldlM step start) := by
  induction list generalizing start with
  | nil => exact ok start
  | cons x list ih =>
      rw [List.foldlM_cons]
      exact bind (each start x) ih

theorem mapM {step : α → Except Fault β} (each : ∀ x, FaultsNumerical (step x))
    (list : List α) : FaultsNumerical (list.mapM step) := by
  induction list with
  | nil => exact ok []
  | cons x list ih =>
      rw [List.mapM_cons]
      exact bind (each x) fun y => bind ih fun ys => ok (y :: ys)

end FaultsNumerical

section Value

variable {α : Type} {read : α → Except Fault Binary64} (tolerance : Tolerance)
  (reads : ∀ operand, FaultsNumerical (read operand))
include reads

theorem faultsNumerical_operand (operand : Operand α) : FaultsNumerical (operand.value read) := by
  cases operand with
  | unread operand => exact reads operand
  | computed result => exact .ok result.value

theorem faultsNumerical_combine (left right : Operand α) (op : Operator) :
    FaultsNumerical (combine read tolerance left op right) := by
  refine .bind (faultsNumerical_operand reads left) fun x =>
    .bind (faultsNumerical_operand reads right) fun y => ?_
  split
  · exact .error (.inr (.inl rfl))
  · refine .map _ ?_
    unfold PartialResult.of
    split
    · exact .ok _
    · exact .error (.inr (.inr rfl))

theorem faultsNumerical_value (tree : SumTree α) : FaultsNumerical (tree.value read tolerance) := by
  have reduces (term : Term α) : FaultsNumerical (term.reduce read tolerance) := by
    unfold Term.reduce
    refine .foldlM (fun left factor => ?_) _ _
    exact faultsNumerical_combine tolerance reads left _ factor.op
  refine .bind (reduces tree.first) fun first => ?_
  refine .bind (.mapM (fun summand => .map _ (reduces summand.term)) tree.rest) fun rest => ?_
  refine .bind (.foldlM (fun left pair => ?_) rest first) fun total => ?_
  · exact faultsNumerical_combine tolerance reads left pair.2 pair.1
  · exact faultsNumerical_operand reads total

end Value

theorem Numeral.faultsNumerical_value (text : String) : FaultsNumerical (Numeral.value text) := by
  rw [Numeral.value]
  cases Numeral.value? text with
  | none => exact .error (.inl ⟨text, rfl⟩)
  | some x => exact .ok x

/-- A list that alternates and ends with a numeral has a value or a numerical fault. -/
theorem faultsNumerical_evaluate (tolerance : Tolerance) {tokens : List Token}
    (alternates : Token.Alternates tokens) (finished : ¬ Token.Unfinished tokens) :
    FaultsNumerical (evaluate tolerance tokens) := by
  obtain ⟨tree, rfl⟩ := SumTree.exists_tokens_eq alternates finished
  rw [evaluate_tokens]
  exact Calculator.faultsNumerical_value tolerance Numeral.faultsNumerical_value tree

theorem finished_of_evaluate {tolerance : Tolerance} {tokens : List Token} {x : Binary64}
    (evaluated : evaluate tolerance tokens = .ok x) : ¬ Token.Unfinished tokens := by
  intro unfinished
  rw [evaluate_of_evaluates tolerance (.incomplete unfinished)] at evaluated
  cases evaluated

/-- Only an unfinished list is called incomplete. -/
theorem unfinished_of_evaluate {tolerance : Tolerance} {tokens : List Token}
    (evaluated : evaluate tolerance tokens = .error .incomplete) : Token.Unfinished tokens := by
  by_contra finished
  obtain ⟨answer, evaluates⟩ := exists_evaluates tolerance tokens
  obtain rfl := (evaluate_of_evaluates tolerance evaluates).symm.trans evaluated
  generalize same : Except.error Fault.incomplete = answer at evaluates
  cases evaluates with
  | incomplete unfinished => exact finished unfinished
  | malformed finished alternates unfit => cases same
  | value tree =>
      have numerical := faultsNumerical_evaluate tolerance tree.expression.1 finished _ evaluated
      rcases numerical with ⟨text, other⟩ | other | other <;> cases other

end Calculator
