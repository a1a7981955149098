/-
# Calculator.Proofs.Session.Continuation -- a result as the first operand

An evaluation that succeeds leaves one token: a numeral that reads as the value, zeros
without sign.  It has as many digits as that takes, which may be more than the result
display shows.  The sign key edits the text of this token, and thereby negates the double
that it reads as (`IsResultOf.toggleSign`).

Operators and operands typed behind it go behind this one token (`TypesChain.leads`).  So
the next evaluation calculates with the double, whatever the earlier expression was:
neither its operators nor the digits on display take part.

* `exists_typesChain`: every chain of shaped numerals can be typed;
* `after_toggles`: what sign keys leave of a result;
* `evaluate_typedChain`: what is typed behind a result, evaluated;
* `evaluate_continued`: from one successful evaluation to the next.
-/
import Mathlib.Logic.Function.Iterate
import Calculator.Proofs.Expression.Chain
import Calculator.Proofs.Session.Typing

namespace Calculator

set_option autoImplicit false

/-! ## Typing behind a calculation -/

/-- For each operator any of its characters, and behind it the numeral. -/
inductive TypesChain : List Char → List (Operator × String) → Prop where
  | nil : TypesChain [] []
  | cons {c : Char} {op : Operator} {script more : List Char} {text : String}
      {links : List (Operator × String)} (spelled : c ∈ Key.spellings (.operator op))
      (typed : TypesNumeral script text) (behind : TypesChain more links) :
      TypesChain (c :: (script ++ more)) ((op, text) :: links)

/-- Scripts exist for all chains of shaped numerals. -/
theorem exists_typesChain {links : List (Operator × String)}
    (shaped : ∀ link ∈ links, Numeral.Shaped link.2) : ∃ script, TypesChain script links := by
  induction links with
  | nil => exact ⟨[], .nil⟩
  | cons link links ih =>
      obtain ⟨op, text⟩ := link
      have spelled : op.glyph ∈ Key.spellings (.operator op) := op.glyph_mem_spellings
      obtain ⟨script, typed⟩ := exists_typesNumeral (shaped (op, text) List.mem_cons_self)
      obtain ⟨more, behind⟩ := ih fun link member => shaped link (List.mem_cons_of_mem _ member)
      exact ⟨_, .cons spelled typed behind⟩

/-- A chain goes behind what is there, if that ends with a numeral. -/
theorem TypesChain.leads {tolerance : Tolerance} {script : List Char}
    {links : List (Operator × String)} (typed : TypesChain script links) {c : Calculation}
    (finished : ¬ Token.Unfinished c.allTokens) :
    ∃ d, Leads tolerance script c d ∧ d.allTokens = c.allTokens ++ linkTokens links := by
  induction typed generalizing c with
  | nil => exact ⟨c, .nil c, (List.append_nil _).symm⟩
  | @cons ch op script more text links spelled typed _ ih =>
      have all : Calculation.allTokens ⟨c.allTokens ++ [.operator op], text, false⟩ =
          c.allTokens ++ [.operator op, .numeral text] := by
        rw [Calculation.allTokens_of_nonempty typed.ne_empty, List.append_assoc]
        rfl
      have still : ¬ Token.Unfinished (c.allTokens ++ [.operator op, .numeral text]) :=
        Token.not_unfinished_iff.mpr ⟨text, by simp⟩
      rw [← all] at still
      obtain ⟨d, behind, left⟩ := ih still
      refine ⟨d, .cons spelled ?_, ?_⟩
      · rw [Calculation.next, Calculation.operate_of_finished finished]
        exact (typed.leads _).append behind
      · rw [left, all, List.append_assoc]
        rfl

/-! ## The result as a token -/

/-- The calculation is one settled numeral of the double. -/
def Calculation.IsResultOf (c : Calculation) (x : Binary64) : Prop :=
  ∃ text, c = ⟨[.numeral text], "", true⟩ ∧ Numeral.Shaped text ∧ Numeral.value? text = some x

theorem Calculation.isResultOf_ofValue {value : Binary64} (finite : value.isFinite) :
    (ofValue value).IsResultOf value.unsignZero :=
  ⟨Numeral.ofValue value, rfl, Numeral.shaped_ofValue finite, Numeral.value?_ofValue finite⟩

namespace Calculation.IsResultOf

variable {c : Calculation} {x : Binary64} (result : c.IsResultOf x)
include result

theorem isFinite : x.isFinite := by
  obtain ⟨text, -, -, read⟩ := result
  exact Numeral.isFinite_of_value? read

/-- The sign key negates a result. -/
theorem toggleSign : c.toggleSign.IsResultOf x.neg := by
  obtain ⟨text, rfl, shaped, read⟩ := result
  refine ⟨Numeral.toggleSign text, rfl, shaped.toggleSign, ?_⟩
  rw [shaped.value?_toggleSign, read]
  rfl

end Calculation.IsResultOf

namespace Session

/-- An evaluation that succeeds leaves its value as a result. -/
theorem press_evaluate_isResultOf {s : Session} {value : Binary64} {entry : Entry}
    (succeeded : s.machine.evaluate.2 = .success value entry) :
    (s.press .evaluate).1.machine.calculation.IsResultOf value.unsignZero := by
  have evaluated := (s.machine.evaluate_success_iff value).mp ⟨entry, succeeded⟩
  have answered := Calculation.answer_eq_ok_iff.mpr evaluated
  rw [press_calculation, Calculation.next, answered]
  exact Calculation.isResultOf_ofValue (isFinite_of_evaluate evaluated)

/-- Each sign key negates the result. -/
theorem after_toggles {s : Session} {x : Binary64} (result : s.machine.calculation.IsResultOf x)
    (toggles : Nat) :
    (s.after (List.replicate toggles (.press .toggleSign))).machine.calculation.IsResultOf
      (Binary64.neg^[toggles] x) := by
  induction toggles generalizing s x with
  | zero => exact result
  | succ toggles ih =>
      rw [List.replicate_succ, Function.iterate_succ_apply]
      have next : (s.press .toggleSign).1.machine.calculation.IsResultOf x.neg := by
        rw [press_calculation]
        exact result.toggleSign
      exact ih next

/-- Operators and operands typed behind a result, evaluated: the answer is that of the chain
from the result's double. -/
theorem evaluate_typedChain {s : Session} {x : Binary64}
    (result : s.machine.calculation.IsResultOf x) {script : String}
    {links : List (Operator × String)} (typed : TypesChain script.toList links) :
    ∃ after frame, s.runScript script = (after, .ok frame) ∧
      match valueFrom s.machine.tolerance x links with
      | .ok answer => ∃ entry, after.machine.evaluate.2 = .success answer entry
      | .error fault => after.machine.evaluate.2 = .failed fault := by
  obtain ⟨text, single, -, read⟩ := result
  have only : s.machine.calculation.allTokens = [.numeral text] := by
    rw [single]
    rfl
  have finished : ¬ Token.Unfinished s.machine.calculation.allTokens := by
    rw [only]
    exact Token.not_unfinished_iff.mpr ⟨text, rfl⟩
  obtain ⟨d, leads, left⟩ := typed.leads finished
  obtain ⟨after, frame, run, -, calculation, tolerance, -⟩ := runScript_leads leads
  have all : after.machine.calculation.allTokens = .numeral text :: linkTokens links := by
    rw [calculation, left, only]
    rfl
  have worth : Calculator.evaluate after.machine.tolerance after.machine.calculation.allTokens =
      valueFrom s.machine.tolerance x links := by
    rw [all, tolerance]
    exact evaluate_linkTokens _ (Numeral.value_eq_ok.mpr read) links
  refine ⟨after, frame, run, ?_⟩
  split
  · rename_i answer valued
    rw [after.machine.evaluate_success_iff, worth, valued]
  · rename_i fault valued
    have still : ¬ Token.Unfinished after.machine.calculation.allTokens := by
      rw [all, ← SumTree.tokens_ofChain]
      exact (SumTree.expression _).2
    rw [after.machine.evaluate_failed_iff, worth, valued]
    exact ⟨still, rfl⟩

/-- A numeral that does not read as the double is told apart by what is typed behind it. -/
theorem exists_chain_apart (tolerance : Tolerance) {x : Binary64} (finite : x.isFinite)
    {text : String} (other : Binary64.unsignZero <$> Numeral.value text ≠ .ok x.unsignZero) :
    ∃ script links, TypesChain script links ∧ links ≠ [] ∧
      Calculator.evaluate tolerance (.numeral text :: linkTokens links) ≠
        valueFrom tolerance x links := by
  have zero : Numeral.Shaped "0" := ⟨false, ['0'], Numeral.body_zero, rfl⟩
  have typed : ∃ script, TypesChain script [(.add, "0")] := exists_typesChain (by simpa using zero)
  obtain ⟨script, typed⟩ := typed
  refine ⟨script, _, typed, List.cons_ne_nil _ _, ?_⟩
  rw [evaluate_add_zero, valueFrom_add_zero tolerance finite]
  exact other

/-- **Continuing from a result calculates with its double.**  Behind an evaluation that
succeeds, and any number of sign keys, a chain of operators and operands can be typed; the
next evaluation answers the value or the fault of the chain that starts with the value
itself, zeros without sign, negated once for each sign key.  A numeral that reads as
another double, as the one on display may, would not do: some chain behind it has another
answer. -/
theorem evaluate_continued {s : Session} {value : Binary64} {entry : Entry}
    (succeeded : s.machine.evaluate.2 = .success value entry) (toggles : Nat)
    {script : String} {links : List (Operator × String)} (typed : TypesChain script.toList links) :
    let tolerance := s.machine.tolerance
    let operand := Binary64.neg^[toggles] value.unsignZero
    let result := s.after (.press .evaluate :: List.replicate toggles (.press .toggleSign))
    (∃ after frame, result.runScript script = (after, .ok frame) ∧
      match valueFrom tolerance operand links with
      | .ok answer => ∃ entry, after.machine.evaluate.2 = .success answer entry
      | .error fault => after.machine.evaluate.2 = .failed fault) ∧
    ∀ text, Binary64.unsignZero <$> Numeral.value text ≠ .ok operand.unsignZero →
      ∃ script links, TypesChain script links ∧ links ≠ [] ∧
        Calculator.evaluate tolerance (.numeral text :: linkTokens links) ≠
          valueFrom tolerance operand links := by
  intro tolerance operand result
  have isResult : result.machine.calculation.IsResultOf operand :=
    after_toggles (press_evaluate_isResultOf succeeded) toggles
  have same : result.machine.tolerance = tolerance := after_tolerance _ _
  constructor
  · have answered := evaluate_typedChain isResult typed
    rwa [same] at answered
  · intro text other
    exact exists_chain_apart tolerance isResult.isFinite other

/-- One and a third, its sign changed twice, times three, minus four: exactly nothing is
left.  It would not be so with the fifteen digits on display, nor if the operators of both
expressions were grouped anew. -/
theorem evaluate_continued_third :
    let s := (start .default).after
      ([.digit 1, .operator .add, .digit 1, .operator .divide, .digit 3].map .press)
    let links := [(Operator.multiply, "3"), (.subtract, "4")]
    (∃ value, s.machine.evaluate.2 = .success value ⟨"1 + 1 ÷ 3", "1.33333333333333"⟩) ∧
      TypesChain "*3-4".toList links ∧
      (∃ after frame entry,
        (s.after [.press .evaluate, .press .toggleSign, .press .toggleSign]).runScript "*3-4" =
          (after, .ok frame) ∧
        after.machine.evaluate.2 = .success .zero entry) ∧
      (Calculator.evaluate s.machine.tolerance
        (.numeral "1.33333333333333" :: linkTokens links)).map Numeral.shown =
          .ok "-1.02140518265514E-14" ∧
      (Calculator.evaluate s.machine.tolerance
        (s.machine.calculation.allTokens ++ linkTokens links)).map Numeral.shown = .ok "-2" := by
  intro s links
  have succeeded : s.machine.evaluate.2 =
      .success (.ofBits 0x3ff5555555555555) ⟨"1 + 1 ÷ 3", "1.33333333333333"⟩ := by
    decide +kernel
  have three : TypesNumeral ['3'] "3" :=
    .intro '3' [] false (Numeral.body_singleton (by decide)) (by decide)
  have four : TypesNumeral ['4'] "4" :=
    .intro '4' [] false (Numeral.body_singleton (by decide)) (by decide)
  have typed : TypesChain "*3-4".toList links :=
    .cons (by decide) three (.cons (by decide) four .nil)
  have continued := (evaluate_continued succeeded 2 typed).1
  have worth : valueFrom s.machine.tolerance
      (Binary64.neg^[2] (Binary64.ofBits 0x3ff5555555555555).unsignZero) links = .ok .zero := by
    decide +kernel
  rw [worth] at continued
  obtain ⟨after, frame, run, entry, answered⟩ := continued
  refine ⟨⟨_, succeeded⟩, typed, ⟨after, frame, entry, run, answered⟩, ?_, ?_⟩
  · decide +kernel
  · decide +kernel

end Session

end Calculator
