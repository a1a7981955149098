/-
# Calculator.Proofs.Session.Retry -- a failed evaluation leaves no trace

An evaluation is skipped when the tokens, with the numeral being typed, miss an
operand; otherwise it fails or succeeds as their evaluation does.  Unless it
succeeds, the machine afterwards is the machine before, the numeral being typed and
the history included.  All later keys then do what they would have done without it:
only the result display can tell, which shows the error indicator until the next
result.

* `evaluate_atomic`: the three outcomes, and what follows the two that change nothing.
-/
import Calculator.Proofs.Session.Run

namespace Calculator

set_option autoImplicit false

namespace Session

theorem press_evaluate_machine (s : Session) :
    (s.press .evaluate).1.machine = s.machine.evaluate.1 := by
  rw [press, if_pos rfl, evaluate]
  rcases s.machine.evaluate with ⟨machine, _ | fault | ⟨value, entry⟩⟩ <;> rfl

/-- **Evaluating succeeds, or does nothing.**  Which of the three outcomes it has is
decided by the tokens; without success the machine stays as it was, and every later
run goes on as if the key had not been pressed. -/
theorem evaluate_atomic (s : Session) :
    let m := s.machine
    let tokens := m.calculation.allTokens
    let evaluated := s.press .evaluate
    (m.evaluate.2 = .skipped ↔ Token.Unfinished tokens) ∧
      (∀ fault, m.evaluate.2 = .failed fault ↔
        ¬ Token.Unfinished tokens ∧ Calculator.evaluate m.tolerance tokens = .error fault) ∧
      (∀ value, (∃ entry, m.evaluate.2 = .success value entry) ↔
        Calculator.evaluate m.tolerance tokens = .ok value) ∧
      ((∀ value entry, m.evaluate.2 ≠ .success value entry) →
        m.evaluate.1 = m ∧ ∀ steps,
          (evaluated.1.after steps).machine = (s.after steps).machine ∧
            (evaluated.1.frames steps).map Frame.report = (s.frames steps).map Frame.report) := by
  refine ⟨s.machine.evaluate_skipped_iff, s.machine.evaluate_failed_iff,
    s.machine.evaluate_success_iff, fun unsuccessful => ?_⟩
  have kept := s.machine.evaluate_unchanged unsuccessful
  have same := s.press_evaluate_machine.trans kept
  refine ⟨kept, fun steps => ⟨after_machine_congr same steps, ?_⟩⟩
  exact SameCalculation.frames ⟨congrArg _ same, congrArg _ same⟩ steps

end Session

end Calculator
