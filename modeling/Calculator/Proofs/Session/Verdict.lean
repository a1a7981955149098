/-
# Calculator.Proofs.Session.Verdict -- what the result display stands for

The result display stands for a text that the calculation determines, which is a result
or the `0` of a cleared calculator, or for a failure, which each session words in its own
way.  A verdict says which of the two.  Clearing reaches one, and so does an evaluation
that is not skipped; the display shows the last (`after_result_verdict`).

Verdicts are reached by calculating.  Of two sessions that calculate alike, a run reaches
the same ones, and clearing the history on the way is as good as not clearing it: of a run
only its keys count.

* `after_result_verdict`: the result display behind a run;
* `SameCalculation.after_keys`, `SameCalculation.reports_keys`,
  `SameCalculation.verdicts_keys`: two runs with the same keys.
-/
import Calculator.Proofs.Session.Display

namespace Calculator

set_option autoImplicit false

/-- What the result display can stand for. -/
inductive Verdict where
  | shows (text : String)
  | fails
  deriving DecidableEq

/-- The text of a verdict, for a session with some error indicator. -/
def Verdict.text (indicator : String) : Verdict → String
  | .shows text => text
  | .fails => indicator

namespace Machine

/-- The verdict that a key reaches: clearing and evaluating reach one, unless there is
nothing to evaluate. -/
def verdict (m : Machine) : Key → Option Verdict
  | .clearAll => some (.shows "0")
  | .evaluate =>
    match m.evaluate.2 with
    | .skipped => none
    | .failed _ => some .fails
    | .success value _ => some (.shows (Numeral.shown value))
  | _ => none

theorem puts_eq (m : Machine) (indicator : String) (key : Key) :
    m.puts indicator key = (m.verdict key).map (Verdict.text indicator) := by
  cases key with
  | evaluate =>
      rw [puts, verdict]
      cases m.evaluate.2 <;> rfl
  | _ => rfl

/-- The history has no part in a verdict. -/
theorem verdict_congr {m n : Machine} (calculation : m.calculation = n.calculation)
    (tolerance : m.tolerance = n.tolerance) (key : Key) : m.verdict key = n.verdict key := by
  cases key with
  | evaluate =>
      rw [verdict, verdict, evaluate_eq, evaluate_eq, calculation, tolerance]
      rcases n.calculation.answer n.tolerance with _ | fault | value <;> rfl
  | _ => rfl

end Machine

/-- The key that a step presses. -/
def Step.key? : Step → Option Key
  | .press key => some key
  | .clearHistory => none

/-- The keys of a run. -/
def Step.keys (steps : List Step) : List Key := steps.filterMap Step.key?

namespace Session

/-- The verdicts that the keys of a run reach, in order. -/
def verdicts (s : Session) : List Step → List Verdict
  | [] => []
  | .press key :: steps => (s.machine.verdict key).toList ++ verdicts (s.press key).1 steps
  | .clearHistory :: steps => verdicts s.clearHistory steps

/-! ## The result display -/

theorem puts_eq_verdicts (s : Session) (indicator : String) (steps : List Step) :
    s.puts indicator steps = (s.verdicts steps).map (Verdict.text indicator) := by
  induction steps generalizing s with
  | nil => rfl
  | cons step steps ih =>
      cases step with
      | press key =>
          rw [puts, verdicts, Machine.puts_eq, ih, List.map_append]
          cases s.machine.verdict key <;> rfl
      | clearHistory => exact ih s.clearHistory

/-- The last verdict is on display. -/
theorem after_result_verdict (s : Session) (steps : List Step) :
    (s.after steps).result =
      ((s.verdicts steps).getLast?.map (Verdict.text s.settings.errorIndicator)).getD s.result := by
  rw [after_result, puts_eq_verdicts, List.getLast?_map]

/-- A key's frame shows what the result display is left with. -/
theorem press_frame_result (s : Session) (key : Key) :
    (s.press key).2.result = (s.press key).1.result := by
  rw [press_eq]

theorem press_result_verdict (s : Session) (key : Key) :
    (s.press key).1.result =
      ((s.machine.verdict key).map (Verdict.text s.settings.errorIndicator)).getD s.result := by
  rw [press_result, Machine.puts_eq]

/-! ## Runs with the same keys -/

namespace SameCalculation

variable {s t : Session}

theorem symm (same : s.SameCalculation t) : t.SameCalculation s :=
  ⟨same.calculation.symm, same.tolerance.symm⟩

theorem trans {u : Session} (same : s.SameCalculation t) (same' : t.SameCalculation u) :
    s.SameCalculation u :=
  ⟨same.calculation.trans same'.calculation, same.tolerance.trans same'.tolerance⟩

theorem clearHistory (s : Session) : s.clearHistory.SameCalculation s := ⟨rfl, rfl⟩

theorem verdict (same : s.SameCalculation t) (key : Key) :
    s.machine.verdict key = t.machine.verdict key :=
  Machine.verdict_congr same.calculation same.tolerance key

theorem after (same : s.SameCalculation t) (steps : List Step) :
    (s.after steps).SameCalculation (t.after steps) := by
  induction steps generalizing s t with
  | nil => exact same
  | cons step steps ih => exact ih (same.step step)

theorem verdicts (same : s.SameCalculation t) (steps : List Step) :
    s.verdicts steps = t.verdicts steps := by
  induction steps generalizing s t with
  | nil => rfl
  | cons step steps ih =>
      have next := ih (same.step step)
      cases step with
      | press key => exact congrArg₂ (·.toList ++ ·) (same.verdict key) next
      | clearHistory => exact next

end SameCalculation

/-- A run without the steps that clear the history. -/
abbrev pressed (steps : List Step) : List Step := (Step.keys steps).map .press

section Pressed

variable (s : Session) (steps : List Step)

theorem after_pressed : (s.after steps).SameCalculation (s.after (pressed steps)) := by
  induction steps generalizing s with
  | nil => exact ⟨rfl, rfl⟩
  | cons step steps ih =>
      cases step with
      | press key => exact ih (s.press key).1
      | clearHistory => exact (ih s.clearHistory).trans ((SameCalculation.clearHistory s).after _)

theorem reports_pressed :
    (s.frames steps).map Frame.report = (s.frames (pressed steps)).map Frame.report := by
  induction steps generalizing s with
  | nil => rfl
  | cons step steps ih =>
      cases step with
      | press key => exact congrArg ((s.press key).2.report :: ·) (ih (s.press key).1)
      | clearHistory =>
          exact (ih s.clearHistory).trans ((SameCalculation.clearHistory s).frames _)

theorem verdicts_pressed : s.verdicts steps = s.verdicts (pressed steps) := by
  induction steps generalizing s with
  | nil => rfl
  | cons step steps ih =>
      cases step with
      | press key => exact congrArg ((s.machine.verdict key).toList ++ ·) (ih (s.press key).1)
      | clearHistory =>
          exact (ih s.clearHistory).trans ((SameCalculation.clearHistory s).verdicts _)

end Pressed

namespace SameCalculation

variable {s t : Session} (same : s.SameCalculation t) {first second : List Step}
  (keys : Step.keys first = Step.keys second)
include same keys

theorem after_keys : (s.after first).SameCalculation (t.after second) := by
  have left := s.after_pressed first
  rw [pressed, keys] at left
  exact left.trans ((same.after _).trans (t.after_pressed second).symm)

theorem reports_keys :
    (s.frames first).map Frame.report = (t.frames second).map Frame.report := by
  rw [s.reports_pressed first, t.reports_pressed second, pressed, keys]
  exact same.frames _

theorem verdicts_keys : s.verdicts first = t.verdicts second := by
  rw [s.verdicts_pressed first, t.verdicts_pressed second, pressed, keys]
  exact same.verdicts _

end SameCalculation

end Session

end Calculator
