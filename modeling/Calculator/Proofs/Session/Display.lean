/-
# Calculator.Proofs.Session.Display -- what the two displays show in a run

The equation display always shows the calculation.  The result display is stale: it shows
what was put there by the last key that clears, or that evaluates and is not skipped, and
all other keys leave it (`Session.puts`).  A frame is a picture of both displays, with the
entry of an evaluation that succeeded or the fault of one that failed.

A success writes its value in two ways: the result display gets fifteen digits of it, the
equation display all of them.  Reading the second one gives the first one back
(`press_success`).

* `after_result`, `after_frame`: both displays behind a run;
* `display_law`: the displays and the frames of every run.
-/
import Mathlib.Data.List.Basic
import Calculator.Proofs.Session.Run

namespace Calculator

set_option autoImplicit false

/-- Both zeros are shown alike. -/
theorem Numeral.shown_unsignZero (x : Binary64) : shown x.unsignZero = shown x := by
  apply Binary64.apply_unsignZero
  intro negative m zero
  exact if_pos zero

/-- What a key puts into the result display: clearing and evaluating change it, unless
there is nothing to evaluate. -/
def Machine.puts (m : Machine) (indicator : String) : Key → Option String
  | .clearAll => some "0"
  | .evaluate =>
    match m.evaluate.2 with
    | .skipped => none
    | .failed _ => some indicator
    | .success value _ => some (Numeral.shown value)
  | _ => none

/-- A frame without what its key did. -/
def Frame.bare (frame : Frame) : Frame := { frame with appended := none, failure := none }

namespace Session

/-- What the keys of a run put into the result display, in order. -/
def puts (s : Session) (indicator : String) : List Step → List String
  | [] => []
  | .press key :: steps =>
      (s.machine.puts indicator key).toList ++ puts (s.press key).1 indicator steps
  | .clearHistory :: steps => puts s.clearHistory indicator steps

/-! ## The result display -/

theorem press_result (s : Session) (key : Key) :
    (s.press key).1.result = (s.machine.puts s.settings.errorIndicator key).getD s.result := by
  rw [press_eq]
  cases key with
  | evaluate =>
      simp only [resultAfter, Calculation.logs, Calculation.fails, Machine.puts,
        Machine.evaluate_eq]
      rcases s.machine.calculation.answer s.machine.tolerance with _ | fault | value <;> rfl
  | _ => rfl

/-- The last key that puts anything there decides. -/
theorem after_result (s : Session) (steps : List Step) :
    (s.after steps).result = (s.puts s.settings.errorIndicator steps).getLast?.getD s.result := by
  induction steps generalizing s with
  | nil => rfl
  | cons step steps ih =>
      cases step with
      | press key =>
          have later := ih (s.press key).1
          rw [press_settings, press_result] at later
          rw [puts, List.getLast?_append]
          refine later.trans ?_
          cases s.machine.puts s.settings.errorIndicator key with
          | none => simp
          | some text =>
              cases (puts (s.press key).1 s.settings.errorIndicator steps).getLast? <;> simp
      | clearHistory => exact ih s.clearHistory

/-! ## The frames -/

theorem press_frame (s : Session) (key : Key) : (s.press key).1.frame = (s.press key).2.bare := by
  rw [press_eq]
  rfl

/-- What is shown is the last frame, without what its key did. -/
theorem after_frame (s : Session) (steps : List Step) :
    (s.after steps).frame = ((s.frames steps).getLast?.map Frame.bare).getD s.frame := by
  induction steps using List.reverseRecOn with
  | nil => rfl
  | append_singleton steps last ih =>
      rw [after_append, frames_append]
      cases last with
      | press key =>
          show ((s.after steps).press key).1.frame = _
          simp [press_frame, frames]
      | clearHistory =>
          show (s.after steps).clearHistory.frame = _
          rw [frames, frames, List.append_nil, ← ih]
          rfl

theorem press_appended_or_failure (s : Session) (key : Key) :
    (s.press key).2.appended = none ∨ (s.press key).2.failure = none := by
  cases appended : (s.press key).2.appended with
  | none => exact .inl rfl
  | some entry =>
      right
      rw [Option.eq_none_iff_forall_ne_some]
      intro fault failed
      obtain ⟨-, value, succeeded⟩ := press_appended_iff.mp appended
      rw [(press_failure_iff.mp failed).2] at succeeded
      cases succeeded

/-- A success logs the equation that was shown and the result that is shown from then on.
The equation that is shown then is the value's numeral, and it reads as the result. -/
theorem press_success {s : Session} {key : Key} {entry : Entry}
    (appended : (s.press key).2.appended = some entry) :
    entry.expression = s.equation ∧ entry.result = (s.press key).2.result ∧
      (s.press key).1.machine.calculation.allTokens = [.numeral (s.press key).2.equation] ∧
      (Numeral.value? (s.press key).2.equation).map Numeral.shown =
        some (s.press key).2.result := by
  obtain ⟨rfl, value, succeeded⟩ := press_appended_iff.mp appended
  have evaluated := (s.machine.evaluate_success_iff value).mp ⟨entry, succeeded⟩
  have answered := Calculation.answer_eq_ok_iff.mpr evaluated
  have left : (s.press .evaluate).1.machine.calculation = .ofValue value := by
    rw [press_calculation, Calculation.next, answered]
  have frame := press_evaluate_ok answered
  rw [frame] at appended ⊢
  obtain rfl := Option.some.inj appended
  refine ⟨?_, rfl, ?_, ?_⟩
  · have something : s.machine.calculation.allTokens ≠ [] :=
      fun empty => finished_of_evaluate evaluated (.inl empty)
    simp [equation, Machine.display, Calculation.display, something]
  · rw [left, Calculation.display_ofValue]
    rfl
  · rw [Calculation.display_ofValue, Numeral.value?_ofValue (isFinite_of_evaluate evaluated),
      Option.map_some, Numeral.shown_unsignZero]

/-- **The displays of a run.**  The result display shows what the last key put there that
cleared, or evaluated and was not skipped: `0`, a result, or the error indicator; and `0`
when there is none.  The frame of the session is that of its last key, without what that
key did.  And the frame of any next key has an entry just when it succeeds and a fault just
when it fails, never both; an entry has the equation shown before the key and the result
shown behind it, and the numeral that is shown then reads as that result. -/
theorem display_law (settings : Settings) (steps : List Step) :
    let s := (start settings).after steps
    s.result = ((start settings).puts settings.errorIndicator steps).getLast?.getD "0" ∧
      s.frame = (((start settings).frames steps).getLast?.map Frame.bare).getD
        (start settings).frame ∧
      ∀ key,
        let pressed := (s.press key).1
        let frame := (s.press key).2
        (∀ entry, frame.appended = some entry ↔
          key = .evaluate ∧ ∃ value, s.machine.evaluate.2 = .success value entry) ∧
        (∀ fault, frame.failure = some fault ↔
          key = .evaluate ∧ s.machine.evaluate.2 = .failed fault) ∧
        (frame.appended = none ∨ frame.failure = none) ∧
        ∀ entry, frame.appended = some entry →
          entry.expression = s.equation ∧ entry.result = frame.result ∧
            pressed.machine.calculation.allTokens = [.numeral frame.equation] ∧
            (Numeral.value? frame.equation).map Numeral.shown = some frame.result := by
  intro s
  refine ⟨after_result (start settings) steps, after_frame (start settings) steps, fun key => ?_⟩
  refine ⟨fun entry => press_appended_iff, fun fault => press_failure_iff, ?_, fun entry => ?_⟩
  · exact s.press_appended_or_failure key
  · exact press_success

end Session

end Calculator
