/-
# Calculator.Proofs.Session.Run -- a session, step after step

A session is used by pressing keys and, besides, by clearing its history.
`Session.after` is the session that a list of such steps leaves, `Session.frames` the
frames of the keys among them.

What a key does to the calculation, what it logs and how it fails depend on nothing
but the calculation and the tolerance (`Calculation.next`, `Calculation.logs`,
`Calculation.fails`).  The history and the two displays only record it, so that a
whole run is determined by the calculation it starts from.

* `press_eq`: all that a key does;
* `SameCalculation.frames`: sessions with one calculation and one tolerance answer
  every run alike, but for the result display.
-/
import Mathlib.Data.List.Basic
import Calculator.Proofs.Machine.Evaluation
import Calculator.Session

namespace Calculator

set_option autoImplicit false

/-! ## One key -/

namespace Calculation

variable (tolerance : Tolerance) (c : Calculation)

/-- The calculation after a key. -/
def next : Key → Calculation
  | .digit value => c.typeDigit value
  | .point => c.typeChar '.'
  | .operator op => c.operate op
  | .toggleSign => c.toggleSign
  | .clearAll => .empty
  | .evaluate =>
    match c.answer tolerance with
    | some (.ok value) => .ofValue value
    | _ => c

/-- The entry that a key logs. -/
def logs : Key → Option Entry
  | .evaluate =>
    match c.answer tolerance with
    | some (.ok value) => some ⟨Token.render c.allTokens, Numeral.shown value⟩
    | _ => none
  | _ => none

/-- The fault that a key meets. -/
def fails : Key → Option Fault
  | .evaluate =>
    match c.answer tolerance with
    | some (.error fault) => some fault
    | _ => none
  | _ => none

end Calculation

/-- The history after a key that logs an entry or none. -/
def History.record (history : History) : Option Entry → History
  | some entry => (history.push entry).1
  | none => history

namespace Session

/-- The result display after a key: clearing sets it back, an entry's result or the
error indicator replaces it, and otherwise it stays. -/
def resultAfter (s : Session) (key : Key) : String :=
  match key, s.machine.calculation.logs s.machine.tolerance key,
    s.machine.calculation.fails s.machine.tolerance key with
  | .clearAll, _, _ => emptyDisplay
  | _, some entry, _ => entry.result
  | _, none, some _ => s.settings.errorIndicator
  | _, none, none => s.result

/-- All that a key does: the calculation takes its step, the history records the entry,
and the frame shows both displays, the entry and the fault. -/
theorem press_eq (s : Session) (key : Key) :
    s.press key =
      let c := s.machine.calculation
      let tolerance := s.machine.tolerance
      let pressed : Session :=
        ⟨⟨c.next tolerance key, s.machine.history.record (c.logs tolerance key), tolerance⟩,
          s.resultAfter key, s.settings⟩
      (pressed, ⟨pressed.equation, pressed.result, c.logs tolerance key, c.fails tolerance key⟩) := by
  cases key with
  | evaluate =>
      simp only [press, if_pos, evaluate, Machine.evaluate_eq, resultAfter, Calculation.next,
        Calculation.logs, Calculation.fails]
      cases s.machine.calculation.answer s.machine.tolerance with
      | none => rfl
      | some answer => cases answer <;> rfl
  | _ => rfl

section Press

variable (s : Session) (key : Key)

theorem press_calculation : (s.press key).1.machine.calculation =
    s.machine.calculation.next s.machine.tolerance key := by
  rw [press_eq]

theorem press_tolerance : (s.press key).1.machine.tolerance = s.machine.tolerance := by
  rw [press_eq]

theorem press_settings : (s.press key).1.settings = s.settings := by
  rw [press_eq]

theorem press_appended :
    (s.press key).2.appended = s.machine.calculation.logs s.machine.tolerance key := by
  rw [press_eq]

theorem press_failure :
    (s.press key).2.failure = s.machine.calculation.fails s.machine.tolerance key := by
  rw [press_eq]

theorem press_equation : (s.press key).2.equation =
    (s.machine.calculation.next s.machine.tolerance key).display := by
  rw [press_eq]
  rfl

end Press

/-- A key logs an entry by an evaluation that succeeds. -/
theorem press_appended_iff {s : Session} {key : Key} {entry : Entry} :
    (s.press key).2.appended = some entry ↔
      key = .evaluate ∧ ∃ value, s.machine.evaluate.2 = .success value entry := by
  rw [press_appended, Machine.evaluate_eq]
  cases key with
  | evaluate =>
      rw [Calculation.logs]
      rcases s.machine.calculation.answer s.machine.tolerance with _ | fault | value <;> simp
  | _ => simp [Calculation.logs]

/-- A key shows a fault by an evaluation that fails. -/
theorem press_failure_iff {s : Session} {key : Key} {fault : Fault} :
    (s.press key).2.failure = some fault ↔
      key = .evaluate ∧ s.machine.evaluate.2 = .failed fault := by
  rw [press_failure, Machine.evaluate_eq]
  cases key with
  | evaluate =>
      rw [Calculation.fails]
      rcases s.machine.calculation.answer s.machine.tolerance with _ | met | value <;> simp
  | _ => simp [Calculation.fails]

/-- The frame of an evaluation that succeeds. -/
theorem press_evaluate_ok {s : Session} {value : Binary64}
    (answered : s.machine.calculation.answer s.machine.tolerance = some (.ok value)) :
    (s.press .evaluate).2 =
      ⟨(Calculation.ofValue value).display, Numeral.shown value,
        some ⟨Token.render s.machine.calculation.allTokens, Numeral.shown value⟩, none⟩ := by
  simp only [press_eq, resultAfter, Calculation.next, Calculation.logs, Calculation.fails, answered]
  rfl

/-- The frame of an evaluation that fails. -/
theorem press_evaluate_error {s : Session} {fault : Fault}
    (answered : s.machine.calculation.answer s.machine.tolerance = some (.error fault)) :
    (s.press .evaluate).2 = ⟨s.equation, s.settings.errorIndicator, none, some fault⟩ := by
  simp only [press_eq, resultAfter, Calculation.next, Calculation.logs, Calculation.fails, answered]
  rfl

end Session

/-- A frame without the result display. -/
def Frame.report (frame : Frame) : String × Option Entry × Option Fault :=
  (frame.equation, frame.appended, frame.failure)

/-! ## Runs -/

/-- What can be done to a session. -/
inductive Step where
  | press (key : Key)
  | clearHistory
  deriving DecidableEq

namespace Session

def step (s : Session) : Step → Session
  | .press key => (s.press key).1
  | .clearHistory => s.clearHistory

/-- The session after some steps. -/
def after (s : Session) (steps : List Step) : Session := steps.foldl step s

/-- The frames of the keys among some steps. -/
def frames (s : Session) : List Step → List Frame
  | [] => []
  | .press key :: steps => (s.press key).2 :: frames (s.press key).1 steps
  | .clearHistory :: steps => frames s.clearHistory steps

theorem after_append (s : Session) (first second : List Step) :
    s.after (first ++ second) = (s.after first).after second :=
  List.foldl_append

theorem frames_append (s : Session) (first second : List Step) :
    s.frames (first ++ second) = s.frames first ++ (s.after first).frames second := by
  induction first generalizing s with
  | nil => rfl
  | cons step first ih =>
      cases step with
      | press key => exact congrArg _ (ih (s.press key).1)
      | clearHistory => exact ih s.clearHistory

/-- What every step keeps, a run keeps. -/
theorem after_induction (holds : Session → Prop) {s : Session} (start : holds s)
    (step : ∀ s step, holds s → holds (Session.step s step)) (steps : List Step) :
    holds (s.after steps) := by
  induction steps generalizing s with
  | nil => exact start
  | cons first steps ih => exact ih (step s first start)

theorem step_tolerance (s : Session) (step : Step) :
    (s.step step).machine.tolerance = s.machine.tolerance := by
  cases step with
  | press key => exact s.press_tolerance key
  | clearHistory => rfl

theorem after_tolerance (s : Session) (steps : List Step) :
    (s.after steps).machine.tolerance = s.machine.tolerance := by
  refine after_induction (fun t => t.machine.tolerance = s.machine.tolerance) rfl ?_ steps
  intro t step same
  rw [step_tolerance, same]

theorem after_settings (s : Session) (steps : List Step) :
    (s.after steps).settings = s.settings := by
  refine after_induction (fun t => t.settings = s.settings) rfl ?_ steps
  intro t step same
  cases step with
  | press key => exact (t.press_settings key).trans same
  | clearHistory => exact same

/-- Pressing keys one after the other is a run. -/
theorem pressEach_eq_after (s : Session) (keys : List Key) :
    (s.pressEach keys).1 = s.after (keys.map .press) := by
  induction keys generalizing s with
  | nil => rfl
  | cons key keys ih => exact ih (s.press key).1

/-- The frame of a script shows the equation that the session is left with. -/
theorem pressAll_equation (s : Session) (keys : List Key) :
    (s.pressAll keys).2.equation = (s.pressAll keys).1.equation := by
  -- on the last key: its frame is the answer, and what it leaves is left
  obtain rfl | ⟨earlier, last, rfl⟩ := List.eq_nil_or_concat' keys
  · rfl
  · simp [pressAll, pressEach_append, pressEach, press_eq]

/-! ## What a run depends on -/

/-- Two sessions calculate alike: the same calculation, under the same tolerance. -/
structure SameCalculation (s t : Session) : Prop where
  calculation : s.machine.calculation = t.machine.calculation
  tolerance : s.machine.tolerance = t.machine.tolerance

theorem SameCalculation.step {s t : Session} (same : s.SameCalculation t) (step : Step) :
    (s.step step).SameCalculation (t.step step) := by
  obtain ⟨calculation, tolerance⟩ := same
  cases step with
  | press key =>
      refine ⟨?_, ?_⟩
      · rw [Session.step, Session.step, press_calculation, press_calculation, calculation, tolerance]
      · rw [step_tolerance, step_tolerance, tolerance]
  | clearHistory => exact ⟨calculation, tolerance⟩

theorem SameCalculation.report {s t : Session} (same : s.SameCalculation t) (key : Key) :
    (s.press key).2.report = (t.press key).2.report := by
  obtain ⟨calculation, tolerance⟩ := same
  simp only [Frame.report, press_equation, press_appended, press_failure, calculation, tolerance]

/-- Sessions that calculate alike answer every run alike, but for the result display. -/
theorem SameCalculation.frames {s t : Session} (same : s.SameCalculation t) (steps : List Step) :
    (s.frames steps).map Frame.report = (t.frames steps).map Frame.report := by
  induction steps generalizing s t with
  | nil => rfl
  | cons step steps ih =>
      cases step with
      | press key =>
          have next := ih (same.step (.press key))
          simp only [Session.frames, List.map_cons, same.report key]
          exact congrArg _ next
      | clearHistory => exact ih (same.step .clearHistory)

/-- The machine after a step depends on the machine before it alone. -/
theorem step_machine_congr {s t : Session} (same : s.machine = t.machine) (step : Step) :
    (s.step step).machine = (t.step step).machine := by
  cases step with
  | press key => simp only [Session.step, press_eq, same]
  | clearHistory => simp only [Session.step, clearHistory, same]

theorem after_machine_congr {s t : Session} (same : s.machine = t.machine) (steps : List Step) :
    (s.after steps).machine = (t.after steps).machine := by
  induction steps generalizing s t with
  | nil => exact same
  | cons step steps ih => exact ih (step_machine_congr same step)

end Session

end Calculator
