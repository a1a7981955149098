/-
# Calculator.Proofs.Session.Restart -- nothing is left over from before

A calculator starts over in two ways.  Clearing says so: the calculation and both displays
are those of a fresh session, and the history, which stays, is seen in no frame.  Typing a
digit or a point on a result says so as well, but only to the calculation: the result
display still shows the result, until the next verdict.

Two sessions that calculate alike, and show alike, answer every run alike (`Alike.frames`).
After clearing, a session is alike to a fresh one; after typing on a result it calculates
alike, and the next verdict makes it alike (`SameCalculation.frames_of_verdict`).

* `clearAll_alike`, `typed_sameCalculation`: what the two ways of starting over leave;
* `restart_fresh`: every run after them.
-/
import Calculator.Proofs.Session.Verdict

namespace Calculator

set_option autoImplicit false

/-- A digit or a point: the keys that start a new expression on a result. -/
def Key.Types (key : Key) : Prop := key = .point ∨ ∃ value < 10, key = .digit value

namespace Calculation

/-- On a result a digit or a point starts from nothing. -/
theorem typeChar_of_isResult {c : Calculation} (isResult : c.isResult = true) {ch : Char}
    (numeral : isNumeralChar ch = true) : c.typeChar ch = empty.typeChar ch := by
  apply typeChar_congr ?_ numeral
  rw [startFresh, startFresh, if_pos isResult]
  rfl

theorem next_of_isResult {c : Calculation} (isResult : c.isResult = true) (tolerance : Tolerance)
    {key : Key} (types : key.Types) : c.next tolerance key = empty.next tolerance key := by
  obtain rfl | ⟨value, small, rfl⟩ := types
  · exact typeChar_of_isResult isResult rfl
  · have digit : isNumeralChar value.digitChar = true := by
      simp [isNumeralChar, Nat.isDigit_digitChar, small]
    rw [next, next, typeDigit, typeDigit, if_pos small, if_pos small]
    exact typeChar_of_isResult isResult digit

theorem isResult_of_phase {c : Calculation} (evaluated : c.phase = .evaluated) :
    c.isResult = true := by
  by_contra other
  rw [phase, if_neg other] at evaluated
  split at evaluated <;> cases evaluated

end Calculation

/-- A frame is its report and its result. -/
theorem Frame.eq_of_report {f g : Frame} (report : f.report = g.report)
    (result : f.result = g.result) : f = g := by
  obtain ⟨equation, shown, appended, failure⟩ := f
  simp only [Frame.report, Prod.mk.injEq] at report result
  obtain ⟨rfl, rfl, rfl⟩ := report
  rw [result]

namespace Session

/-- Two sessions calculate alike and show alike; their histories may differ. -/
structure Alike (s t : Session) : Prop extends SameCalculation s t where
  result : s.result = t.result
  errorIndicator : s.settings.errorIndicator = t.settings.errorIndicator

namespace Alike

variable {s t : Session} (alike : s.Alike t)
include alike

theorem press (key : Key) : (s.press key).1.Alike (t.press key).1 where
  toSameCalculation := alike.toSameCalculation.step (.press key)
  result := by
    rw [press_result_verdict, press_result_verdict, alike.verdict key, alike.result,
      alike.errorIndicator]
  errorIndicator := by
    rw [press_settings, press_settings, alike.errorIndicator]

theorem step (step : Step) : (s.step step).Alike (t.step step) := by
  cases step with
  | press key => exact alike.press key
  | clearHistory => exact ⟨alike.toSameCalculation.step .clearHistory, alike.result,
      alike.errorIndicator⟩

theorem frame (key : Key) : (s.press key).2 = (t.press key).2 := by
  apply Frame.eq_of_report (alike.report key)
  rw [press_frame_result, press_frame_result, (alike.press key).result]

theorem frames (steps : List Step) : s.frames steps = t.frames steps := by
  induction steps generalizing s t with
  | nil => rfl
  | cons step steps ih =>
      have next := ih (alike.step step)
      cases step with
      | press key => exact congrArg₂ List.cons (alike.frame key) next
      | clearHistory => exact next

end Alike

/-- A key that reaches a verdict makes sessions alike that calculate alike, if they word
failures alike. -/
theorem SameCalculation.frames_of_verdict {s t : Session} (same : s.SameCalculation t)
    (errorIndicator : s.settings.errorIndicator = t.settings.errorIndicator) {next : Key}
    (reached : (s.machine.verdict next).isSome) (rest : List Step) :
    s.frames (.press next :: rest) = t.frames (.press next :: rest) := by
  obtain ⟨verdict, verdict_eq⟩ := Option.isSome_iff_exists.mp reached
  have alike : (s.press next).1.Alike (t.press next).1 := by
    refine ⟨same.step (.press next), ?_, ?_⟩
    · rw [press_result_verdict, press_result_verdict, ← same.verdict next, verdict_eq,
        errorIndicator]
      rfl
    · rw [press_settings, press_settings, errorIndicator]
  have frame : (s.press next).2 = (t.press next).2 := by
    apply Frame.eq_of_report (same.report next)
    rw [press_frame_result, press_frame_result, alike.result]
  exact congrArg₂ List.cons frame (alike.frames rest)

/-- A run without a verdict leaves the result display as it is. -/
theorem frames_result_of_no_verdict (s : Session) (steps : List Step)
    (none : s.verdicts steps = []) : ∀ frame ∈ s.frames steps, frame.result = s.result := by
  induction steps generalizing s with
  | nil =>
      intro frame member
      cases member
  | cons step steps ih =>
      cases step with
      | press key =>
          rw [verdicts, List.append_eq_nil_iff, Option.toList_eq_nil_iff] at none
          have kept : (s.press key).1.result = s.result := by
            rw [press_result_verdict, none.1]
            rfl
          intro frame member
          rcases List.mem_cons.mp member with rfl | later
          · exact (s.press_frame_result key).trans kept
          · exact (ih _ none.2 frame later).trans kept
      | clearHistory => exact ih s.clearHistory none

section Started

variable (settings : Settings) (steps : List Step)

/-- Clearing leaves a fresh session, but for its history. -/
theorem clearAll_alike : (((start settings).after steps).press .clearAll).1.Alike
    (start settings) where
  calculation := rfl
  tolerance := (press_tolerance _ _).trans (after_tolerance _ steps)
  result := rfl
  errorIndicator := by
    rw [press_settings, after_settings]

section Typed

variable {key : Key} (types : key.Types)
  (evaluated : ((start settings).after steps).machine.calculation.phase = .evaluated)
include types evaluated

/-- Typing on a result leaves what typing on nothing does, but for the result display and
the history. -/
theorem typed_sameCalculation : (((start settings).after steps).press key).1.SameCalculation
    ((start settings).press key).1 where
  calculation := by
    rw [press_calculation, press_calculation, after_tolerance,
      Calculation.next_of_isResult (Calculation.isResult_of_phase evaluated) _ types]
    rfl
  tolerance := by
    rw [press_tolerance, press_tolerance, after_tolerance]

theorem typed_report : (((start settings).after steps).press key).2.report =
    ((start settings).press key).2.report := by
  have calculation := (typed_sameCalculation settings steps types evaluated).calculation
  rw [press_calculation, press_calculation] at calculation
  simp only [Frame.report, press_equation, press_appended, press_failure, calculation]
  -- such a key logs nothing and does not fail, wherever it is pressed
  obtain rfl | ⟨value, -, rfl⟩ := types
  · rfl
  · rfl

end Typed

end Started

/-- **Starting over forgets.**  After any run, clearing is followed by the frames of a fresh
session, whatever is done next.  Where the run stands on a result, a digit or a point is
followed by the equations, entries and faults of a fresh session in which it is typed.  The
results in those frames are the old one as long as no verdict is reached; from any key on
that reaches one, the frames are those of the fresh session altogether. -/
theorem restart_fresh (settings : Settings) (steps : List Step) :
    let fresh := start settings
    let s := fresh.after steps
    (∀ later, (s.press .clearAll).1.frames later = fresh.frames later) ∧
      (s.machine.calculation.phase = .evaluated → ∀ key, key.Types → ∀ later,
        let typed := Step.press key :: later
        (s.frames typed).map Frame.report = (fresh.frames typed).map Frame.report ∧
          (s.verdicts typed = [] → ∀ frame ∈ s.frames typed, frame.result = s.result) ∧
          ∀ next rest, ((s.after typed).machine.verdict next).isSome →
            (s.after typed).frames (.press next :: rest) =
              (fresh.after typed).frames (.press next :: rest)) := by
  intro fresh s
  refine ⟨(clearAll_alike settings steps).frames, fun evaluated key types later => ?_⟩
  intro typed
  have same := typed_sameCalculation settings steps types evaluated
  refine ⟨?_, s.frames_result_of_no_verdict typed, fun next rest reached => ?_⟩
  · exact congrArg₂ List.cons (typed_report settings steps types evaluated) (same.frames later)
  · apply (same.after later).frames_of_verdict _ reached
    rw [after_settings, after_settings, press_settings, press_settings, after_settings]

/-- A third is on display while the next sum is typed, and goes with its result. -/
theorem restart_fresh_third :
    let steps : List Step := [.digit 1, .operator .divide, .digit 3, .evaluate].map .press
    let sum : List Step := [.digit 2, .operator .add, .digit 2].map .press
    ((start .default).after steps).machine.calculation.phase = .evaluated ∧
      ((start .default).after steps).history.entries ≠ [] ∧
      (∀ frame ∈ ((start .default).after steps).frames sum,
        frame.result = "0.333333333333333") ∧
      (((start .default).after steps).after sum).frames [.press .evaluate] =
        ((start .default).after sum).frames [.press .evaluate] := by
  intro steps sum
  have evaluated : ((start .default).after steps).machine.calculation.phase = .evaluated := by
    decide +kernel
  have shown : ((start .default).after steps).result = "0.333333333333333" := by decide +kernel
  have types : (Key.digit 2).Types := .inr ⟨2, by decide, rfl⟩
  obtain ⟨-, stale, again⟩ := (restart_fresh .default steps).2 evaluated (.digit 2) types
    ([.operator .add, .digit 2].map .press)
  refine ⟨evaluated, by decide +kernel, ?_, again .evaluate [] (by decide +kernel)⟩
  intro frame member
  exact (stale (by decide +kernel) frame member).trans shown

end Session

end Calculator
