/-
# Calculator.Proofs.Session.Repetition -- evaluating a result again

A result is a single numeral that reads as a double, also when its sign was changed.
Evaluating it divides by nothing, so no tolerance can forbid it, and answers that double.
What is left is the numeral of the double.  Where an evaluation has just succeeded, this is
the numeral that is there already: it reads as the value, whose numeral it is.  So evaluating
again logs the value by its numeral, and changes nothing else (`StandsOn.press`); and so it
goes on, however often the key is pressed (`StandsOn.again`).

* `press_standsOn`: what an evaluation that succeeds leaves;
* `evaluate_again`: every result of every run, and every success.
-/
import Calculator.Proofs.History.Window
import Calculator.Proofs.Session.Invariant
import Calculator.Proofs.Session.Redisplay
import Calculator.Proofs.Session.Restart

namespace Calculator

set_option autoImplicit false

/-! ## A result has a value -/

namespace Calculation

theorem phase_eq_evaluated_iff {c : Calculation} : c.phase = .evaluated ↔ c.isResult = true :=
  ⟨isResult_of_phase, fun isResult => by rw [phase, if_pos isResult]⟩

/-- A result of a well-formed calculation is the result of some double. -/
theorem WellFormed.exists_isResultOf {c : Calculation} (wellFormed : c.WellFormed)
    (evaluated : c.phase = .evaluated) : ∃ x, c.IsResultOf x := by
  have isResult := isResult_of_phase evaluated
  obtain ⟨text, single, valued, untyped⟩ := wellFormed.result isResult
  obtain ⟨x, read⟩ := Option.isSome_iff_exists.mp valued
  refine ⟨x, text, ?_, wellFormed.numerals text (by simp [single]), read⟩
  obtain ⟨tokens, numeral, flag⟩ := c
  cases single
  cases untyped
  cases isResult
  rfl

namespace IsResultOf

variable {c : Calculation} {x : Binary64} (result : c.IsResultOf x)
include result

theorem phase : c.phase = .evaluated := by
  obtain ⟨text, rfl, -, -⟩ := result
  rfl

/-- A result is worth its double, whatever the tolerance. -/
theorem answer (tolerance : Tolerance) : c.answer tolerance = some (.ok x) := by
  obtain ⟨text, rfl, -, read⟩ := result
  exact answer_eq_ok_iff.mpr (evaluate_single tolerance (Numeral.value_eq_ok.mpr read))

end IsResultOf

end Calculation

/-- A result can be evaluated under any tolerance. -/
theorem Machine.evaluate_isResultOf (m : Machine) {x : Binary64}
    (result : m.calculation.IsResultOf x) : ∃ entry, m.evaluate.2 = .success x entry := by
  rw [m.evaluate_success_iff]
  exact Calculation.answer_eq_ok_iff.mp (result.answer m.tolerance)

/-! ## Standing on a value -/

/-- What is logged when a value that is on display is evaluated: all of its digits, and those
that are shown. -/
def Entry.ofValue (value : Binary64) : Entry := ⟨Numeral.ofValue value, Numeral.shown value⟩

namespace Session

/-- The session with entries added to its history, and otherwise the same. -/
def adding (s : Session) (entries : List Entry) : Session :=
  { s with machine := { s.machine with history := (s.history.pushEach entries).1 } }

/-- The session shows a value in both displays, as an evaluation leaves it. -/
structure StandsOn (s : Session) (value : Binary64) : Prop where
  finite : value.isFinite
  calculation : s.machine.calculation = .ofValue value
  result : s.result = Numeral.shown value

/-- An evaluation that succeeds leaves its value in both displays. -/
theorem press_standsOn {s : Session} {value : Binary64} {entry : Entry}
    (succeeded : s.machine.evaluate.2 = .success value entry) :
    (s.press .evaluate).1.StandsOn value ∧ (s.press .evaluate).1.result = entry.result := by
  have evaluated := (s.machine.evaluate_success_iff value).mp ⟨entry, succeeded⟩
  have answered := Calculation.answer_eq_ok_iff.mpr evaluated
  have shown : (s.press .evaluate).1.result = Numeral.shown value := by
    rw [← press_frame_result, press_evaluate_ok answered]
  refine ⟨⟨isFinite_of_evaluate evaluated, ?_, shown⟩, ?_⟩
  · rw [press_calculation, Calculation.next, answered]
  · rw [Machine.evaluate_eq, answered] at succeeded
    cases succeeded
    exact shown

namespace StandsOn

variable {s : Session} {value : Binary64} (stands : s.StandsOn value)
include stands

theorem answer : s.machine.calculation.answer s.machine.tolerance =
    some (.ok value.unsignZero) := by
  rw [stands.calculation]
  exact (Calculation.isResultOf_ofValue stands.finite).answer _

theorem adding (entries : List Entry) : (s.adding entries).StandsOn value :=
  ⟨stands.finite, stands.calculation, stands.result⟩

/-- The expression of such a session is the value's numeral. -/
theorem render : Token.render s.machine.calculation.allTokens = Numeral.ofValue value := by
  rw [stands.calculation]
  simp [Calculation.ofValue, Calculation.allTokens, Token.render, Token.text]

theorem evaluate : s.machine.evaluate.2 = .success value.unsignZero (.ofValue value) := by
  rw [Machine.evaluate_eq, stands.answer]
  simp only [stands.render, Numeral.shown_unsignZero]
  rfl

/-- Evaluating a value again logs it, and changes nothing else. -/
theorem press : s.press .evaluate =
    (s.adding [.ofValue value], ⟨s.equation, s.result, some (.ofValue value), none⟩) := by
  have kept : Calculation.ofValue value.unsignZero = s.machine.calculation := by
    rw [stands.calculation, Calculation.ofValue, Calculation.ofValue, Numeral.ofValue_unsignZero]
  simp only [press_eq, resultAfter, Calculation.next, Calculation.logs, Calculation.fails,
    stands.answer, kept, stands.render, Numeral.shown_unsignZero]
  rw [Session.adding, stands.result]
  rfl

/-- **Evaluating a value any number of times logs it that often, and changes nothing else.** -/
theorem again (times : Nat) :
    s.after (List.replicate times (.press .evaluate)) =
        s.adding (List.replicate times (.ofValue value)) ∧
      s.frames (List.replicate times (.press .evaluate)) =
        List.replicate times ⟨s.equation, s.result, some (.ofValue value), none⟩ := by
  induction times generalizing s with
  | zero => exact ⟨rfl, rfl⟩
  | succ times ih =>
      obtain ⟨left, shown⟩ := ih (stands.adding [.ofValue value])
      have first := stands.press
      constructor
      · rw [List.replicate_succ, List.replicate_succ]
        show (s.press .evaluate).1.after _ = _
        rw [first]
        exact left
      · rw [List.replicate_succ, List.replicate_succ, frames, first]
        exact congrArg _ shown

end StandsOn

/-- **A result can be evaluated again, and again.**  Wherever a run stands on a result, evaluating
succeeds under every tolerance, also after any number of sign keys.  And behind an evaluation
that succeeds, pressing the key further times succeeds each time: the frames show what is shown
already, and the session stays as it is, but that the same entry is added to its history as
often, of which it holds the latest as before. -/
theorem evaluate_again (settings : Settings) (steps : List Step) :
    let s := (start settings).after steps
    (s.machine.calculation.phase = .evaluated → ∀ toggles tolerance,
      let toggled := (s.after (List.replicate toggles (.press .toggleSign))).machine
      let machine : Machine := { toggled with tolerance }
      toggled.calculation.phase = .evaluated ∧
        ∃ value entry, machine.evaluate.2 = .success value entry) ∧
    ∀ value entry, s.machine.evaluate.2 = .success value entry → ∀ times,
      let first := (s.press .evaluate).1
      let again := List.replicate times (Step.press .evaluate)
      let repeated : Entry := ⟨Numeral.ofValue value, first.result⟩
      first.result = entry.result ∧
        (first.after again).machine.evaluate.2 = .success value.unsignZero repeated ∧
        first.frames again =
          List.replicate times ⟨first.equation, first.result, some repeated, none⟩ ∧
        first.after again = first.adding (List.replicate times repeated) ∧
        (first.after again).history.Holds
          (first.history.entries ++ List.replicate times repeated) := by
  intro s
  constructor
  · intro evaluated toggles tolerance _ machine
    have wellFormed : s.WellFormed := (wellFormed_start settings).after steps
    obtain ⟨x, result⟩ := Calculation.WellFormed.exists_isResultOf wellFormed evaluated
    have toggled := after_toggles result toggles
    obtain ⟨entry, succeeded⟩ := machine.evaluate_isResultOf toggled
    exact ⟨toggled.phase, _, entry, succeeded⟩
  · intro value entry succeeded times first again repeated
    obtain ⟨stands, shown⟩ := press_standsOn succeeded
    have same : repeated = .ofValue value := by
      rw [Entry.ofValue, ← stands.result]
    obtain ⟨left, frames⟩ := stands.again times
    rw [← same] at left frames
    refine ⟨shown, ?_, frames, left, ?_⟩
    · rw [left, same]
      exact (stands.adding _).evaluate
    · rw [left]
      exact first.history.holds_entries.pushEach _

/-- A third, its sign changed, is evaluated three times: under a tolerance that forbids every
division, and then twice more under its own. -/
theorem evaluate_again_third :
    let steps : List Step :=
      [.digit 1, .operator .divide, .digit 3, .evaluate, .toggleSign].map .press
    let s := (start .default).after steps
    let strict : Machine := { s.machine with tolerance := .of (.infinity false) }
    let shown : Frame := ⟨"-0.3333333333333333", "-0.333333333333333",
      some ⟨"-0.3333333333333333", "-0.333333333333333"⟩, none⟩
    s.machine.calculation.phase = .evaluated ∧
      (∃ value entry, strict.evaluate.2 = .success value entry) ∧
      (s.press .evaluate).1.frames [.press .evaluate, .press .evaluate] = [shown, shown] := by
  intro steps s strict shown
  have evaluated : s.machine.calculation.phase = .evaluated := by decide +kernel
  obtain ⟨results, successes⟩ := evaluate_again .default steps
  have strictly := (results evaluated 0 (.of (.infinity false))).2
  have succeeded : s.machine.evaluate.2 = .success (.ofBits 0xbfd5555555555555)
      ⟨"-0.3333333333333333", "-0.333333333333333"⟩ := by
    decide +kernel
  obtain ⟨result, -, frames, -⟩ := successes _ _ succeeded 2
  have equation : (s.press .evaluate).1.equation = "-0.3333333333333333" := by decide +kernel
  have numeral : Numeral.ofValue (.ofBits 0xbfd5555555555555) = "-0.3333333333333333" := by
    decide +kernel
  rw [result, equation, numeral] at frames
  exact ⟨evaluated, strictly, frames⟩

end Session

end Calculator
