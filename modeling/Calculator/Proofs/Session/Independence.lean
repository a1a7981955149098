/-
# Calculator.Proofs.Session.Independence -- what settings cannot change

Of its settings, only the absolute value of the tolerance reaches a calculation.  How many
entries the history keeps, which it holds, and when it is cleared is seen nowhere but in the
history itself; the error indicator is seen on the result display, and only while that
stands for a failure.

So the same keys on sessions with other settings, whatever their histories hold by then,
answer the same frames but for their result displays, and these are the same too, unless
the last verdict was a failure: then each session shows its own indicator.

* `start_sameCalculation`: sessions with one absolute tolerance calculate alike;
* `settings_independent`: two runs with the same keys.
-/
import Calculator.Proofs.Session.Verdict

namespace Calculator

set_option autoImplicit false

/-- Two wordings of a verdict differ for a failure only. -/
theorem Verdict.text_apart (last : Option Verdict) (initial x y : String) :
    let verdict := last.getD (.shows initial)
    (last = some .fails → verdict.text x = x ∧ verdict.text y = y) ∧
      (last ≠ some .fails → verdict.text x = verdict.text y) := by
  rcases last with _ | shown | _
  · simp [Verdict.text]
  · simp [Verdict.text]
  · simp [Verdict.text]

namespace Session

/-- Settings with the same absolute tolerance start sessions that calculate alike. -/
theorem start_sameCalculation {a b : Settings}
    (tolerance : a.zeroTolerance.abs = b.zeroTolerance.abs) :
    (start a).SameCalculation (start b) where
  calculation := rfl
  tolerance := by
    show Tolerance.of a.zeroTolerance = Tolerance.of b.zeroTolerance
    simp only [Tolerance.of, tolerance]

/-- The result display of a started session, by its last verdict. -/
theorem result_of_verdict (settings : Settings) (steps : List Step) :
    ((start settings).after steps).result =
      (((start settings).verdicts steps).getLast?.getD (.shows "0")).text
        settings.errorIndicator := by
  rw [after_result_verdict]
  cases ((start settings).verdicts steps).getLast? <;> rfl

/-- **Capacity, history and error indicator do not reach the calculation.**  Take settings
that agree on the absolute value of the tolerance, and two runs with the same keys, in which
the history is cleared wherever one likes.  They answer the same equations, entries and
faults and reach the same verdicts, and so does any next key.  The results in its frames
are the same, unless the last verdict is a failure; then each is the session's own error
indicator. -/
theorem settings_independent {a b : Settings}
    (tolerance : a.zeroTolerance.abs = b.zeroTolerance.abs) {first second : List Step}
    (keys : Step.keys first = Step.keys second) :
    let s := (start a).after first
    let t := (start b).after second
    ((start a).frames first).map Frame.report = ((start b).frames second).map Frame.report ∧
      (start a).verdicts first = (start b).verdicts second ∧
      ∀ key,
        let f := (s.press key).2
        let g := (t.press key).2
        let last? := ((start a).verdicts (first ++ [.press key])).getLast?
        f.report = g.report ∧
          (last? = some .fails → f.result = a.errorIndicator ∧ g.result = b.errorIndicator) ∧
          (last? ≠ some .fails → f.result = g.result) := by
  intro s t
  have same := start_sameCalculation tolerance
  refine ⟨same.reports_keys keys, same.verdicts_keys keys, fun key => ?_⟩
  refine ⟨(same.after_keys keys).report key, ?_⟩
  -- the key belongs to both runs: what it shows is the display that the longer runs leave
  have longer : Step.keys (first ++ [.press key]) = Step.keys (second ++ [.press key]) := by
    simpa [Step.keys] using keys
  have left := result_of_verdict a (first ++ [.press key])
  have right := result_of_verdict b (second ++ [.press key])
  rw [← same.verdicts_keys longer] at right
  rw [after_append] at left right
  rw [press_frame_result, press_frame_result, show (s.press key).1.result = _ from left,
    show (t.press key).1.result = _ from right]
  exact Verdict.text_apart _ _ _ _

/-- A sum, then a division by zero, with room for thirty entries and with room for none.
The runs clear their histories at different times; what differs is what the failure
shows. -/
theorem settings_independent_failure :
    let a : Settings := .default
    let b : Settings := ⟨0, Tolerance.defaultBound.neg, "?"⟩
    let first : List Step := [.digit 1, .operator .add, .digit 1, .evaluate, .operator .divide,
      .digit 0].map .press
    let second : List Step := first.take 2 ++ .clearHistory :: first.drop 2
    a.zeroTolerance.abs = b.zeroTolerance.abs ∧ Step.keys first = Step.keys second ∧
      ((start a).after first).history ≠ ((start b).after second).history ∧
      (((start a).after first).press .evaluate).2.report =
        (((start b).after second).press .evaluate).2.report ∧
      (((start a).after first).press .evaluate).2.result = "Error" ∧
      (((start b).after second).press .evaluate).2.result = "?" := by
  intro a b first second
  have tolerance : a.zeroTolerance.abs = b.zeroTolerance.abs := by decide +kernel
  have keys : Step.keys first = Step.keys second := by decide
  have failed : ((start a).verdicts (first ++ [.press .evaluate])).getLast? = some .fails := by
    decide +kernel
  obtain ⟨report, indicators, -⟩ := (settings_independent tolerance keys).2.2 .evaluate
  obtain ⟨left, right⟩ := indicators failed
  exact ⟨tolerance, keys, by decide +kernel, report, left, right⟩

end Session

end Calculator
