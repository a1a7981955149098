/-
# Calculator.Proofs.Session.Redisplay -- typing a result again

A result that is shown without an exponent can be typed again, digit by digit, with a sign key
for its minus.  Evaluated on its own it is shown and logged as the text that was typed: the value
may be another double now, but all that is shown of it are the digits that it was read from.  A
result with an exponent is no numeral.

* `press_evaluate_typedNumeral`: a numeral that was typed, evaluated on its own;
* `shown_retyped`: reading and typing the text of a result.
-/
import Calculator.Proofs.Numeral.Redisplay
import Calculator.Proofs.Session.Continuation

namespace Calculator

set_option autoImplicit false

/-- A numeral on its own is worth what it reads as. -/
theorem evaluate_single (tolerance : Tolerance) {text : String} {x : Binary64}
    (read : Numeral.value text = .ok x) : evaluate tolerance [.numeral text] = .ok x :=
  evaluate_linkTokens tolerance read []

theorem exists_script {text : String} (shaped : Numeral.Shaped text) :
    ∃ script : String, TypesNumeral script.toList text := by
  obtain ⟨script, typed⟩ := exists_typesNumeral shaped
  exact ⟨String.ofList script, by rwa [String.toList_ofList]⟩

namespace Session

/-- On a cleared calculation a numeral that is typed and evaluated answers its value. -/
theorem press_evaluate_typedNumeral {s : Session} (cleared : s.machine.calculation = .empty)
    {script text : String} (typed : TypesNumeral script.toList text) {x : Binary64}
    (read : Numeral.value text = .ok x) :
    ∃ after frame, s.runScript script = (after, .ok frame) ∧ frame.equation = text ∧
      (after.press .evaluate).2 =
        ⟨Numeral.ofValue x, Numeral.shown x, some ⟨text, Numeral.shown x⟩, none⟩ := by
  have fresh : s.machine.calculation.startFresh = .empty := by
    rw [cleared]
    rfl
  have single : Token.render [.numeral text] = text := by simp [Token.render, Token.text]
  obtain ⟨after, frame, run, shown, answered⟩ :=
    press_evaluate_typed fresh (.numeral typed) (evaluate_single _ read)
  rw [single] at shown answered
  exact ⟨after, frame, run, shown, answered⟩

/-- **The text of a result, read or typed again, shows itself.**  Without an exponent it is a
numeral, and what it is read as is shown by the same text; typed into any session that has just
been cleared and evaluated on its own, it is shown and logged as itself.  With an exponent it is
no numeral. -/
theorem shown_retyped {x : Binary64} (finite : x.isFinite) :
    ('E' ∉ (Numeral.shown x).toList →
      (∃ y, Numeral.value (Numeral.shown x) = .ok y ∧ Numeral.shown y = Numeral.shown x) ∧
      (∃ script : String, TypesNumeral script.toList (Numeral.shown x)) ∧
      ∀ (s : Session) (script : String), TypesNumeral script.toList (Numeral.shown x) →
        ∃ typed frame, (s.press .clearAll).1.runScript script = (typed, .ok frame) ∧
          frame.equation = Numeral.shown x ∧
          (typed.press .evaluate).2.result = Numeral.shown x ∧
          (typed.press .evaluate).2.appended = some ⟨Numeral.shown x, Numeral.shown x⟩) ∧
    ('E' ∈ (Numeral.shown x).toList →
      Numeral.value (Numeral.shown x) = .error (.badNumeral (Numeral.shown x))) := by
  constructor
  · intro unmarked
    obtain ⟨y, read, same⟩ := Numeral.exists_value_of_unmarked finite unmarked
    rw [← Numeral.value_eq_ok] at read
    refine ⟨⟨y, read, same⟩, exists_script (Numeral.shaped_of_unmarked finite unmarked), ?_⟩
    intro s script typed
    have cleared : (s.press .clearAll).1.machine.calculation = .empty := s.press_calculation _
    obtain ⟨after, frame, run, shown, answered⟩ := press_evaluate_typedNumeral cleared typed read
    rw [same] at answered
    exact ⟨after, frame, run, shown, by rw [answered], by rw [answered]⟩
  · intro marked
    rw [Numeral.value, Numeral.value?_of_mark marked]

/-- Minus a third is shown by fifteen digits, which are those of another double; typed again they
are shown as they are.  A third of `10 ^ 17` has an exponent. -/
theorem shown_retyped_third :
    (Binary64.ofBits 0xbfd5555555555555).isFinite ∧
      Numeral.value "-0.333333333333333" = .ok (.ofBits 0xbfd555555555554f) ∧
      (∃ typed frame, ((start .default).press .clearAll).1.runScript "0.333333333333333~" =
          (typed, .ok frame) ∧
        (typed.press .evaluate).2.appended = some ⟨"-0.333333333333333", "-0.333333333333333"⟩) ∧
      Numeral.value "3.33333333333333E+16" = .error (.badNumeral "3.33333333333333E+16") := by
  have finite : (Binary64.ofBits 0xbfd5555555555555).isFinite := by decide
  have text : Numeral.shown (.ofBits 0xbfd5555555555555) = "-0.333333333333333" := by
    decide +kernel
  have retyped := (shown_retyped finite).1
  rw [text] at retyped
  obtain ⟨-, -, typing⟩ := retyped (by decide)
  have typed : TypesNumeral "0.333333333333333~".toList "-0.333333333333333" := by
    have body : Numeral.Body "0.333333333333333".toList := ⟨by decide, by simp, by decide⟩
    exact .intro '0' ".333333333333333~".toList true body (by decide)
  obtain ⟨after, frame, run, -, -, appended⟩ := typing (start .default) _ typed
  refine ⟨finite, by decide +kernel, ⟨after, frame, run, appended⟩, ?_⟩
  have large : (Binary64.ofBits 0x435d9b1f5d20d555).isFinite := by decide
  have marked : Numeral.shown (.ofBits 0x435d9b1f5d20d555) = "3.33333333333333E+16" := by
    decide +kernel
  have unread := (shown_retyped large).2
  rw [marked] at unread
  exact unread (by decide)

end Session

end Calculator
