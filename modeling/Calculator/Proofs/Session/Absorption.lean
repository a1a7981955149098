/-
# Calculator.Proofs.Session.Absorption -- keys that make no difference

Some keys undo, repeat or replace what was pressed just before them.  An operator takes the
place of the operator in front of it; behind an operator there is no sign to change and
nothing to evaluate.  Two sign keys cancel.  A numeral has one point.  Clearing makes up for
any key but an evaluation, which may have logged an entry.  A failed evaluation fails again,
for it left everything as it was.  And there are no digits above nine.

`Session.Absorbs` lists these rules.  Each is exact: the longer keys leave the very session
that the shorter ones do (`Absorbs.after_eq`), so any run may go on behind either.  Only the
rule of the failed evaluation asks where the keys are pressed.

* `Calculation.operate_operate` and its like: one rule each;
* `absorbs_run`: every rule, between any two runs.
-/
import Calculator.Proofs.Calculation.WellFormed
import Calculator.Proofs.Numeral.Grammar
import Calculator.Proofs.Session.Repetition

namespace Calculator

set_option autoImplicit false

/-! ## Two keys on a calculation -/

namespace Calculation

theorem dropOperator_concat (tokens : List Token) (op : Operator) :
    dropOperator (tokens ++ [.operator op]) = tokens := by
  rw [dropOperator, List.getLast?_concat, List.dropLast_concat]

/-- On nothing an operator is ignored. -/
theorem operate_of_nothing {c : Calculation} (nothing : c.tokens = [] ∧ c.numeral = "")
    (op : Operator) : c.operate op = ⟨[], "", false⟩ := by
  rw [operate, if_pos (by simp [nothing])]
  simp [nothing]

/-- An operator takes the place of the operator in front of it. -/
theorem operate_operate (c : Calculation) (first second : Operator) :
    (c.operate first).operate second = c.operate second := by
  by_cases nothing : c.tokens = [] ∧ c.numeral = ""
  · rw [operate_of_nothing nothing, operate_of_nothing nothing, operate_of_nothing ⟨rfl, rfl⟩]
  · rw [c.operate_eq nothing first, c.operate_eq nothing second, operate_eq _ (by simp)]
    rw [allTokens_of_empty rfl, dropOperator_concat]

/-- An operator leaves an operand missing. -/
theorem unfinished_operate (c : Calculation) (op : Operator) :
    Token.Unfinished (c.operate op).allTokens := by
  by_cases nothing : c.tokens = [] ∧ c.numeral = ""
  · rw [operate_of_nothing nothing]
    exact .inl rfl
  · rw [c.operate_eq nothing, allTokens_of_empty rfl]
    exact .inr ⟨op, List.getLast?_concat⟩

/-- Where a numeral is missing there is no sign to change. -/
theorem toggleSign_of_unfinished {c : Calculation} (untyped : c.numeral = "")
    (unfinished : Token.Unfinished c.tokens) : c.toggleSign = c := by
  rw [toggleSign, if_pos (by simp [untyped])]
  rcases unfinished with nothing | ⟨op, last⟩
  · rw [nothing]
    rfl
  · rw [last]

/-- The sign key edits a numeral that is being typed. -/
theorem toggleSign_of_typed {c : Calculation} (typed : c.numeral ≠ "") :
    c.toggleSign = { c with numeral := Numeral.toggleSign c.numeral } := by
  rw [toggleSign, if_neg (by simp [typed])]

theorem toggleSign_operate (c : Calculation) (op : Operator) :
    (c.operate op).toggleSign = c.operate op := by
  have unfinished := c.unfinished_operate op
  by_cases nothing : c.tokens = [] ∧ c.numeral = ""
  · rw [operate_of_nothing nothing]
    rfl
  · rw [c.operate_eq nothing] at unfinished ⊢
    exact toggleSign_of_unfinished rfl unfinished

/-- Two sign keys cancel. -/
theorem WellFormed.toggleSign_toggleSign {c : Calculation} (wellFormed : c.WellFormed) :
    c.toggleSign.toggleSign = c := by
  by_cases untyped : c.numeral = ""
  · by_cases unfinished : Token.Unfinished c.tokens
    · rw [toggleSign_of_unfinished untyped unfinished, toggleSign_of_unfinished untyped unfinished]
    · -- the last token is a numeral, so it is all of a result
      obtain ⟨text, last⟩ := Token.not_unfinished_iff.mp unfinished
      have isResult := wellFormed.result_of_numeral text last
      obtain ⟨x, only, rfl, shaped, -⟩ :=
        wellFormed.exists_isResultOf (phase_eq_evaluated_iff.mpr isResult)
      show Calculation.mk [.numeral (Numeral.toggleSign (Numeral.toggleSign only))] "" true = _
      rw [shaped.toggleSign_toggleSign]
  · have shaped := wellFormed.typed untyped
    have typed : c.toggleSign.numeral ≠ "" := by
      rw [toggleSign_of_typed untyped]
      exact shaped.toggleSign.ne_empty
    rw [toggleSign_of_typed typed, toggleSign_of_typed untyped, shaped.toggleSign_toggleSign]

/-- A numeral with a point is being typed. -/
structure HasPoint (c : Calculation) : Prop where
  editing : c.isResult = false
  point : '.' ∈ c.numeral.toList

namespace HasPoint

variable {c : Calculation} (hasPoint : c.HasPoint)
include hasPoint

theorem startFresh : c.startFresh = c := by
  rw [Calculation.startFresh, if_neg (by simp [hasPoint.editing])]

/-- A second point is ignored. -/
theorem typeChar_point : c.typeChar '.' = c := by
  have numeral : isNumeralChar '.' = true := rfl
  rw [Calculation.typeChar, if_pos numeral, hasPoint.startFresh]
  exact if_pos ⟨rfl, hasPoint.point⟩

/-- A digit goes behind the point. -/
theorem typeDigit (digit : Nat) : (c.typeDigit digit).HasPoint := by
  unfold Calculation.typeDigit Calculation.typeChar
  rw [hasPoint.startFresh]
  split
  · split
    · dsimp only
      split
      · exact hasPoint
      · refine ⟨hasPoint.editing, ?_⟩
        rw [String.toList_push]
        exact List.mem_append_left _ hasPoint.point
    · exact hasPoint
  · exact hasPoint

end HasPoint

/-- A point leaves a numeral with a point. -/
theorem hasPoint_typeChar (c : Calculation) : (c.typeChar '.').HasPoint := by
  have editing : c.startFresh.isResult = false := by
    unfold startFresh
    split
    · rfl
    · rename_i editing
      simpa using editing
  have numeral : isNumeralChar '.' = true := rfl
  rw [typeChar, if_pos numeral]
  dsimp only
  split
  · rename_i second
    exact ⟨editing, second.2⟩
  · refine ⟨editing, ?_⟩
    rw [String.toList_push]
    exact List.mem_append_right _ (List.mem_singleton_self _)

end Calculation

/-! ## Keys in a session -/

namespace Session

/-- The longer keys can be replaced by the shorter ones where the session stands. -/
inductive Absorbs (s : Session) : List Key → List Key → Prop
  | operator (first second : Operator) :
      Absorbs s [.operator first, .operator second] [.operator second]
  | sign : Absorbs s [.toggleSign, .toggleSign] []
  | point (digits : List Nat) :
      Absorbs s (.point :: digits.map .digit ++ [.point]) (.point :: digits.map .digit)
  | signBehindOperator (op : Operator) : Absorbs s [.operator op, .toggleSign] [.operator op]
  | evaluateBehindOperator (op : Operator) : Absorbs s [.operator op, .evaluate] [.operator op]
  /-- Clearing is one of these keys itself. -/
  | clear (key : Key) (edits : key ≠ .evaluate) : Absorbs s [key, .clearAll] [.clearAll]
  | failure (failed : (s.press .evaluate).2.failure.isSome) :
      Absorbs s [.evaluate, .evaluate] [.evaluate]
  | digit (value : Nat) (none : 9 < value) : Absorbs s [.digit value] []

theorem edit_congr (s : Session) {change change' : Calculation → Calculation}
    (same : change s.machine.calculation = change' s.machine.calculation) :
    s.edit change = s.edit change' := by
  rw [edit, edit, Machine.edit, Machine.edit, same]

theorem edit_self (s : Session) {change : Calculation → Calculation}
    (same : change s.machine.calculation = s.machine.calculation) : s.edit change = s := by
  rw [edit, Machine.edit, same]

/-- Where a numeral is missing there is nothing to evaluate. -/
theorem press_evaluate_of_unfinished {s : Session}
    (unfinished : Token.Unfinished s.machine.calculation.allTokens) :
    (s.press .evaluate).1 = s := by
  simp only [press_eq, resultAfter, Calculation.next, Calculation.logs, Calculation.fails,
    Calculation.answer_of_unfinished unfinished]
  rfl

/-- A failed evaluation shows that it failed, and does nothing else. -/
theorem press_evaluate_of_failed {s : Session} {fault : Fault}
    (failed : (s.press .evaluate).2.failure = some fault) :
    (s.press .evaluate).1 = { s with result := s.settings.errorIndicator } := by
  rw [press_failure, Calculation.fails] at failed
  split at failed
  · rename_i met answered
    simp only [press_eq, resultAfter, Calculation.next, Calculation.logs, Calculation.fails,
      answered]
    rfl
  · cases failed

/-- Digits behind a point leave the point where it is. -/
theorem after_hasPoint {s : Session} (hasPoint : s.machine.calculation.HasPoint)
    (digits : List Nat) :
    (s.after (digits.map fun digit => .press (.digit digit))).machine.calculation.HasPoint := by
  induction digits generalizing s with
  | nil => exact hasPoint
  | cons digit digits ih =>
      have next : (s.press (.digit digit)).1.machine.calculation.HasPoint := by
        rw [press_calculation]
        exact hasPoint.typeDigit digit
      exact ih next

/-- **Every rule is exact**: where the calculation is well formed, both lists of keys leave the
same session. -/
theorem Absorbs.after_eq {s : Session} (wellFormed : s.WellFormed) {longer shorter : List Key}
    (absorbs : s.Absorbs longer shorter) :
    s.after (longer.map .press) = s.after (shorter.map .press) := by
  cases absorbs with
  | operator first second =>
      show s.edit (fun c => (c.operate first).operate second) = s.edit (·.operate second)
      exact s.edit_congr (s.machine.calculation.operate_operate first second)
  | sign =>
      show s.edit (fun c => c.toggleSign.toggleSign) = s
      exact s.edit_self (Calculation.WellFormed.toggleSign_toggleSign wellFormed)
  | point digits =>
      have hasPoint : (s.press .point).1.machine.calculation.HasPoint := by
        rw [press_calculation]
        exact Calculation.hasPoint_typeChar _
      have typed := after_hasPoint hasPoint digits
      rw [List.map_append, after_append, List.map_cons, List.map_map]
      exact edit_self _ typed.typeChar_point
  | signBehindOperator op =>
      show (s.edit (·.operate op)).edit Calculation.toggleSign = s.edit (·.operate op)
      exact edit_self _ (s.machine.calculation.toggleSign_operate op)
  | evaluateBehindOperator op =>
      show ((s.edit (·.operate op)).press .evaluate).1 = s.edit (·.operate op)
      exact press_evaluate_of_unfinished (s.machine.calculation.unfinished_operate op)
  | clear key edits =>
      cases key with
      | evaluate => exact absurd rfl edits
      | _ => rfl
  | failure failed =>
      obtain ⟨fault, failed⟩ := Option.isSome_iff_exists.mp failed
      have first := press_evaluate_of_failed failed
      -- the machine is the same, so it fails again
      have again : ((s.press .evaluate).1.press .evaluate).2.failure = some fault := by
        rw [press_failure] at failed
        rw [press_failure, first]
        exact failed
      show ((s.press .evaluate).1.press .evaluate).1 = (s.press .evaluate).1
      rw [press_evaluate_of_failed again, first]
  | digit value none =>
      show s.edit (·.typeDigit value) = s
      exact s.edit_self (if_neg (by omega))

/-- **Redundant keys are absorbed.**  Between any run and any other, the longer keys of a rule
can be replaced by the shorter ones, or the other way round: the session at the end is the same,
and so are all frames behind them. -/
theorem absorbs_run (settings : Settings) (earlier later : List Step) {longer shorter : List Key}
    (absorbs : ((start settings).after earlier).Absorbs longer shorter) :
    let run (keys : List Key) := earlier ++ keys.map .press
    (start settings).after (run longer ++ later) = (start settings).after (run shorter ++ later) ∧
      ((start settings).after (run longer)).frames later =
        ((start settings).after (run shorter)).frames later := by
  intro run
  have wellFormed : ((start settings).after earlier).WellFormed :=
    (wellFormed_start settings).after earlier
  have same : (start settings).after (run longer) = (start settings).after (run shorter) := by
    rw [after_append, after_append]
    exact absorbs.after_eq wellFormed
  constructor
  · rw [after_append, after_append _ (run shorter), same]
  · rw [same]

/-- Twelve over nothing fails, and fails again; corrected, it succeeds the same. -/
theorem absorbs_run_division :
    let earlier : List Step := [.digit 1, .digit 2, .operator .divide, .digit 0].map .press
    let later : List Step := [.digit 6, .evaluate].map .press
    let s := (start .default).after earlier
    (s.press .evaluate).2.failure = some .divisionByZero ∧
      (s.after [.press .evaluate, .press .evaluate]).frames later =
        (s.after [.press .evaluate]).frames later := by
  intro earlier later s
  have failed : (s.press .evaluate).2.failure = some .divisionByZero := by decide +kernel
  have absorbs : s.Absorbs [.evaluate, .evaluate] [.evaluate] := .failure (by rw [failed]; rfl)
  have frames := (absorbs_run .default earlier later absorbs).2
  rw [after_append, after_append] at frames
  exact ⟨failed, frames⟩

end Session

end Calculator
