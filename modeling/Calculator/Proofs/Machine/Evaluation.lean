/-
# Calculator.Proofs.Machine.Evaluation -- only a success changes the machine

Evaluating settles the numeral being typed before anything is known of its value, and
takes it back when a fault is met.  `Machine.evaluate_eq` is the same step without the
detour: `Calculation.answer` says what all tokens are worth, and a machine whose
calculation has no value stays as it is.

The detour leaves no trace for two reasons.  A numeral that was settled is the last
token, so taking the last token back restores it (`undo_commit`); and while the last
token is an operator, no numeral can have been settled (`commit_of_unfinished`).

* `Machine.evaluate_eq`: all that evaluating does;
* `answer_eq_none_iff`, `answer_eq_some_iff`: when there is an answer, and which;
* `Machine.evaluate_success_iff` and its like: when evaluating has which outcome.
-/
import Calculator.Machine
import Calculator.Proofs.Expression.Answer

namespace Calculator

set_option autoImplicit false

namespace Calculation

/-! ## Settling a numeral and taking it back -/

section Settling

variable {c : Calculation}

theorem allTokens_of_empty (empty : c.numeral = "") : c.allTokens = c.tokens := by
  simp [allTokens, empty]

theorem allTokens_of_nonempty (nonempty : c.numeral ≠ "") :
    c.allTokens = c.tokens ++ [.numeral c.numeral] := by
  simp [allTokens, nonempty]

theorem display_ofValue (value : Binary64) : (ofValue value).display = Numeral.ofValue value := by
  simp [display, allTokens, ofValue, Token.render, Token.text]

theorem commit_of_empty (empty : c.numeral = "") : c.commit = c := by
  simp [commit, empty]

theorem commit_of_nonempty (nonempty : c.numeral ≠ "") :
    c.commit = ⟨c.tokens ++ [.numeral c.numeral], "", c.isResult⟩ := by
  simp [commit, nonempty]

theorem commit_tokens (c : Calculation) : c.commit.tokens = c.allTokens := by
  by_cases empty : c.numeral = ""
  · rw [commit_of_empty empty, allTokens_of_empty empty]
  · rw [commit_of_nonempty empty, allTokens_of_nonempty empty]

theorem allTokens_eq_nil_iff (c : Calculation) :
    c.allTokens = [] ↔ c.tokens = [] ∧ c.numeral = "" := by
  by_cases empty : c.numeral = ""
  · simp [allTokens_of_empty empty, empty]
  · simp [allTokens_of_nonempty empty, empty]

/-- An operator settles the numeral and goes behind it. -/
theorem operate_eq (c : Calculation) (something : ¬ (c.tokens = [] ∧ c.numeral = ""))
    (op : Operator) :
    c.operate op = ⟨dropOperator c.allTokens ++ [.operator op], "", false⟩ := by
  rw [operate, if_neg (by simpa using something)]
  by_cases empty : c.numeral = ""
  · simp [commit, empty, allTokens_of_empty empty]
  · simp [commit, empty, allTokens_of_nonempty empty]

/-- Behind a numeral there is no operator to take the place of. -/
theorem operate_of_finished (finished : ¬ Token.Unfinished c.allTokens) (op : Operator) :
    c.operate op = ⟨c.allTokens ++ [.operator op], "", false⟩ := by
  have something : ¬ (c.tokens = [] ∧ c.numeral = "") := by
    rw [← c.allTokens_eq_nil_iff]
    intro nothing
    exact finished (.inl (by rw [nothing]))
  obtain ⟨text, last⟩ := Token.not_unfinished_iff.mp finished
  rw [c.operate_eq something, dropOperator, last]

/-- A numeral is settled as the last token. -/
theorem commit_of_unfinished (unfinished : Token.Unfinished c.allTokens) : c.commit = c := by
  by_cases empty : c.numeral = ""
  · exact commit_of_empty empty
  · rw [allTokens_of_nonempty empty] at unfinished
    exact absurd unfinished (Token.not_unfinished_iff.mpr ⟨c.numeral, List.getLast?_concat⟩)

/-- Taking back what was settled, if anything was. -/
theorem undo_commit (c : Calculation) :
    (if c.numeral.isEmpty then c.commit else c.commit.reopen) = c := by
  by_cases empty : c.numeral = ""
  · rw [if_pos (by simp [empty]), commit_of_empty empty]
  · rw [if_neg (by simp [empty]), commit_of_nonempty empty]
    simp [reopen]

end Settling

/-! ## What the tokens are worth -/

/-- The value or the fault of all tokens, the numeral being typed included; nothing when
an operand is missing. -/
def answer (tolerance : Tolerance) (c : Calculation) : Option (Except Fault Binary64) :=
  match c.allTokens.getLast? with
  | some (.numeral _) => some (evaluate tolerance c.allTokens)
  | _ => none

variable {tolerance : Tolerance} {c : Calculation}

theorem answer_of_unfinished (unfinished : Token.Unfinished c.allTokens) :
    c.answer tolerance = none := by
  rcases unfinished with nothing | ⟨op, last⟩
  · rw [answer, nothing]
    rfl
  · rw [answer, last]

theorem answer_of_finished (finished : ¬ Token.Unfinished c.allTokens) :
    c.answer tolerance = some (evaluate tolerance c.allTokens) := by
  obtain ⟨text, last⟩ := Token.not_unfinished_iff.mp finished
  rw [answer, last]

theorem answer_eq_none_iff : c.answer tolerance = none ↔ Token.Unfinished c.allTokens := by
  by_cases unfinished : Token.Unfinished c.allTokens
  · simp [answer_of_unfinished unfinished, unfinished]
  · simp [answer_of_finished unfinished, unfinished]

theorem answer_eq_some_iff {answer : Except Fault Binary64} :
    c.answer tolerance = some answer ↔
      ¬ Token.Unfinished c.allTokens ∧ evaluate tolerance c.allTokens = answer := by
  by_cases unfinished : Token.Unfinished c.allTokens
  · simp [answer_of_unfinished unfinished, unfinished]
  · simp [answer_of_finished unfinished, unfinished]

/-- Tokens that have a value are finished. -/
theorem answer_eq_ok_iff {value : Binary64} :
    c.answer tolerance = some (.ok value) ↔ evaluate tolerance c.allTokens = .ok value := by
  rw [answer_eq_some_iff]
  exact ⟨And.right, fun evaluated => ⟨finished_of_evaluate evaluated, evaluated⟩⟩

end Calculation

namespace Machine

/-- All that evaluating does.  With nothing to evaluate, or a fault, it does nothing. -/
theorem evaluate_eq (m : Machine) :
    m.evaluate =
      match m.calculation.answer m.tolerance with
      | none => (m, .skipped)
      | some (.error fault) => (m, .failed fault)
      | some (.ok value) =>
          let entry : Entry := ⟨Token.render m.calculation.allTokens, Numeral.shown value⟩
          (⟨.ofValue value, (m.history.push entry).1, m.tolerance⟩, .success value entry) := by
  by_cases unfinished : Token.Unfinished m.calculation.allTokens
  · have kept := Calculation.commit_of_unfinished unfinished
    rw [Calculation.answer_of_unfinished unfinished, evaluate, Calculation.commit_tokens, kept]
    rcases unfinished with nothing | ⟨op, last⟩
    · rw [nothing]
      rfl
    · rw [last]
  · obtain ⟨text, last⟩ := Token.not_unfinished_iff.mp unfinished
    rw [Calculation.answer_of_finished unfinished, evaluate, Calculation.commit_tokens, last]
    cases answered : Calculator.evaluate m.tolerance m.calculation.allTokens with
    | ok value => rfl
    | error fault =>
        have other : fault ≠ .incomplete := by
          rintro rfl
          exact unfinished (unfinished_of_evaluate answered)
        dsimp only
        rw [if_neg other, Calculation.undo_commit]

/-! ## The three outcomes -/

section Outcome

variable (m : Machine)

theorem evaluate_skipped_iff :
    m.evaluate.2 = .skipped ↔ Token.Unfinished m.calculation.allTokens := by
  rw [evaluate_eq, ← Calculation.answer_eq_none_iff]
  rcases m.calculation.answer m.tolerance with _ | fault | value <;> simp

theorem evaluate_failed_iff (fault : Fault) :
    m.evaluate.2 = .failed fault ↔
      ¬ Token.Unfinished m.calculation.allTokens ∧
        Calculator.evaluate m.tolerance m.calculation.allTokens = .error fault := by
  rw [evaluate_eq, ← Calculation.answer_eq_some_iff]
  rcases m.calculation.answer m.tolerance with _ | met | value <;> simp

theorem evaluate_success_iff (value : Binary64) :
    (∃ entry, m.evaluate.2 = .success value entry) ↔
      Calculator.evaluate m.tolerance m.calculation.allTokens = .ok value := by
  rw [← Calculation.answer_eq_ok_iff, evaluate_eq]
  rcases m.calculation.answer m.tolerance with _ | fault | other <;> simp

theorem evaluate_unchanged (unsuccessful : ∀ value entry, m.evaluate.2 ≠ .success value entry) :
    m.evaluate.1 = m := by
  rw [evaluate_eq] at unsuccessful ⊢
  generalize m.calculation.answer m.tolerance = answer at unsuccessful ⊢
  rcases answer with _ | fault | value
  · rfl
  · rfl
  · exact (unsuccessful value _ rfl).elim

end Outcome

end Machine

end Calculator
