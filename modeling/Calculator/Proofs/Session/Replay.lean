/-
# Calculator.Proofs.Session.Replay -- the history can be calculated again

An entry keeps two texts and nothing else.  They are enough to repeat the calculation: the
expression is read back as the tokens that were evaluated, because these are numerals and
operators that tell themselves apart (`Token.render_injective`), also where a minus stands
beside a negative operand, or where an operand is the result of an earlier evaluation.
The session keeps its tolerance, so that evaluating them again answers the same value.

* `Calculation.WellFormed.logs_replays`: the entry of one evaluation;
* `history_replayable`: every entry of the history of every run.
-/
import Calculator.Proofs.Expression.Rendering
import Calculator.Proofs.Session.Invariant
import Calculator.Proofs.Session.Log

namespace Calculator

set_option autoImplicit false

/-- The entry's expression is the text of one list of tokens, and evaluating that list
answers the entry's result. -/
structure Entry.Replays (tolerance : Tolerance) (entry : Entry) : Prop where
  evaluates : ∃ value, evaluate tolerance (Token.read entry.expression) = .ok value ∧
    Numeral.shown value = entry.result
  reads : ∀ tokens, Token.Shaped tokens ∧ Token.render tokens = entry.expression ↔
    tokens = Token.read entry.expression

/-- What an evaluation logs replays, and is read back as what was evaluated. -/
theorem Calculation.WellFormed.logs_replays {c : Calculation} (wellFormed : c.WellFormed)
    {tolerance : Tolerance} {key : Key} {entry : Entry}
    (logged : c.logs tolerance key = some entry) :
    entry.Replays tolerance ∧ Token.read entry.expression = c.allTokens := by
  cases key with
  | evaluate =>
      rw [Calculation.logs] at logged
      split at logged
      · rename_i value answered
        obtain ⟨finished, evaluated⟩ := answer_eq_some_iff.mp answered
        obtain rfl := Option.some.inj logged
        have shaped : Token.Shaped c.allTokens := fun text => wellFormed.shaped_of_mem
        have something : c.allTokens ≠ [] := fun empty => finished (.inl empty)
        have read := Token.read_render something shaped
        refine ⟨⟨⟨value, ?_, rfl⟩, fun tokens => ?_⟩, read⟩
        · rw [read]
          exact evaluated
        · rw [read]
          constructor
          · rintro ⟨shaped', same⟩
            exact Token.render_injective shaped' shaped same
          · rintro rfl
            exact ⟨shaped, rfl⟩
      · cases logged
  | _ => cases logged

namespace Session

theorem press_replays {s : Session} (wellFormed : s.WellFormed) {key : Key} {entry : Entry}
    (appended : (s.press key).2.appended = some entry) :
    entry.Replays s.machine.tolerance ∧
      Token.read entry.expression = s.machine.calculation.allTokens := by
  rw [press_appended] at appended
  exact Calculation.WellFormed.logs_replays wellFormed appended

/-- **Every entry of the history can be calculated again.**  Its expression splits into
tokens that are written as that expression, and are the only ones that are; evaluating them
in the session answers a value that is shown as the entry's result.  When an entry is
added, they are the tokens that were evaluated. -/
theorem history_replayable (settings : Settings) (steps : List Step) :
    let s := (start settings).after steps
    (∀ entry ∈ s.history.entries,
      let tokens := Token.read entry.expression
      Token.render tokens = entry.expression ∧
        (∃ value, Calculator.evaluate s.machine.tolerance tokens = .ok value ∧
          Numeral.shown value = entry.result) ∧
        ∀ others, Token.Shaped others ∧ Token.render others = entry.expression ↔
          others = tokens) ∧
      ∀ key entry, (s.press key).2.appended = some entry →
        Token.read entry.expression = s.machine.calculation.allTokens := by
  intro s
  have start := wellFormed_start settings
  constructor
  · intro entry member
    have logged := (after_holds settings steps).latest.subset member
    obtain ⟨earlier, key, appended⟩ := exists_press_of_mem_logged logged
    have replays := (press_replays (start.after earlier) appended).1
    rw [after_tolerance, ← after_tolerance _ steps] at replays
    exact ⟨((replays.reads _).mpr rfl).2, replays.evaluates, replays.reads⟩
  · intro key entry appended
    exact (press_replays (start.after steps) appended).2

/-- Two thirds, of the other sign, minus minus five.  The result is an operand here with all
of its digits, and the second minus is the sign of the five. -/
theorem history_replayable_chained :
    let steps : List Step := [.digit 2, .operator .divide, .digit 3, .evaluate, .toggleSign,
      .operator .subtract, .digit 5, .toggleSign, .evaluate].map .press
    let s := (start .default).after steps
    let entry : Entry := ⟨"-0.6666666666666666 - -5", "4.33333333333333"⟩
    let tokens := [Token.numeral "-0.6666666666666666", .operator .subtract, .numeral "-5"]
    entry ∈ s.history.entries ∧
      (∃ value, Calculator.evaluate s.machine.tolerance tokens = .ok value ∧
        Numeral.shown value = entry.result) ∧
      ∀ others, Token.Shaped others ∧ Token.render others = entry.expression ↔
        others = tokens := by
  intro steps s entry tokens
  have logged : entry ∈ s.history.entries := by decide +kernel
  have read : Token.read entry.expression = tokens := by decide +kernel
  obtain ⟨-, evaluated, only⟩ := (history_replayable .default steps).1 entry logged
  rw [read] at evaluated only
  exact ⟨logged, evaluated, only⟩

end Session

end Calculator
