/-
# Calculator.Proofs.Session.Integers -- expressions of integers, evaluated and shown

Sums, differences and products of integers are computed exactly as long as nothing on the way
exceeds `2 ^ 53`.  A total below `10 ^ 15` is then shown as itself in both displays: as the
result, of which fifteen digits are shown, and as the equation, which is the numeral that the
value goes back into an expression as.

* `evaluate_integers`: the value of an expression of integers, and what is shown of it.
-/
import Calculator.Proofs.Expression.Integers
import Calculator.Proofs.Session.Typing

namespace Calculator

set_option autoImplicit false

/-- The numerals of a chain are its operands. -/
theorem mem_operands_of_mem_tokens {first text : String} {links : List (Operator × String)}
    (member : .numeral text ∈ Token.numeral first :: linkTokens links) :
    text ∈ first :: links.map Prod.snd := by
  rcases List.mem_cons.mp member with same | behind
  · cases same
    exact List.mem_cons_self
  · obtain ⟨link, among, within⟩ := List.mem_flatMap.mp behind
    obtain rfl : text = link.2 := by simpa using within
    exact List.mem_cons_of_mem first (List.mem_map_of_mem among)

/-- A chain of numerals that can be typed can be typed. -/
theorem exists_typesExpression_chain {first : String} {links : List (Operator × String)}
    (shaped : ∀ text ∈ first :: links.map Prod.snd, Numeral.Shaped text) :
    ∃ script : String, TypesExpression script.toList (.numeral first :: linkTokens links) := by
  have expression := (SumTree.ofChain first links).expression
  rw [SumTree.tokens_ofChain] at expression
  obtain ⟨script, typed⟩ := exists_typesExpression expression.1 expression.2
    fun text member => shaped text (mem_operands_of_mem_tokens member)
  exact ⟨String.ofList script, by rwa [String.toList_ofList]⟩

namespace Session

/-- **Arithmetic of integers is exact.**  An expression of integer numerals, with plus, minus and
times between them, whose operands and partial results do not exceed `2 ^ 53`, has its total as
its value; and when the total is below `10 ^ 15`, typing the expression where none is being
entered and evaluating it shows the total in both displays. -/
theorem evaluate_integers {first : String} {links : List (Operator × String)}
    (numerals : ∀ text ∈ first :: links.map Prod.snd,
      Numeral.IsInteger text ∧ (Numeral.integer text).natAbs ≤ 2 ^ 53)
    (operators : ∀ link ∈ links, link.1 ≠ .divide)
    (small : ∀ n ∈ (SumTree.ofChain first links).partials Numeral.integer, n.natAbs ≤ 2 ^ 53)
    {total : Int} (worth : (SumTree.ofChain first links).total Numeral.integer = total) :
    (∀ tolerance, ∃ x, Calculator.evaluate tolerance (.numeral first :: linkTokens links) = .ok x ∧
      x.isFinite ∧ x.toRat = total) ∧
    (∃ script : String, TypesExpression script.toList (.numeral first :: linkTokens links)) ∧
    (total.natAbs < 10 ^ 15 → ∀ (s : Session) (script : String),
      s.machine.calculation.phase ≠ .entering →
      TypesExpression script.toList (.numeral first :: linkTokens links) →
      ∃ typed frame, s.runScript script = (typed, .ok frame) ∧
        (typed.press .evaluate).2.result = toString total ∧
        (typed.press .evaluate).2.equation = toString total) := by
  have evaluates := fun tolerance =>
    exists_evaluate_of_integers tolerance numerals operators small
  rw [worth] at evaluates
  refine ⟨fun tolerance => ?_, ?_, fun short s script idle types => ?_⟩
  · obtain ⟨x, evaluated, represents⟩ := evaluates tolerance
    exact ⟨x, evaluated, represents.isFinite, represents.toRat⟩
  · exact exists_typesExpression_chain fun text member => (numerals text member).1.shaped
  · obtain ⟨x, evaluated, represents⟩ := evaluates s.machine.tolerance
    obtain ⟨typed, frame, run, -, answered⟩ :=
      press_evaluate_typed (startFresh_of_phase idle) types evaluated
    refine ⟨typed, frame, run, ?_, ?_⟩
    · rw [answered, Numeral.shown_of_represents represents short]
    · rw [answered, Numeral.ofValue_of_represents represents short]

/-- From `2 ^ 53` three times `3 * 10 ^ 15` is taken, and the rest is shown to its last digit. -/
theorem evaluate_integers_greatest :
    let links := [(Operator.subtract, "3"), (.multiply, "3000000000000000")]
    (∃ x, Calculator.evaluate .default (.numeral "9007199254740992" :: linkTokens links) = .ok x ∧
      x.isFinite ∧ x.toRat = (7199254740992 : Int)) ∧
    ∃ typed frame, (start .default).runScript "9007199254740992-3*3000000000000000" =
        (typed, .ok frame) ∧
      (typed.press .evaluate).2.result = toString (7199254740992 : Int) ∧
      (typed.press .evaluate).2.equation = toString (7199254740992 : Int) := by
  intro links
  have integer (text : String) (present : text.toList ≠ []) (digits : ∀ c ∈ text.toList, c.isDigit) :
      Numeral.IsInteger text :=
    ⟨false, text.toList, present, digits, by simp [Numeral.signed]⟩
  have numerals : ∀ text ∈ "9007199254740992" :: links.map Prod.snd,
      Numeral.IsInteger text ∧ (Numeral.integer text).natAbs ≤ 2 ^ 53 := by
    intro text member
    have cases : text = "9007199254740992" ∨ text = "3" ∨ text = "3000000000000000" := by
      simpa [links] using member
    rcases cases with rfl | rfl | rfl
    · exact ⟨integer _ (by decide) (by simp), by decide +kernel⟩
    · exact ⟨integer _ (by decide) (by simp), by decide +kernel⟩
    · exact ⟨integer _ (by decide) (by simp), by decide +kernel⟩
  have worth : (SumTree.ofChain "9007199254740992" links).total Numeral.integer = 7199254740992 := by
    decide +kernel
  obtain ⟨values, -, shows⟩ :=
    evaluate_integers numerals (by decide) (by decide +kernel) worth
  have first : TypesNumeral "9007199254740992".toList "9007199254740992" := by
    have body : Numeral.Body "9007199254740992".toList := ⟨by decide, by simp, by decide⟩
    exact .intro '9' "007199254740992".toList false body (by decide)
  have second : TypesNumeral "3".toList "3" :=
    .intro '3' [] false ⟨by decide, by simp, by decide⟩ (by decide)
  have third : TypesNumeral "3000000000000000".toList "3000000000000000" := by
    have body : Numeral.Body "3000000000000000".toList := ⟨by decide, by simp, by decide⟩
    exact .intro '3' "000000000000000".toList false body (by decide)
  have typed : TypesExpression "9007199254740992-3*3000000000000000".toList
      (.numeral "9007199254740992" :: linkTokens links) :=
    ((TypesExpression.numeral first).operation (by decide) second).operation (by decide) third
  exact ⟨values .default, shows (by decide) (start .default) _ (by decide) typed⟩

end Session

end Calculator
