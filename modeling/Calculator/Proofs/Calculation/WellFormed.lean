/-
# Calculator.Proofs.Calculation.WellFormed -- calculations that keys can build

Whatever keys are pressed, the tokens of a calculation alternate, and the last of them
is a numeral only when it is a result: what is typed stays apart until an operator
follows.  A result stands alone and has a value, so that an evaluation may collapse to
it and a sign key may edit it.  `WellFormed` says so, and `WellFormed.next` that every
key keeps it.

* `WellFormed.next`: one key;
* `WellFormed.fails_numerical`: a well-formed calculation fails by its numbers only.
-/
import Mathlib.Data.List.Basic
import Calculator.Proofs.Expression.Answer
import Calculator.Proofs.Session.Run

namespace Calculator

set_option autoImplicit false

namespace Token

/-! ## Where an operator fits -/

theorem Alternates.append_numeral {tokens : List Token} (alternates : Alternates tokens)
    (unfinished : Unfinished tokens) (text : String) : Alternates (tokens ++ [.numeral text]) := by
  refine alternates_append_singleton.mpr ⟨alternates, ?_⟩
  simp [Fits, isNumeral, alternates.unfinished_iff.mp unfinished]

/-- An operator fits behind a numeral, and in place of another operator. -/
theorem Alternates.append_operator {tokens : List Token} (alternates : Alternates tokens)
    (present : tokens ≠ []) (op : Operator) :
    Alternates (Calculation.dropOperator tokens ++ [.operator op]) := by
  obtain empty | ⟨front, last, rfl⟩ := List.eq_nil_or_concat' tokens
  · exact absurd empty present
  · obtain ⟨earlier, fits⟩ := alternates_append_singleton.mp alternates
    cases last with
    | operator other =>
        simp only [Calculation.dropOperator, List.getLast?_append, List.getLast?_singleton,
          Option.some_or, List.dropLast_concat]
        exact alternates_append_singleton.mpr ⟨earlier, fits⟩
    | numeral text =>
        simp only [Calculation.dropOperator, List.getLast?_append, List.getLast?_singleton,
          Option.some_or]
        refine alternates_append_singleton.mpr ⟨alternates, ?_⟩
        simp only [Fits, isNumeral, true_iff] at fits
        simp only [Fits, isNumeral, Bool.false_eq_true, false_iff, List.length_append,
          List.length_singleton]
        omega

theorem mem_of_mem_dropOperator {tokens : List Token} {token : Token}
    (member : token ∈ Calculation.dropOperator tokens) : token ∈ tokens := by
  unfold Calculation.dropOperator at member
  split at member
  · exact List.dropLast_subset tokens member
  · exact member

end Token

namespace Calculation

/-! ## Well-formed calculations -/

/-- What holds of every calculation that keys have built: numerals and operators
alternate; a numeral is last only as a result; a result is one numeral with a value,
and nothing is typed behind it; and every numeral, settled or typed, is an optional
minus, digits, and at most one point. -/
structure WellFormed (c : Calculation) : Prop where
  alternates : Token.Alternates c.tokens
  result_of_numeral : ∀ text, c.tokens.getLast? = some (.numeral text) → c.isResult
  result : c.isResult →
    ∃ text, c.tokens = [.numeral text] ∧ (Numeral.value? text).isSome ∧ c.numeral = ""
  numerals : ∀ text, .numeral text ∈ c.tokens → Numeral.Shaped text
  typed : c.numeral ≠ "" → Numeral.Shaped c.numeral

theorem wellFormed_empty : empty.WellFormed where
  alternates := Token.alternatesFrom_nil 0
  result_of_numeral _ last := by cases last
  result isResult := by cases isResult
  numerals _ member := by cases member
  typed nonempty := absurd rfl nonempty

/-- A finite value leaves a well-formed calculation: its numeral reads as the value. -/
theorem wellFormed_ofValue {x : Binary64} (finite : x.isFinite) : (ofValue x).WellFormed where
  alternates := by
    rw [ofValue, Token.Alternates, Token.alternatesFrom_cons]
    exact ⟨by simp [Token.Fits, Token.isNumeral], Token.alternatesFrom_nil 1⟩
  result_of_numeral _ _ := rfl
  result _ := ⟨_, rfl, by rw [Numeral.value?_ofValue finite]; rfl, rfl⟩
  numerals text member := by
    obtain rfl : text = Numeral.ofValue x := by simpa [ofValue] using member
    exact Numeral.shaped_ofValue finite
  typed nonempty := absurd rfl nonempty

namespace WellFormed

variable {c : Calculation} (wellFormed : c.WellFormed)
include wellFormed

/-- A numeral is typed only where one is missing. -/
theorem unfinished_of_typed (nonempty : c.numeral ≠ "") : Token.Unfinished c.tokens := by
  by_contra finished
  obtain ⟨text, last⟩ := Token.not_unfinished_iff.mp finished
  obtain ⟨-, -, -, empty⟩ := wellFormed.result (wellFormed.result_of_numeral text last)
  exact nonempty empty

theorem alternates_allTokens : Token.Alternates c.allTokens := by
  by_cases empty : c.numeral = ""
  · rw [allTokens_of_empty empty]
    exact wellFormed.alternates
  · rw [allTokens_of_nonempty empty]
    exact wellFormed.alternates.append_numeral (wellFormed.unfinished_of_typed empty) _

theorem shaped_of_mem {text : String} (member : .numeral text ∈ c.allTokens) :
    Numeral.Shaped text := by
  by_cases empty : c.numeral = ""
  · rw [allTokens_of_empty empty] at member
    exact wellFormed.numerals text member
  · rw [allTokens_of_nonempty empty, List.mem_append, List.mem_singleton] at member
    rcases member with settled | typed
    · exact wellFormed.numerals text settled
    · obtain rfl := Token.numeral.inj typed
      exact wellFormed.typed empty

/-! ## Every key -/

theorem startFresh : c.startFresh.WellFormed ∧ c.startFresh.isResult = false := by
  unfold Calculation.startFresh
  split
  · exact ⟨wellFormed_empty, rfl⟩
  · rename_i editing
    exact ⟨wellFormed, by simpa using editing⟩

theorem typeChar (ch : Char) : (c.typeChar ch).WellFormed := by
  unfold Calculation.typeChar
  split
  · rename_i isNumeralChar
    have char : ch.isDigit ∨ ch = '.' := by simpa [Calculation.isNumeralChar] using isNumeralChar
    obtain ⟨fresh, editing⟩ := wellFormed.startFresh
    dsimp only
    split
    · exact fresh
    · rename_i onePoint
      refine ⟨fresh.alternates, fresh.result_of_numeral, ?_, fresh.numerals, fun _ => ?_⟩
      · intro isResult
        rw [editing] at isResult
        cases isResult
      · by_cases empty : c.startFresh.numeral = ""
        · rw [empty]
          exact Numeral.shaped_singleton char
        · exact (fresh.typed empty).push char fun point member => onePoint ⟨point, member⟩
  · exact wellFormed

theorem typeDigit (digit : Nat) : (c.typeDigit digit).WellFormed := by
  unfold Calculation.typeDigit
  split
  · exact wellFormed.typeChar _
  · exact wellFormed

theorem operate (op : Operator) : (c.operate op).WellFormed := by
  by_cases nothing : c.tokens = [] ∧ c.numeral = ""
  · rw [Calculation.operate, if_pos (by simp [nothing])]
    refine ⟨wellFormed.alternates, ?_, ?_, wellFormed.numerals, wellFormed.typed⟩
    · intro text last
      simp [nothing.1] at last
    · intro isResult
      cases isResult
  · rw [c.operate_eq nothing op]
    refine ⟨wellFormed.alternates_allTokens.append_operator ?_ op, ?_, ?_, ?_, ?_⟩
    · rwa [Ne, c.allTokens_eq_nil_iff]
    · intro text last
      simp at last
    · intro isResult
      cases isResult
    · intro text member
      rw [List.mem_append, List.mem_singleton] at member
      rcases member with earlier | last
      · exact wellFormed.shaped_of_mem (Token.mem_of_mem_dropOperator earlier)
      · cases last
    · intro nonempty
      exact absurd rfl nonempty

/-- A result keeps having a value when its sign is changed. -/
theorem toggleSign : c.toggleSign.WellFormed := by
  by_cases empty : c.numeral = ""
  · rw [Calculation.toggleSign, if_pos (by simp [empty])]
    split
    · rename_i text last
      have isResult := wellFormed.result_of_numeral text last
      obtain ⟨only, alone, valued, -⟩ := wellFormed.result isResult
      obtain rfl : only = text := by simpa [alone] using last
      have shaped := wellFormed.numerals only (by simp [alone])
      have toggled : (Numeral.value? (Numeral.toggleSign only)).isSome := by
        rwa [shaped.value?_toggleSign, Option.isSome_map]
      simp only [alone, List.dropLast_singleton, List.nil_append]
      refine ⟨?_, fun _ _ => isResult, fun _ => ⟨_, rfl, toggled, empty⟩, ?_, ?_⟩
      · simp [Token.Alternates, Token.alternatesFrom_cons, Token.alternatesFrom_nil, Token.Fits,
          Token.isNumeral]
      · intro other member
        obtain rfl : other = Numeral.toggleSign only := by simpa using member
        exact shaped.toggleSign
      · intro nonempty
        exact absurd empty nonempty
    · exact wellFormed
  · rw [Calculation.toggleSign, if_neg (by simp [empty])]
    refine ⟨wellFormed.alternates, wellFormed.result_of_numeral, ?_, wellFormed.numerals, ?_⟩
    · intro isResult
      obtain ⟨-, -, -, none⟩ := wellFormed.result isResult
      exact absurd none empty
    · intro _
      exact (wellFormed.typed empty).toggleSign

/-- **Every key keeps a calculation well formed.** -/
theorem next (tolerance : Tolerance) (key : Key) : (c.next tolerance key).WellFormed := by
  cases key with
  | digit value => exact wellFormed.typeDigit value
  | point => exact wellFormed.typeChar '.'
  | operator op => exact wellFormed.operate op
  | toggleSign => exact wellFormed.toggleSign
  | clearAll => exact wellFormed_empty
  | evaluate =>
      rw [Calculation.next]
      split
      · rename_i value evaluated
        exact wellFormed_ofValue (isFinite_of_evaluate (answer_eq_some_iff.mp evaluated).2)
      · exact wellFormed

/-- A fault of a well-formed calculation is in its numbers. -/
theorem fails_numerical {tolerance : Tolerance} {key : Key} {fault : Fault}
    (failed : c.fails tolerance key = some fault) : fault.Numerical := by
  cases key with
  | evaluate =>
      rw [Calculation.fails] at failed
      split at failed
      · rename_i met evaluated
        obtain rfl := Option.some.inj failed
        obtain ⟨finished, faulty⟩ := answer_eq_some_iff.mp evaluated
        exact faultsNumerical_evaluate tolerance wellFormed.alternates_allTokens finished met faulty
      · cases failed
  | _ => cases failed

end WellFormed

end Calculation

end Calculator
