/-
# Calculator.Proofs.Expression.Rendering -- an expression's text tells its tokens

Tokens are written with single spaces between them.  `Token.read` goes back: it splits the
text at the spaces and takes a piece for an operator if it is an operator's symbol, and for
a numeral otherwise.

No token contains a space, and no numeral is a symbol: a minus that belongs to a numeral
has digits behind it, and one that is an operator stands alone.  So different expressions
have different texts.

* `Token.read_render`: what is written is read back;
* `Token.render_injective`: the text tells the tokens.
-/
import Mathlib.Data.List.Basic
import Calculator.Expression
import Calculator.Proofs.Numeral.Shape

namespace Calculator

set_option autoImplicit false

namespace Numeral

/-- No numeral has a space in it. -/
theorem Shaped.no_space {text : String} (shaped : Shaped text) : ' ' ∉ text.toList := by
  obtain ⟨negative, body, valid, rfl⟩ := shaped
  have inBody : ' ' ∉ body := by
    intro member
    rcases valid.chars ' ' member with digit | point
    · exact absurd digit (by decide)
    · exact absurd point (by decide)
  rw [toList_signed]
  cases negative <;> simp [inBody]

/-- No numeral is an operator's symbol: a character that a body may have is none, and a
minus in front of a body is not alone. -/
theorem Shaped.not_symbol {text : String} (shaped : Shaped text) :
    Operator.ofSymbol? text = none := by
  obtain ⟨negative, body, valid, rfl⟩ := shaped
  unfold Operator.ofSymbol?
  rw [toList_signed]
  split
  · rename_i c single
    cases negative with
    | true =>
        have empty : body = [] := (List.cons.inj single).2
        exact absurd empty valid.nonempty
    | false =>
        have char : c.isDigit ∨ c = '.' := valid.chars c (by
          have whole : body = [c] := single
          simp [whole])
        rw [Option.eq_none_iff_forall_ne_some]
        intro op read
        unfold Operator.ofChar? at read
        -- on the operators' characters: none of them is a digit or a point
        split at read
        case h_8 => cases read
        all_goals exact absurd char (by decide)
  · rfl

end Numeral

namespace Token

/-! ## One token -/

/-- The token of a text: an operator, if it is a symbol, and else a numeral. -/
def ofText (text : String) : Token :=
  match Operator.ofSymbol? text with
  | some op => .operator op
  | none => .numeral text

/-- A token that can be told among others: its text has no space, and is the text of no
other token. -/
structure Legible (token : Token) : Prop where
  noSpace : ' ' ∉ token.text.toList
  ofText_text : ofText token.text = token

theorem legible_operator (op : Operator) : Legible (.operator op) where
  noSpace := by cases op <;> decide
  ofText_text := by rw [ofText, text, Operator.ofSymbol?_symbol]

theorem legible_numeral {text : String} (shaped : Numeral.Shaped text) :
    Legible (.numeral text) where
  noSpace := shaped.no_space
  ofText_text := by rw [ofText, Token.text, shaped.not_symbol]

/-! ## Many tokens -/

/-- The tokens of a text in which single spaces stand between them. -/
def read (expression : String) : List Token :=
  (expression.toList.splitOn ' ').map fun piece => ofText (String.ofList piece)

/-- Every numeral among the tokens is an optional minus, digits, and at most one point. -/
def Shaped (tokens : List Token) : Prop := ∀ text, .numeral text ∈ tokens → Numeral.Shaped text

theorem Shaped.legible {tokens : List Token} (shaped : Shaped tokens) {token : Token}
    (member : token ∈ tokens) : token.Legible := by
  cases token with
  | numeral text => exact legible_numeral (shaped text member)
  | operator op => exact legible_operator op

/-- What is written is read back. -/
theorem read_render {tokens : List Token} (nonempty : tokens ≠ []) (shaped : Shaped tokens) :
    read (render tokens) = tokens := by
  have pieces : (render tokens).toList.splitOn ' ' = tokens.map fun token => token.text.toList := by
    have spaces : (render tokens).toList =
        [' '].intercalate (tokens.map fun token => token.text.toList) := by
      rw [render, String.toList_intercalate, List.map_map]
      rfl
    rw [spaces]
    apply List.splitOn_intercalate
    · intro piece member
      obtain ⟨token, inTokens, rfl⟩ := List.mem_map.mp member
      exact (shaped.legible inTokens).noSpace
    · simpa using nonempty
  have back (token : Token) (member : token ∈ tokens) :
      ofText (String.ofList token.text.toList) = token := by
    rw [String.ofList_toList]
    exact (shaped.legible member).ofText_text
  rw [read, pieces, List.map_map]
  exact (List.map_congr_left back).trans (List.map_id tokens)

/-- Nothing but the empty list is written as the empty text. -/
theorem render_ne_empty {tokens : List Token} (nonempty : tokens ≠ []) (shaped : Shaped tokens) :
    render tokens ≠ "" := by
  intro empty
  have alone : tokens = [.numeral ""] := by
    rw [← read_render nonempty shaped, empty]
    rfl
  have first := shaped "" (by simp [alone])
  exact first.ne_empty rfl

/-- **The text tells the tokens.** -/
theorem render_injective {tokens others : List Token} (shaped : Shaped tokens)
    (shaped' : Shaped others) (same : render tokens = render others) : tokens = others := by
  by_cases empty : tokens = []
  · by_contra different
    have present : others ≠ [] := fun none => different (empty.trans none.symm)
    have written := render_ne_empty present shaped'
    rw [← same, empty] at written
    exact written rfl
  · by_cases none : others = []
    · have written := render_ne_empty empty shaped
      rw [same, none] at written
      exact absurd rfl written
    · rw [← read_render empty shaped, same, read_render none shaped']

end Token

end Calculator
