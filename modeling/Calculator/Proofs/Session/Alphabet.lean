/-
# Calculator.Proofs.Session.Alphabet -- the characters that a session shows

Both displays, the history and the texts of faults are made of few characters: digits, the
point, the signs, the mark of an exponent, and the spaces between the tokens of an expression
(`isGlyph`).  Only the error indicator is a text of its own, and it stands alone: in the result
display after a failure, and nowhere else.

* `Numeral.spelled_shown`, `Token.spelled_render`: results and expressions;
* `Spelled.pressEach`: the session that keys leave, and their frames.
-/
import Calculator.Proofs.Expression.Complaint
import Calculator.Proofs.Session.Display
import Calculator.Proofs.Session.Invariant
import Calculator.Proofs.Session.Log

namespace Calculator

set_option autoImplicit false

/-- The characters of numerals, of results and of operators, and the space. -/
def isGlyph (c : Char) : Bool := c.isDigit || ".-+×÷E ".toList.contains c

/-- A text of such characters. -/
def Spelled (text : String) : Prop := ∀ c ∈ text.toList, isGlyph c

theorem isGlyph_of_isDigit {c : Char} (digit : c.isDigit) : isGlyph c := by
  rw [isGlyph, digit, Bool.true_or]

theorem spelled_emptyDisplay : Spelled emptyDisplay := by
  intro c member
  obtain rfl := List.mem_singleton.mp member
  rfl

/-! ## Numerals and results -/

namespace Numeral

theorem isGlyph_of_body {body : List Char} (valid : Body body) {c : Char} (member : c ∈ body) :
    isGlyph c := by
  rcases valid.chars c member with digit | rfl
  · exact isGlyph_of_isDigit digit
  · rfl

theorem spelled_signed (negative : Bool) {body : List Char} (each : ∀ c ∈ body, isGlyph c) :
    Spelled (signed negative body) := by
  intro c member
  rw [toList_signed] at member
  cases negative with
  | false => exact each c member
  | true =>
      rcases List.mem_cons.mp member with rfl | behind
      · rfl
      · exact each c behind

theorem Shaped.spelled {text : String} (shaped : Shaped text) : Spelled text := by
  obtain ⟨negative, body, valid, rfl⟩ := shaped
  exact spelled_signed negative fun c member => isGlyph_of_body valid member

theorem isGlyph_of_mem_mantissa {d : Decimal} {c : Char} (member : c ∈ d.mantissa) :
    isGlyph c := by
  have digits (c : Char) (member : c ∈ Decimal.digits d.coefficient) : isGlyph c :=
    isGlyph_of_isDigit (Decimal.isDigit_of_mem_digits member)
  unfold Decimal.mantissa at member
  split at member
  · rename_i first second rest split
    rw [split] at digits
    rcases List.mem_cons.mp member with rfl | behind
    · exact digits c (by simp)
    · rcases List.mem_cons.mp behind with rfl | rest
      · rfl
      · exact digits c (List.mem_cons_of_mem _ rest)
  · exact digits c member

theorem isGlyph_of_mem_exponentMark {place : Int} {c : Char} (member : c ∈ exponentMark place) :
    isGlyph c := by
  rcases List.mem_cons.mp member with rfl | behind
  · rfl
  · rcases List.mem_cons.mp behind with rfl | digits
    · split <;> rfl
    · exact isGlyph_of_isDigit (Decimal.isDigit_of_mem_padded digits)

theorem isGlyph_of_mem_shownMagnitude {m : Magnitude} {c : Char} (member : c ∈ shownMagnitude m) :
    isGlyph c := by
  unfold shownMagnitude at member
  dsimp only at member
  split at member
  · exact isGlyph_of_body (body_positional _) member
  · rcases List.mem_append.mp member with inMantissa | inExponent
    · exact isGlyph_of_mem_mantissa inMantissa
    · exact isGlyph_of_mem_exponentMark inExponent

/-- The text of a result. -/
theorem spelled_shown {x : Binary64} (finite : x.isFinite) : Spelled (shown x) := by
  obtain ⟨negative, m, rfl⟩ := Binary64.exists_finite finite
  rw [shown]
  split
  · exact spelled_emptyDisplay
  · exact spelled_signed negative fun c member => isGlyph_of_mem_shownMagnitude member

end Numeral

/-! ## Expressions -/

/-- What stands in texts with a separator between them stands in one of the texts, or in the
separator. -/
theorem mem_toList_intercalate {separator : String} {texts : List String} {c : Char}
    (member : c ∈ (separator.intercalate texts).toList) :
    c ∈ separator.toList ∨ ∃ text ∈ texts, c ∈ text.toList := by
  rw [String.toList_intercalate] at member
  induction texts with
  | nil => simp at member
  | cons text texts ih =>
      cases texts with
      | nil =>
          right
          exact ⟨text, by simp, by simpa using member⟩
      | cons next texts =>
          rw [List.map_cons, List.map_cons, List.intercalate_cons_cons, List.mem_append,
            List.mem_append] at member
          rcases member with (first | between) | later
          · exact .inr ⟨text, by simp, first⟩
          · exact .inl between
          · rcases ih later with between | ⟨other, inTexts, found⟩
            · exact .inl between
            · exact .inr ⟨other, List.mem_cons_of_mem _ inTexts, found⟩

theorem Operator.spelled_symbol (op : Operator) : Spelled op.symbol := by
  intro c member
  obtain rfl : c = op.glyph := by simpa [symbol] using member
  cases op <;> rfl

theorem Token.spelled_render {tokens : List Token} (each : ∀ token ∈ tokens, Spelled token.text) :
    Spelled (render tokens) := by
  intro c member
  rcases mem_toList_intercalate member with space | ⟨text, inTexts, found⟩
  · obtain rfl := List.mem_singleton.mp space
    rfl
  · obtain ⟨token, inTokens, rfl⟩ := List.mem_map.mp inTexts
    exact each token inTokens c found

namespace Calculation.WellFormed

variable {c : Calculation} (wellFormed : c.WellFormed)
include wellFormed

theorem spelled_text {token : Token} (member : token ∈ c.allTokens) : Spelled token.text := by
  cases token with
  | operator op => exact op.spelled_symbol
  | numeral text => exact (wellFormed.shaped_of_mem member).spelled

theorem spelled_render : Spelled (Token.render c.allTokens) :=
  Token.spelled_render fun _ member => wellFormed.spelled_text member

theorem spelled_display : Spelled c.display := by
  unfold Calculation.display
  split
  · exact spelled_emptyDisplay
  · exact wellFormed.spelled_render

end Calculation.WellFormed

/-! ## Entries, faults and sessions -/

/-- An entry whose texts are spelled. -/
structure Entry.Spelled (entry : Entry) : Prop where
  expression : Calculator.Spelled entry.expression
  result : Calculator.Spelled entry.result

/-- A fault of an evaluation, which names a spelled text if it names any. -/
structure Fault.Spelled (fault : Fault) : Prop where
  numerical : fault.Numerical
  text : ∀ text, fault = .badNumeral text → Calculator.Spelled text

/-- A frame shows spelled texts, or the error indicator as the result. -/
structure Frame.Spelled (indicator : String) (frame : Frame) : Prop where
  equation : Calculator.Spelled frame.equation
  result : frame.result = indicator ∨ Calculator.Spelled frame.result
  failure : ∀ fault, frame.failure = some fault → fault.Spelled

namespace Calculation.WellFormed

variable {c : Calculation} (wellFormed : c.WellFormed) (tolerance : Tolerance) (key : Key)
include wellFormed

theorem spelled_logs {entry : Entry} (logged : c.logs tolerance key = some entry) :
    entry.Spelled := by
  cases key with
  | evaluate =>
      rw [Calculation.logs] at logged
      split at logged
      · rename_i value answered
        obtain rfl := Option.some.inj logged
        have finite := isFinite_of_evaluate (answer_eq_some_iff.mp answered).2
        exact ⟨wellFormed.spelled_render, Numeral.spelled_shown finite⟩
      · cases logged
  | _ => cases logged

theorem spelled_fails {fault : Fault} (failed : c.fails tolerance key = some fault) :
    fault.Spelled := by
  refine ⟨wellFormed.fails_numerical failed, ?_⟩
  rintro text rfl
  cases key with
  | evaluate =>
      rw [Calculation.fails] at failed
      split at failed
      · rename_i met answered
        obtain rfl := Option.some.inj failed
        obtain ⟨token, member, rfl⟩ :=
          exists_token_of_badNumeral (answer_eq_some_iff.mp answered).2
        exact wellFormed.spelled_text member
      · cases failed
  | _ => cases failed

end Calculation.WellFormed

/-- A session that shows and keeps spelled texts only, but for the error indicator. -/
structure Session.Spelled (s : Session) : Prop where
  wellFormed : s.WellFormed
  result : s.result = s.settings.errorIndicator ∨ Calculator.Spelled s.result
  entries : ∀ entry ∈ s.history.entries, entry.Spelled

namespace Session

theorem spelled_start (settings : Settings) : (start settings).Spelled where
  wellFormed := wellFormed_start settings
  result := .inr spelled_emptyDisplay
  entries entry member := by cases member

namespace Spelled

variable {s : Session} (spelled : s.Spelled)
include spelled

theorem resultAfter (key : Key) :
    s.resultAfter key = s.settings.errorIndicator ∨ Calculator.Spelled (s.resultAfter key) := by
  unfold Session.resultAfter
  split
  · exact .inr spelled_emptyDisplay
  · rename_i logged
    exact .inr (spelled.wellFormed.spelled_logs _ _ logged).result
  · exact .inl rfl
  · exact spelled.result

theorem record {appended : Option Entry} (new : ∀ entry, appended = some entry → entry.Spelled) :
    ∀ entry ∈ (s.history.record appended).entries, entry.Spelled := by
  cases appended with
  | none => exact spelled.entries
  | some last =>
      intro entry member
      rcases List.mem_append.mp ((s.history.push_suffix last).subset member) with held | added
      · exact spelled.entries entry held
      · obtain rfl := List.mem_singleton.mp added
        exact new entry rfl

theorem press (key : Key) : (s.press key).1.Spelled where
  wellFormed := spelled.wellFormed.step (.press key)
  result := by
    rw [press_eq]
    exact spelled.resultAfter key
  entries := by
    rw [press_history, press_appended]
    exact spelled.record fun entry => spelled.wellFormed.spelled_logs _ _

theorem clearHistory : s.clearHistory.Spelled where
  wellFormed := spelled.wellFormed
  result := spelled.result
  entries entry member := by cases member

theorem frame : s.frame.Spelled s.settings.errorIndicator where
  equation := spelled.wellFormed.spelled_display
  result := spelled.result
  failure fault failed := by cases failed

theorem press_frame (key : Key) : (s.press key).2.Spelled s.settings.errorIndicator := by
  have shown := (spelled.press key).frame
  rw [Session.press_frame, press_settings] at shown
  refine ⟨shown.equation, shown.result, fun fault failed => ?_⟩
  rw [press_failure] at failed
  exact spelled.wellFormed.spelled_fails _ _ failed

/-- **A run shows spelled texts only, but for the error indicator.** -/
theorem pressEach (keys : List Key) :
    (s.pressEach keys).1.Spelled ∧
      ∀ frame ∈ (s.pressEach keys).2, frame.Spelled s.settings.errorIndicator := by
  induction keys generalizing s with
  | nil => exact ⟨spelled, fun frame member => by cases member⟩
  | cons key keys ih =>
      obtain ⟨left, later⟩ := ih (spelled.press key)
      refine ⟨left, fun frame member => ?_⟩
      rcases List.mem_cons.mp member with rfl | behind
      · exact spelled.press_frame key
      · rw [← s.press_settings key]
        exact later frame behind

end Spelled

end Session

end Calculator
