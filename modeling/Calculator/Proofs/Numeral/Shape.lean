/-
# Calculator.Proofs.Numeral.Shape -- the texts of numerals, signs apart

`Body` is what digits and points make when they are typed: at least one of them and
at most one point.  A numeral's text is `Shaped` when it is a body with or without
a minus in front.  A shaped text need not have a value -- a point alone has none --
but its sign can be changed back and forth.

* `Shaped.toggleSign`: the sign key keeps the shape;
* `Shaped.value?_toggleSign`: it negates the value, and makes none from nothing;
* `body_positional`: the text of a decimal is a body.
-/
import Calculator.Numeral
import Calculator.Proofs.Decimal.Digits

namespace Calculator

set_option autoImplicit false

theorem Binary64.nearest_not (negative : Bool) (num den : Nat) :
    Binary64.nearest (!negative) num den = (Binary64.nearest negative num den).neg := by
  unfold Binary64.nearest
  cases Magnitude.nearest num den <;> rfl

theorem Binary64.isFinite_neg (x : Binary64) : x.neg.isFinite = x.isFinite := by
  cases x <;> rfl

theorem Decimal.toBinary64_not (negative : Bool) (d : Decimal) :
    d.toBinary64 (!negative) = (d.toBinary64 negative).neg := by
  rw [Decimal.toBinary64, Binary64.nearest_not, Decimal.toBinary64]

namespace Numeral

/-- Digits and at most one point, and at least one character in all. -/
structure Body (cs : List Char) : Prop where
  nonempty : cs ≠ []
  chars : ∀ c ∈ cs, c.isDigit ∨ c = '.'
  onePoint : cs.count '.' ≤ 1

/-- A body, or a minus and a body. -/
def Shaped (text : String) : Prop := ∃ negative body, Body body ∧ text = signed negative body

/-! ## The sign of a shaped text -/

theorem toList_signed (negative : Bool) (body : List Char) :
    (signed negative body).toList = if negative then '-' :: body else body := by
  simp [signed]

namespace Body

variable {body : List Char} (valid : Body body)
include valid

theorem not_mem {c : Char} (sign : c = '-' ∨ c = '+') : c ∉ body := by
  intro member
  rcases valid.chars c member with digit | rfl
  · rcases sign with rfl | rfl <;> simp at digit
  · simp at sign

theorem splitSign_signed (negative : Bool) :
    splitSign (signed negative body).toList = (negative, body) := by
  cases negative with
  | true => simp [signed, splitSign]
  | false =>
      simp only [signed, Bool.false_eq_true, if_false, String.toList_ofList]
      unfold splitSign
      split
      · exact absurd List.mem_cons_self (valid.not_mem (.inl rfl))
      · exact absurd List.mem_cons_self (valid.not_mem (.inr rfl))
      · rfl

theorem toggleSign_signed (negative : Bool) :
    toggleSign (signed negative body) = signed (!negative) body := by
  cases negative with
  | true => simp [signed, toggleSign]
  | false =>
      simp only [signed, toggleSign, Bool.false_eq_true, if_false, String.toList_ofList,
        Bool.not_false, if_true]
      split
      · exact absurd List.mem_cons_self (valid.not_mem (.inl rfl))
      · rw [← String.toList_inj]
        simp

theorem value?_signed_of_none (negative : Bool) (unread : unsigned? body = none) :
    value? (signed negative body) = none := by
  simp only [value?, valid.splitSign_signed, unread]

/-- A signed body has the value of the body with that sign, if it is finite. -/
theorem value?_signed_of_some {decimal : Decimal} (negative : Bool)
    (read : unsigned? body = some decimal) :
    value? (signed negative body) =
      if (decimal.toBinary64 negative).isFinite then some (decimal.toBinary64 negative)
      else none := by
  simp only [value?, valid.splitSign_signed, read]

end Body

namespace Shaped

variable {text : String} (shaped : Shaped text)
include shaped

theorem toggleSign : Shaped (Numeral.toggleSign text) := by
  obtain ⟨negative, body, valid, rfl⟩ := shaped
  exact ⟨!negative, body, valid, valid.toggleSign_signed negative⟩

/-- Changing the sign of the text changes the sign of its value. -/
theorem value?_toggleSign :
    value? (Numeral.toggleSign text) = (value? text).map Binary64.neg := by
  obtain ⟨negative, body, valid, rfl⟩ := shaped
  rw [valid.toggleSign_signed]
  cases read : unsigned? body with
  | none =>
      rw [valid.value?_signed_of_none _ read, valid.value?_signed_of_none _ read, Option.map_none]
  | some decimal =>
      rw [valid.value?_signed_of_some _ read, valid.value?_signed_of_some _ read,
        Decimal.toBinary64_not, Binary64.isFinite_neg]
      split
      · rw [Option.map_some]
      · rw [Option.map_none]

theorem ne_empty : text ≠ "" := by
  obtain ⟨negative, body, valid, rfl⟩ := shaped
  intro empty
  have length := congrArg String.toList empty
  rw [toList_signed] at length
  cases negative <;> simp [valid.nonempty] at length

end Shaped

/-! ## Typing -/

theorem Body.push {body : List Char} (valid : Body body) {c : Char} (char : c.isDigit ∨ c = '.')
    (onePoint : c = '.' → '.' ∉ body) : Body (body ++ [c]) := by
  refine ⟨by simp, fun d member => ?_, ?_⟩
  · rcases List.mem_append.mp member with earlier | last
    · exact valid.chars d earlier
    · obtain rfl := List.mem_singleton.mp last
      exact char
  · rw [List.count_append, List.count_singleton]
    by_cases point : c = '.'
    · have none := List.count_eq_zero.mpr (onePoint point)
      simp [none, point]
    · simpa [point] using valid.onePoint

/-- What has been typed of a body is one. -/
theorem Body.of_append {body rest : List Char} (nonempty : body ≠ [])
    (whole : Body (body ++ rest)) : Body body := by
  refine ⟨nonempty, fun c member => whole.chars c (List.mem_append_left rest member), ?_⟩
  have count := whole.onePoint
  rw [List.count_append] at count
  omega

theorem body_singleton {c : Char} (char : c.isDigit ∨ c = '.') : Body [c] := by
  refine ⟨by simp, fun d member => ?_, List.count_le_length⟩
  obtain rfl := List.mem_singleton.mp member
  exact char

theorem push_signed (negative : Bool) (body : List Char) (c : Char) :
    (signed negative body).push c = signed negative (body ++ [c]) := by
  rw [← String.toList_inj, String.toList_push, toList_signed, toList_signed]
  cases negative <;> rfl

theorem point_mem_signed {negative : Bool} {body : List Char} :
    '.' ∈ (signed negative body).toList ↔ '.' ∈ body := by
  rw [toList_signed]
  cases negative <;> simp

/-- A digit, or the first point, keeps the shape. -/
theorem Shaped.push {text : String} (shaped : Shaped text) {c : Char}
    (char : c.isDigit ∨ c = '.') (onePoint : c = '.' → '.' ∉ text.toList) :
    Shaped (text.push c) := by
  obtain ⟨negative, body, valid, rfl⟩ := shaped
  rw [push_signed]
  exact ⟨negative, _, valid.push char fun point => mt point_mem_signed.mpr (onePoint point), rfl⟩

theorem shaped_singleton {c : Char} (char : c.isDigit ∨ c = '.') : Shaped ("".push c) :=
  ⟨false, [c], body_singleton char, by rw [← String.toList_inj]; simp [signed]⟩

/-! ## The text of a decimal -/

theorem count_point_eq_zero {cs : List Char} (digits : ∀ c ∈ cs, c.isDigit) :
    cs.count '.' = 0 := by
  rw [List.count_eq_zero]
  intro member
  exact absurd (digits '.' member) (by decide)

/-- Digits alone are a body. -/
theorem body_of_digits {cs : List Char} (nonempty : cs ≠ []) (digits : ∀ c ∈ cs, c.isDigit) :
    Body cs :=
  ⟨nonempty, fun c member => .inl (digits c member), by simp [count_point_eq_zero digits]⟩

/-- Digits on both sides of a point are a body. -/
theorem body_of_point {whole fraction : List Char} (left : ∀ c ∈ whole, c.isDigit)
    (right : ∀ c ∈ fraction, c.isDigit) : Body (whole ++ '.' :: fraction) := by
  refine ⟨by simp, fun c member => ?_, ?_⟩
  · rcases List.mem_append.mp member with inWhole | rest
    · exact .inl (left c inWhole)
    · rcases List.mem_cons.mp rest with point | inFraction
      · exact .inr point
      · exact .inl (right c inFraction)
  · simp [count_point_eq_zero left, count_point_eq_zero right]

theorem body_positional (d : Decimal) : Body d.positional := by
  unfold Decimal.positional
  split
  · exact body_of_digits (Decimal.digits_ne_nil _) fun _ => Decimal.isDigit_of_mem_digits
  · exact body_of_point (fun _ => Decimal.isDigit_of_mem_digits)
      (fun _ => Decimal.isDigit_of_mem_padded)

end Numeral

end Calculator
