/-
# Calculator.Proofs.Numeral.Faithful -- a value and its numeral

What a finite value is written as, to go back into an expression, is a plain numeral: an
optional minus, digits, and perhaps a point with digits on both sides of it.  It reads as the
value, so different values have different numerals; only both zeros have one, and read as the
positive one.  Writing what was read changes nothing any more.

* `ofValue_faithful`: shape, value and uniqueness of a value's numeral.
-/
import Calculator.Proofs.Numeral.Rereading

namespace Calculator.Numeral

set_option autoImplicit false

open Decimal (IsDigits isDigits_digits isDigits_padded pointed)

/-- An optional minus, digits, and digits behind a point if there is one. -/
def Plain (text : String) : Prop :=
  ∃ (negative : Bool) (whole : List Char) (fraction : Option (List Char)),
    text = signed negative (whole ++ pointed fraction) ∧ IsDigits whole ∧
      ∀ digits ∈ fraction, IsDigits digits

/-- A decimal is written with digits on both sides of its point. -/
theorem exists_positional_eq (d : Decimal) :
    ∃ whole fraction, d.positional = whole ++ pointed fraction ∧ IsDigits whole ∧
      ∀ digits ∈ fraction, IsDigits digits := by
  unfold Decimal.positional
  split
  · exact ⟨_, none, (List.append_nil _).symm, isDigits_digits _, by simp⟩
  · refine ⟨_, some _, rfl, isDigits_digits _, ?_⟩
    rintro digits member
    obtain rfl := Option.some.inj member
    exact isDigits_padded _ _

theorem plain_ofValue {x : Binary64} (finite : x.isFinite) : Plain (ofValue x) := by
  obtain ⟨negative, m, rfl⟩ := Binary64.exists_finite finite
  rw [ofValue]
  split
  · exact ⟨false, ['0'], none, rfl, isDigits_digits 0, by simp⟩
  · obtain ⟨whole, fraction, written, left, right⟩ :=
      exists_positional_eq (m.shortest .upward)
    exact ⟨negative, whole, fraction, by rw [written], left, right⟩

/-- Values are alike up to the sign of zero when they are equal or both are zeros. -/
theorem unsignZero_eq_iff {x y : Binary64} :
    x.unsignZero = y.unsignZero ↔ x = y ∨ x.isZero ∧ y.isZero := by
  have zero : Binary64.zero.isZero := rfl
  unfold Binary64.unsignZero
  constructor
  · intro alike
    split at alike <;> split at alike
    · exact .inr ⟨‹_›, ‹_›⟩
    · rename_i nonzero
      rw [← alike] at nonzero
      exact absurd zero nonzero
    · rename_i nonzero _
      rw [alike] at nonzero
      exact absurd zero nonzero
    · exact .inl alike
  · rintro (rfl | ⟨left, right⟩)
    · rfl
    · rw [if_pos left, if_pos right]

/-- **A value's numeral is plain, reads as the value, and is no other value's**, the sign of
zero apart; and it is what that reading is written as again. -/
theorem ofValue_faithful {x : Binary64} (finite : x.isFinite) :
    Plain (ofValue x) ∧ value? (ofValue x) = some x.unsignZero ∧
      (value? (ofValue x)).map ofValue = some (ofValue x) ∧
      ∀ y : Binary64, y.isFinite → (ofValue x = ofValue y ↔ x = y ∨ x.isZero ∧ y.isZero) := by
  have read := value?_ofValue finite
  refine ⟨plain_ofValue finite, read, ?_, ?_⟩
  · rw [read, Option.map_some, ofValue_unsignZero]
  · intro y finiteY
    rw [← unsignZero_eq_iff]
    constructor
    · intro same
      have readY := value?_ofValue finiteY
      rw [← same, read] at readY
      exact Option.some.inj readY
    · intro alike
      rw [← ofValue_unsignZero x, alike, ofValue_unsignZero]

/-- The least double below zero keeps its sign and its one bit. -/
theorem ofValue_faithful_least :
    (Binary64.finite true ⟨1, 0, by decide⟩).isFinite ∧
      value? (ofValue (.finite true ⟨1, 0, by decide⟩)) = some (.finite true ⟨1, 0, by decide⟩) :=
  ⟨rfl, (ofValue_faithful rfl).2.1⟩

end Calculator.Numeral
