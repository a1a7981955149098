/-
# Calculator.Proofs.Json.Numbers -- a number that was written is read again

A number is read for as long as it can go on, so its text is told from what stands behind it
only if that does not begin like a part of a number (`Ends`); a comma, a bracket, a blank and
the end of the text do not.  Then the reader finds the sign, the digits and the exponent that
were written (`readNumber_written`).

The numbers that the calculator writes are legible: they have digits where the reader asks for
them, and no superfluous leading zero.

* `readNumber_written`: legible numbers are read back;
* `legible_ofNatural`, `legible_ofFinite`: the numbers of the calculator.
-/
import Mathlib.Data.List.TakeWhile
import Calculator.Json.Number
import Calculator.Json.Reading
import Calculator.Json.Value
import Calculator.Proofs.Decimal.Digits

namespace Calculator.Json

set_option autoImplicit false

open Decimal (IsDigits isDigits_digits isDigits_padded)

/-! ## Digits -/

/-- What cannot go on as digits. -/
def EndsDigits (rest : List Char) : Prop := ∀ c ∈ rest.head?, c.isDigit = false

theorem endsDigits_cons {c : Char} {rest : List Char} (other : c.isDigit = false) :
    EndsDigits (c :: rest) := by
  rintro d member
  obtain rfl := Option.some.inj member
  exact other

theorem readDigits?_append {cs rest : List Char} (digits : IsDigits cs) (ends : EndsDigits rest) :
    readDigits? (cs ++ rest) = some (cs, rest) := by
  have taken : rest.takeWhile Char.isDigit = [] ∧ rest.dropWhile Char.isDigit = rest := by
    cases rest with
    | nil => exact ⟨rfl, rfl⟩
    | cons c rest =>
        have other : ¬ c.isDigit = true := by simp [ends c rfl]
        exact ⟨List.takeWhile_cons_of_neg other, List.dropWhile_cons_of_neg other⟩
  have found : readDigits (cs ++ rest) = (cs, rest) := by
    rw [readDigits, List.takeWhile_append_of_pos digits.each,
      List.dropWhile_append_of_pos digits.each, taken.1, taken.2, List.append_nil]
  rw [readDigits?, found]
  split
  · rename_i none
    exact absurd (congrArg Prod.fst none) digits.nonempty
  · rfl

/-! ## The parts of a number -/

namespace Number

/-- A number with digits wherever the reader asks for them. -/
structure Legible (n : Number) : Prop where
  whole : IsDigits n.whole
  leading : Decimal.NoLeadingZero n.whole
  fraction : ∀ digits ∈ n.fraction, IsDigits digits
  exponent : ∀ written ∈ n.exponent, IsDigits written.2

theorem written_eq (n : Number) :
    n.written = (if n.negative then ['-'] else []) ++
      (n.whole ++ (Decimal.pointed n.fraction ++ exponentText n.exponent)) := by
  rw [written]
  cases n.fraction <;> simp [Decimal.pointed]

end Number

/-- What cannot go on as a number. -/
def Ends (rest : List Char) : Prop :=
  ∀ c ∈ rest.head?, c.isDigit = false ∧ c ≠ '.' ∧ c ≠ 'e' ∧ c ≠ 'E'

theorem ends_nil : Ends [] := by
  intro c member
  cases member

theorem ends_cons {c : Char} (other : c.isDigit = false ∧ c ≠ '.' ∧ c ≠ 'e' ∧ c ≠ 'E')
    (rest : List Char) : Ends (c :: rest) := by
  rintro d member
  obtain rfl := Option.some.inj member
  exact other

theorem Ends.endsDigits {rest : List Char} (ends : Ends rest) : EndsDigits rest :=
  fun c member => (ends c member).1

theorem readMinus_append (negative : Bool) {cs : List Char} (digits : IsDigits cs)
    (rest : List Char) :
    readMinus ((if negative then ['-'] else []) ++ (cs ++ rest)) = (negative, cs ++ rest) := by
  cases negative with
  | true => rfl
  | false =>
      obtain ⟨c, cs, rfl⟩ := List.exists_cons_of_ne_nil digits.nonempty
      have digit := digits.each c List.mem_cons_self
      simp only [Bool.false_eq_true, if_false, List.nil_append, List.cons_append]
      unfold readMinus
      split
      · rename_i minus
        rw [(List.cons.inj minus).1] at digit
        exact absurd digit (by decide)
      · rfl

theorem readWhole?_append {cs rest : List Char} (digits : IsDigits cs)
    (leading : Decimal.NoLeadingZero cs) (ends : EndsDigits rest) :
    readWhole? (cs ++ rest) = some (cs, rest) := by
  rw [readWhole?, readDigits?_append digits ends]
  split
  · -- a zero with digits behind it
    rename_i zero
    have front := congrArg Prod.fst (Option.some.inj zero)
    rcases leading with alone | head
    · rw [alone] at front
      cases front
    · exact absurd (congrArg List.head? front) head
  · rfl

theorem readFraction?_append {fraction : Option (List Char)}
    (legible : ∀ digits ∈ fraction, IsDigits digits) {rest : List Char}
    (ends : ∀ c ∈ rest.head?, c.isDigit = false ∧ c ≠ '.') :
    readFraction? (Decimal.pointed fraction ++ rest) = some (fraction, rest) := by
  cases fraction with
  | some digits =>
      have read := readDigits?_append (legible digits rfl) fun c member => (ends c member).1
      rw [Decimal.pointed, List.cons_append, readFraction?, read]
      rfl
  | none =>
      rw [Decimal.pointed, List.nil_append]
      unfold readFraction?
      split
      · exact absurd rfl (ends '.' rfl).2
      · rfl

theorem readExponentSign_append (negative : Bool) (rest : List Char) :
    readExponentSign ((if negative then '-' else '+') :: rest) = (negative, rest) := by
  cases negative <;> rfl

theorem readExponent?_append {exponent : Option (Bool × List Char)}
    (legible : ∀ written ∈ exponent, IsDigits written.2) {rest : List Char} (ends : Ends rest) :
    readExponent? (Number.exponentText exponent ++ rest) = some (exponent, rest) := by
  cases exponent with
  | some written =>
      obtain ⟨negative, digits⟩ := written
      have read := readDigits?_append (legible _ rfl) ends.endsDigits
      rw [Number.exponentText, List.cons_append, List.cons_append, readExponent?,
        if_pos (.inl rfl), readExponentSign_append]
      dsimp only
      rw [read]
      rfl
  | none =>
      rw [Number.exponentText, List.nil_append]
      cases rest with
      | nil => rfl
      | cons c rest =>
          obtain ⟨-, -, small, capital⟩ := ends c rfl
          rw [readExponent?, if_neg]
          rintro (isSmall | isCapital)
          · exact small isSmall
          · exact capital isCapital

/-- What follows the digits behind the point, or their absence. -/
theorem endsFraction_behind (exponent : Option (Bool × List Char)) {rest : List Char}
    (ends : Ends rest) :
    ∀ c ∈ (Number.exponentText exponent ++ rest).head?, c.isDigit = false ∧ c ≠ '.' := by
  cases exponent with
  | some written =>
      rintro c member
      obtain rfl := Option.some.inj member
      exact ⟨rfl, by decide⟩
  | none => exact fun c member => ⟨(ends c member).1, (ends c member).2.1⟩

/-- What follows the digits in front of the point. -/
theorem endsDigits_behind {n : Number} {rest : List Char} (ends : Ends rest) :
    EndsDigits (Decimal.pointed n.fraction ++ (Number.exponentText n.exponent ++ rest)) := by
  cases n.fraction with
  | some digits => exact endsDigits_cons rfl
  | none =>
      cases n.exponent with
      | some written => exact endsDigits_cons rfl
      | none => exact ends.endsDigits

/-- **A number that was written is read again**, if what follows cannot be part of it. -/
theorem readNumber_written {n : Number} (legible : n.Legible) {rest : List Char}
    (ends : Ends rest) : readNumber (n.written ++ rest) = some (n, rest) := by
  have minus := readMinus_append n.negative legible.whole
    (Decimal.pointed n.fraction ++ (Number.exponentText n.exponent ++ rest))
  have whole := readWhole?_append legible.whole legible.leading (endsDigits_behind (n := n) ends)
  have fraction := readFraction?_append legible.fraction (endsFraction_behind n.exponent ends)
  have exponent := readExponent?_append legible.exponent ends
  rw [Number.written_eq]
  simp only [List.append_assoc]
  rw [readNumber, minus]
  dsimp only
  rw [whole, Option.bind_eq_bind, Option.bind_some]
  dsimp only
  rw [fraction, Option.bind_eq_bind, Option.bind_some]
  dsimp only
  rw [exponent]
  rfl

/-! ## The numbers of the calculator -/

namespace Number

theorem legible_ofNatural (n : Nat) : (ofNatural n).Legible where
  whole := isDigits_digits n
  leading := Decimal.noLeadingZero_digits n
  fraction := by simp [ofNatural]
  exponent := by simp [ofNatural]

theorem legible_positional (negative : Bool) (d : Decimal) : (positional negative d).Legible := by
  unfold positional
  split
  · exact {
      whole := isDigits_digits _
      leading := Decimal.noLeadingZero_digits _
      fraction := by
        rintro digits member
        obtain rfl := Option.some.inj member
        exact isDigits_digits 0
      exponent := by simp }
  · exact {
      whole := isDigits_digits _
      leading := Decimal.noLeadingZero_digits _
      fraction := by
        rintro digits member
        obtain rfl := Option.some.inj member
        exact isDigits_padded _ _
      exponent := by simp }

/-- One digit is no superfluous zero. -/
theorem noLeadingZero_singleton (c : Char) : Decimal.NoLeadingZero [c] := by
  by_cases zero : c = '0'
  · exact .inl (by rw [zero])
  · exact .inr (by simpa using zero)

theorem legible_scientific (negative : Bool) (d : Decimal) : (scientific negative d).Legible := by
  have all := isDigits_digits d.coefficient
  unfold scientific
  dsimp only
  split
  · rename_i first second rest split
    rw [split] at all
    exact {
      whole := ⟨by simp, by simpa using all.each first (by simp)⟩
      leading := noLeadingZero_singleton first
      fraction := by
        rintro digits member
        obtain rfl := Option.some.inj member
        exact ⟨by simp, fun c behind => all.each c (List.mem_cons_of_mem first behind)⟩
      exponent := by
        rintro written member
        obtain rfl := Option.some.inj member
        exact isDigits_digits _ }
  · exact {
      whole := all
      leading := Decimal.noLeadingZero_digits _
      fraction := by simp
      exponent := by
        rintro written member
        obtain rfl := Option.some.inj member
        exact isDigits_digits _ }

theorem legible_ofFinite (negative : Bool) (m : Magnitude) : (ofFinite negative m).Legible := by
  unfold ofFinite
  dsimp only
  split
  · exact {
      whole := isDigits_digits 0
      leading := .inl rfl
      fraction := by
        rintro digits member
        obtain rfl := Option.some.inj member
        exact isDigits_digits 0
      exponent := by simp }
  · split
    · exact legible_positional negative _
    · exact legible_scientific negative _

/-- A natural number of sixty-four bits is read back from its number. -/
theorem natural?_ofNatural {n : Nat} (fits : n < wordLimit) : (ofNatural n).natural? = some n := by
  simp [natural?, ofNatural, Decimal.ofDigits_digits, fits]

end Number

end Calculator.Json
