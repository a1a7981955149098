/-
# Calculator.Proofs.Numeral.Rereading -- a value's numeral reads as the value

The numeral that a partial result is written as goes back into the expression and is
read again.  Nothing is lost on the way but the sign of zero: the search for few
digits accepts a decimal only if it reads as the magnitude (`onGrid?_readsAs`), the
exact decimal behind the search does (`exactDecimal_readsAs`), and a decimal's text
denotes the decimal's number (`unsigned?_positional`).

* `value?_ofValue`: a finite value's numeral has that value, without the sign of zero;
* `shaped_ofValue`: it is an optional minus, digits, and at most one point.
-/
import Mathlib.Data.List.TakeWhile
import Calculator.Proofs.Decimal.SameValue
import Calculator.Proofs.Numeral.Shape

namespace Calculator

set_option autoImplicit false

/-! ## The search -/

namespace Magnitude

theorem onGrid?_readsAs {tie : Tie} {m : Magnitude} {exponent : Int} {d : Decimal}
    (found : m.onGrid? tie exponent = some d) : d.readsAs m := by
  unfold onGrid? at found
  extract_lets num den below above preferAbove at found
  by_cases low : (below.readsAs m && !(above.readsAs m && preferAbove)) = true
  · rw [if_pos low] at found
    rw [← Option.some.inj found]
    exact (Bool.and_eq_true_iff.mp low).1
  · rw [if_neg low] at found
    by_cases high : above.readsAs m = true
    · rw [if_pos high] at found
      rw [← Option.some.inj found]
      exact high
    · rw [if_neg high] at found
      exact absurd found.symm (Option.some_ne_none d)

theorem searchGrids_readsAs {tie : Tie} {m : Magnitude} {count : Nat} {exponent : Int}
    {d : Decimal} (found : m.searchGrids tie count exponent = some d) : d.readsAs m := by
  obtain ⟨finer, -, hit⟩ := List.exists_of_findSome?_eq_some found
  exact onGrid?_readsAs hit

/-- All decimal digits of a magnitude: `10 ^ n` is `5 ^ n * 2 ^ n`. -/
theorem exactDecimal_readsAs (m : Magnitude) : m.exactDecimal.readsAs m := by
  have denominator : m.exactDecimal.denominator = 10 ^ unitExponent := by
    rw [Decimal.denominator, exactDecimal, Int.neg_neg, Int.toNat_natCast]
  have numerator : m.exactDecimal.numerator * unitsPerOne = m.units * 10 ^ unitExponent := by
    have flat : (-(unitExponent : Int)).toNat = 0 := by omega
    simp only [Decimal.numerator, exactDecimal, flat, unitsPerOne]
    rw [Nat.pow_zero, Nat.mul_one, Nat.mul_assoc, ← Nat.mul_pow]
  rw [Decimal.readsAs_iff_nearest, denominator, numerator]
  exact nearest_units m _ (Nat.pow_pos (by decide))

theorem shortest_readsAs (tie : Tie) (m : Magnitude) : (m.shortest tie).readsAs m := by
  rw [shortest, (Decimal.trim_sameValue _).readsAs_iff]
  cases found : m.searchGrids tie 17 m.leadingPlace with
  | none => exact exactDecimal_readsAs m
  | some d => exact searchGrids_readsAs found

end Magnitude

/-! ## The text of a decimal -/

namespace Decimal

/-- A whole decimal, written out. -/
theorem sameValue_expand (coefficient : Nat) (exponent : Int) (whole : 0 ≤ exponent) :
    SameValue ⟨coefficient * 10 ^ exponent.toNat, 0⟩ ⟨coefficient, exponent⟩ := by
  have flat : (-exponent).toNat = 0 := by omega
  simp [SameValue, numerator, denominator, flat]

end Decimal

namespace Numeral

theorem takeWhile_digits {cs : List Char} (digits : ∀ c ∈ cs, c.isDigit) (rest : List Char) :
    (cs ++ '.' :: rest).takeWhile Char.isDigit = cs ∧
      (cs ++ '.' :: rest).dropWhile Char.isDigit = '.' :: rest := by
  constructor
  · rw [List.takeWhile_append_of_pos digits]
    simp
  · rw [List.dropWhile_append_of_pos digits]
    simp

/-- Digits alone are read as a whole number. -/
theorem unsigned?_of_digits {cs : List Char} (nonempty : cs ≠ []) (digits : ∀ c ∈ cs, c.isDigit) :
    unsigned? cs = some ⟨Decimal.ofDigits cs, 0⟩ := by
  have taken : cs.takeWhile Char.isDigit = cs := List.takeWhile_eq_self_iff.mpr digits
  have dropped : cs.dropWhile Char.isDigit = [] := List.dropWhile_eq_nil_iff.mpr digits
  simp [unsigned?, taken, dropped, nonempty]

/-- Digits around a point are read together, with a place for each behind it. -/
theorem unsigned?_of_point {whole fraction : List Char} (some_digit : whole ≠ [] ∨ fraction ≠ [])
    (left : ∀ c ∈ whole, c.isDigit) (right : ∀ c ∈ fraction, c.isDigit) :
    unsigned? (whole ++ '.' :: fraction) =
      some ⟨Decimal.ofDigits (whole ++ fraction), -(fraction.length : Int)⟩ := by
  obtain ⟨taken, dropped⟩ := takeWhile_digits left fraction
  have allDigits : fraction.all Char.isDigit = true := List.all_eq_true.mpr right
  have present : (whole.isEmpty && fraction.isEmpty) = false := by
    rcases some_digit with h | h <;> simp [h]
  simp [unsigned?, taken, dropped, allDigits, present]

/-- The text of a decimal denotes its number. -/
theorem unsigned?_positional (d : Decimal) :
    ∃ e, unsigned? d.positional = some e ∧ e.SameValue d := by
  obtain ⟨coefficient, exponent⟩ := d
  by_cases whole : 0 ≤ exponent
  · refine ⟨⟨coefficient * 10 ^ exponent.toNat, 0⟩, ?_, Decimal.sameValue_expand _ _ whole⟩
    have nonempty := Decimal.digits_ne_nil (coefficient * 10 ^ exponent.toNat)
    rw [Decimal.positional, if_pos whole,
      unsigned?_of_digits nonempty fun _ => Decimal.isDigit_of_mem_digits,
      Decimal.ofDigits_digits]
  · obtain ⟨places, rfl⟩ : ∃ places : Nat, exponent = -((places + 1 : Nat) : Int) :=
      ⟨(-exponent).toNat - 1, by omega⟩
    have back : (- -((places + 1 : Nat) : Int)).toNat = places + 1 := by omega
    have nonempty := Decimal.digits_ne_nil (coefficient / 10 ^ (places + 1))
    have width := Decimal.length_padded places.succ_pos
      (Nat.mod_lt coefficient (Nat.pow_pos (by decide : 0 < 10)))
    refine ⟨⟨coefficient, -((places + 1 : Nat) : Int)⟩, ?_, .refl _⟩
    rw [Decimal.positional, if_neg whole]
    simp only [back]
    rw [unsigned?_of_point (.inl nonempty) (fun _ => Decimal.isDigit_of_mem_digits)
        (fun _ => Decimal.isDigit_of_mem_padded),
      Decimal.ofDigits_append, Decimal.ofDigits_digits, Decimal.ofDigits_padded, width,
      Nat.div_add_mod]

end Numeral

/-! ## The numeral of a value -/

theorem Binary64.nearest_of_some {num den : Nat} {m : Magnitude}
    (found : Magnitude.nearest num den = some m) (negative : Bool) :
    Binary64.nearest negative num den = .finite negative m := by
  unfold Binary64.nearest
  simp only [found]

theorem Decimal.toBinary64_of_readsAs {d : Decimal} {m : Magnitude} (reads : d.readsAs m)
    (negative : Bool) : d.toBinary64 negative = .finite negative m := by
  unfold Decimal.toBinary64
  exact Binary64.nearest_of_some (readsAs_iff_nearest.mp reads) negative

/-- Negative zero becomes zero; every other double is kept. -/
def Binary64.unsignZero (x : Binary64) : Binary64 := if x.isZero then .zero else x

theorem Binary64.exists_finite {x : Binary64} (finite : x.isFinite) :
    ∃ negative m, x = .finite negative m := by
  cases x with
  | nan => cases finite
  | infinity negative => cases finite
  | finite negative m => exact ⟨negative, m, rfl⟩

/-- What does not tell one zero from the other does not see the change. -/
theorem Binary64.apply_unsignZero {α : Type} {f : Binary64 → α}
    (alike : ∀ negative m, m.isZero → f (.finite negative m) = f .zero) (x : Binary64) :
    f x.unsignZero = f x := by
  by_cases zero : x.isZero
  · rw [unsignZero, if_pos zero]
    cases x with
    | nan => cases zero
    | infinity negative => cases zero
    | finite negative m => exact (alike negative m zero).symm
  · rw [unsignZero, if_neg zero]

namespace Numeral

/-- Zero coefficients read as zero. -/
theorem zero_readsAs (exponent : Int) : (Decimal.mk 0 exponent).readsAs .zero := by
  have nearest := Magnitude.nearest_units .zero (Decimal.mk 0 exponent).denominator
    (Decimal.denominator_pos _)
  have flat : (Decimal.mk 0 exponent).numerator * Magnitude.unitsPerOne =
      Magnitude.zero.units * (Decimal.mk 0 exponent).denominator := by
    simp [Decimal.numerator, Magnitude.units, Magnitude.zero]
  rw [Decimal.readsAs_iff_nearest, flat, nearest]

theorem value?_of_readsAs {body : List Char} (valid : Body body) {d : Decimal} {m : Magnitude}
    (read : unsigned? body = some d) (reads : d.readsAs m) (negative : Bool) :
    value? (signed negative body) = some (.finite negative m) := by
  rw [valid.value?_signed_of_some negative read, Decimal.toBinary64_of_readsAs reads,
    Binary64.isFinite, if_pos rfl]

theorem body_zero : Body ['0'] := body_of_digits (by simp) (by simp)

theorem value?_zero : value? "0" = some .zero := by
  have read : unsigned? ['0'] = some ⟨0, 0⟩ := by decide
  exact value?_of_readsAs body_zero read (zero_readsAs 0) false

/-- Both zeros have the same numeral. -/
theorem ofValue_unsignZero (x : Binary64) : ofValue x.unsignZero = ofValue x := by
  apply Binary64.apply_unsignZero
  intro negative m zero
  exact if_pos zero

/-- **A value's numeral reads as the value**, but that both zeros are written `0`. -/
theorem value?_ofValue {x : Binary64} (finite : x.isFinite) :
    value? (ofValue x) = some x.unsignZero := by
  obtain ⟨negative, m, rfl⟩ := Binary64.exists_finite finite
  by_cases zero : m.isZero
  · rw [ofValue, if_pos zero, Binary64.unsignZero, Binary64.isZero, if_pos zero, value?_zero]
  · obtain ⟨e, read, same⟩ := unsigned?_positional (m.shortest .upward)
    have reads : e.readsAs m := (same.readsAs_iff m).mpr (m.shortest_readsAs .upward)
    rw [ofValue, if_neg zero, Binary64.unsignZero, Binary64.isZero, if_neg zero]
    exact value?_of_readsAs (body_positional _) read reads negative

/-- A finite value's numeral is an optional minus, digits, and at most one point. -/
theorem shaped_ofValue {x : Binary64} (finite : x.isFinite) : Shaped (ofValue x) := by
  obtain ⟨negative, m, rfl⟩ := Binary64.exists_finite finite
  rw [ofValue]
  split
  · exact ⟨false, ['0'], body_zero, rfl⟩
  · exact ⟨negative, _, body_positional _, rfl⟩

/-- A numeral never reads as infinity. -/
theorem isFinite_of_value? {text : String} {x : Binary64} (read : value? text = some x) :
    x.isFinite := by
  unfold value? at read
  generalize splitSign text.toList = parts at read
  obtain ⟨negative, body⟩ := parts
  dsimp only at read
  cases unsigned : unsigned? body with
  | none =>
      rw [unsigned] at read
      exact absurd read.symm (Option.some_ne_none x)
  | some decimal =>
      rw [unsigned] at read
      dsimp only at read
      by_cases finite : (decimal.toBinary64 negative).isFinite
      · rw [if_pos finite] at read
        rwa [← Option.some.inj read]
      · rw [if_neg finite] at read
        exact absurd read.symm (Option.some_ne_none x)

end Numeral

end Calculator
