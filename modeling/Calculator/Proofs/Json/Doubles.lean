/-
# Calculator.Proofs.Json.Doubles -- when a double is read back from its number

A literal denotes a decimal (`Number.toDecimal`), but it is not read as the double nearest to
that.  The digits are rounded to a double first, and the quotient by a power of ten is rounded
again, so that the last bit may be another one.  Nothing is lost as long as both are doubles
without rounding, which fifteen digits and powers of ten up to `10 ^ 22` are
(`Short.toBinary64?_eq`).

So a double is read back from the number that it is written as when its shortest decimal has so
few digits (`Magnitude.FewDigits`); both zeros are read back with their signs.
-/
import Calculator.Json.Number
import Calculator.Proofs.Binary64.Exact

namespace Calculator

set_option autoImplicit false

namespace Json.Number

/-! ## The decimal of a literal -/

/-- The decimal that a literal denotes, its sign apart. -/
def toDecimal (n : Number) : Decimal :=
  ⟨Decimal.ofDigits (n.whole ++ n.fraction.getD []),
    n.writtenExponent - (n.fraction.getD []).length⟩

/-- A number without an exponent denotes its decimal. -/
theorem toDecimal_positional_of_neg (negative : Bool) {d : Decimal} (below : d.exponent < 0) :
    (positional negative d).toDecimal = d := by
  obtain ⟨coefficient, exponent⟩ := d
  obtain ⟨places, rfl⟩ : ∃ places : Nat, exponent = -((places + 1 : Nat) : Int) :=
    ⟨(-exponent).toNat - 1, by dsimp only at below; omega⟩
  have back : (- -((places + 1 : Nat) : Int)).toNat = places + 1 := by omega
  have width := Decimal.length_padded places.succ_pos
    (Nat.mod_lt coefficient (Nat.pow_pos (by decide : 0 < 10)))
  rw [positional, if_neg (by dsimp only at below ⊢; omega)]
  simp only [toDecimal, back, Option.getD_some, writtenExponent, Decimal.mk.injEq]
  rw [Decimal.ofDigits_append, Decimal.ofDigits_digits, Decimal.ofDigits_padded, width,
    Nat.div_add_mod]
  exact ⟨rfl, by omega⟩

/-- A whole number is written with a zero behind the point. -/
theorem toDecimal_positional_of_nonneg (negative : Bool) {d : Decimal} (whole : 0 ≤ d.exponent) :
    (positional negative d).toDecimal = ⟨10 * d.numerator, -1⟩ := by
  rw [positional, if_pos whole]
  simp only [toDecimal, Option.getD_some, writtenExponent, Decimal.mk.injEq]
  rw [Decimal.ofDigits_append, Decimal.ofDigits_digits]
  exact ⟨rfl, rfl⟩

theorem sameValue_positional (negative : Bool) (d : Decimal) :
    (positional negative d).toDecimal.SameValue d := by
  rcases Int.lt_or_le d.exponent 0 with below | whole
  · rw [toDecimal_positional_of_neg negative below]
    exact .refl d
  · have flat : (-d.exponent).toNat = 0 := by omega
    rw [toDecimal_positional_of_nonneg negative whole, Decimal.SameValue, Decimal.denominator, flat,
      Nat.pow_zero, Nat.mul_one, Nat.mul_comm d.numerator]
    exact Nat.mul_one _

/-- A place is written as an exponent and read as that place. -/
theorem writtenExponent_of_place {n : Number} {place : Int}
    (written : n.exponent = some (decide (place < 0), Decimal.digits place.natAbs)) :
    n.writtenExponent = place := by
  rw [writtenExponent, written]
  by_cases negative : place < 0
  · simp only [negative, decide_true, Decimal.ofDigits_digits]
    omega
  · simp only [negative, decide_false, Decimal.ofDigits_digits]
    omega

/-- A number with an exponent denotes its decimal. -/
theorem toDecimal_scientific (negative : Bool) (d : Decimal) :
    (scientific negative d).toDecimal = d := by
  have value := Decimal.ofDigits_digits d.coefficient
  have place : d.leadingPlace = d.exponent + (Decimal.digits d.coefficient).length - 1 := rfl
  have nonempty := Decimal.digits_ne_nil d.coefficient
  obtain ⟨coefficient, exponent⟩ := d
  rw [scientific]
  generalize Decimal.digits coefficient = digits at *
  cases digits with
  | nil => exact absurd rfl nonempty
  | cons first behind =>
    cases behind with
    | nil =>
      rw [toDecimal, writtenExponent_of_place rfl, place]
      simp only [Option.getD_none, List.append_nil, value, List.length_nil, List.length_singleton,
        Decimal.mk.injEq, true_and]
      omega
    | cons second rest =>
      rw [toDecimal, writtenExponent_of_place rfl, place]
      simp only [Option.getD_some, List.singleton_append, value, List.length_cons,
        Decimal.mk.injEq, true_and]
      omega

/-! ## Reading with one rounding -/

theorem ofDigits_cons (c : Char) (cs : List Char) :
    Decimal.ofDigits (c :: cs) =
      10 ^ cs.length * (c.toNat - '0'.toNat) + Decimal.ofDigits cs := by
  rw [← List.singleton_append, Decimal.ofDigits_append]
  simp [Decimal.ofDigits, Nat.ofDigitChars_cons]

/-- Digits that fit sixty-four bits are all taken. -/
theorem absorb_eq {cs : List Char} {word : Nat}
    (fits : 10 ^ cs.length * word + Decimal.ofDigits cs < wordLimit) :
    absorb word cs = (10 ^ cs.length * word + Decimal.ofDigits cs, []) := by
  induction cs generalizing word with
  | nil =>
      rw [absorb, List.length_nil, Nat.pow_zero, Nat.one_mul]
      rfl
  | cons c cs ih =>
      have total : 10 ^ (c :: cs).length * word + Decimal.ofDigits (c :: cs) =
          10 ^ cs.length * (10 * word + (c.toNat - '0'.toNat)) + Decimal.ofDigits cs := by
        rw [ofDigits_cons, List.length_cons, Nat.pow_succ, Nat.mul_add, Nat.mul_assoc,
          Nat.add_assoc]
      rw [total] at fits ⊢
      have next : 10 * word + (c.toNat - '0'.toNat) < wordLimit := by
        have power : 1 ≤ 10 ^ cs.length := Nat.one_le_pow _ _ (by decide)
        have := Nat.mul_le_mul_right (10 * word + (c.toNat - '0'.toNat)) power
        omega
      rw [absorb, if_pos next, ih fits]

/-- All digits of a literal are taken, if they fit. -/
theorem parts_eq {n : Number} (fits : n.toDecimal.coefficient < wordLimit) :
    n.parts = (n.toDecimal.coefficient, n.toDecimal.exponent) := by
  simp only [toDecimal, Decimal.ofDigits_append] at fits ⊢
  have power : 1 ≤ 10 ^ (n.fraction.getD []).length := Nat.one_le_pow _ _ (by decide)
  have front := Nat.mul_le_mul_right (Decimal.ofDigits n.whole) power
  have whole : absorb 0 n.whole = (Decimal.ofDigits n.whole, []) := by
    rw [absorb_eq (by omega), Nat.mul_zero, Nat.zero_add]
  have fraction := absorb_eq fits
  simp only [parts, whole, fraction, List.length_nil, Prod.mk.injEq, true_and]
  omega

/-- An exact number divided by an exact power of ten. -/
theorem divideByPower_ofNat {word k : Nat} (exact : IsExact word) (small : k ≤ 22) :
    divideByPower (.ofNat word) k = .nearest false (word * Magnitude.unitsPerOne) (10 ^ k) := by
  have power : 0 < 10 ^ k := Nat.pow_pos (by decide)
  rw [divideByPower]
  split
  · -- zero is left as it is
    rename_i zero
    obtain ⟨m, double, units⟩ := Binary64.ofNat_exact exact
    have none : m.units = 0 := by
      rw [m.units_eq_zero_iff]
      rwa [double] at zero
    rw [Binary64.ofNat]
    rw [none] at units
    refine Binary64.nearest_congr (by decide) power ?_ false
    rw [← units, Nat.zero_mul, Nat.zero_mul]
  · rw [if_pos (by rw [greatestPower]; omega)]
    exact Binary64.div_exact exact (isExact_powerOfTen small) power

/-- A literal whose digits and power of ten are doubles without rounding. -/
structure Short (n : Number) : Prop where
  exact : IsExact n.toDecimal.coefficient
  fits : n.toDecimal.coefficient < wordLimit
  exponent : ∃ k : Nat, 0 < k ∧ k ≤ 22 ∧ n.toDecimal.exponent = -(k : Int)

/-- **A short literal is read as the double nearest to it.** -/
theorem Short.toBinary64?_eq {n : Number} (short : n.Short) :
    n.toBinary64? = some (n.toDecimal.toBinary64 n.negative) := by
  obtain ⟨exact, fits, k, pos, small, exponent⟩ := short
  have numerator : n.toDecimal.numerator = n.toDecimal.coefficient := by
    have flat : (-(k : Int)).toNat = 0 := by omega
    rw [Decimal.numerator, exponent, flat, Nat.pow_zero, Nat.mul_one]
  have denominator : n.toDecimal.denominator = 10 ^ k := by
    rw [Decimal.denominator, exponent, Int.neg_neg, Int.toNat_natCast]
  have below : ¬ (0 : Int) ≤ -(k : Int) := by omega
  have read : scaled? n.toDecimal.coefficient (-(k : Int)) =
      some (n.toDecimal.toBinary64 false) := by
    rw [scaled?, if_neg below, Int.neg_neg, Int.toNat_natCast, divideByPower_ofNat exact small,
      Decimal.toBinary64, numerator, denominator]
  simp only [toBinary64?, parts_eq fits, exponent, read]
  cases n.negative with
  | false => rw [if_neg Bool.false_ne_true]
  | true => rw [if_pos rfl, ← Decimal.toBinary64_not, Bool.not_false]

end Json.Number

/-! ## The numbers of the calculator -/

/-- A shortest decimal with at most fifteen digits in all, over at most `10 ^ 22`. -/
def Magnitude.FewDigits (m : Magnitude) : Prop :=
  (m.shortest .toEven).numerator < 10 ^ 15 ∧ (m.shortest .toEven).denominator ≤ 10 ^ 22

instance (m : Magnitude) : Decidable m.FewDigits := inferInstanceAs (Decidable (_ ∧ _))

namespace Json.Number

/-- The decimal of a magnitude other than zero is not zero. -/
theorem coefficient_pos {m : Magnitude} (nonzero : ¬ m.isZero) :
    0 < (m.shortest .toEven).coefficient := by
  rw [Nat.pos_iff_ne_zero]
  intro zero
  have reads := m.shortest_readsAs .toEven
  generalize m.shortest .toEven = d at reads zero
  obtain ⟨coefficient, exponent⟩ := d
  subst zero
  have isZero := Numeral.zero_readsAs exponent
  rw [Decimal.readsAs_iff_nearest] at reads isZero
  rw [Option.some.inj (reads.symm.trans isZero)] at nonzero
  exact nonzero rfl

/-- A decimal without a whole exponent, in either notation. -/
theorem short_of_fraction {n : Number} {d : Decimal} (same : n.toDecimal = d)
    (below : d.exponent < 0) (digits : d.numerator < 10 ^ 15)
    (places : d.denominator ≤ 10 ^ 22) : n.Short := by
  have limit : 10 ^ 15 < wordLimit := by decide
  have flat : d.exponent.toNat = 0 := by omega
  have small : (-d.exponent).toNat ≤ 22 := (Nat.pow_le_pow_iff_right (by decide)).mp places
  rw [Decimal.numerator, flat, Nat.pow_zero, Nat.mul_one] at digits
  rw [← same] at below digits small
  exact ⟨isExact_of_lt (by omega), by omega, (-n.toDecimal.exponent).toNat, by omega, small,
    by omega⟩

/-- A whole number of few digits is written with a zero behind the point: it is too short for an
exponent. -/
theorem short_of_whole (negative : Bool) {d : Decimal} (whole : 0 ≤ d.exponent)
    (digits : d.numerator < 10 ^ 15) : (positional negative d).Short := by
  have limit : 10 * 10 ^ 15 < wordLimit := by decide
  have value := toDecimal_positional_of_nonneg negative whole
  have twice : 10 * d.numerator = 2 * (5 * d.numerator) := by omega
  constructor
  · rw [value]
    dsimp only
    rw [twice]
    exact isExact_two_mul (by omega)
  · rw [value]
    dsimp only
    omega
  · exact ⟨1, by decide, by decide, by rw [value]; rfl⟩

theorem isPositionalPlace_of_whole {d : Decimal} (pos : 0 < d.coefficient)
    (whole : 0 ≤ d.exponent) (digits : d.numerator < 10 ^ 15) :
    isPositionalPlace d.leadingPlace = true := by
  have length : (Decimal.digits d.numerator).length =
      (Decimal.digits d.coefficient).length + d.exponent.toNat := by
    rw [Decimal.numerator, Decimal.digits_shift pos, List.length_append, List.length_replicate]
  have short : (Decimal.digits d.numerator).length ≤ 15 :=
    (Decimal.length_digits_le_iff (by decide)).mpr digits
  have some_digit := Decimal.length_digits_pos d.coefficient
  rw [isPositionalPlace, Decimal.leadingPlace, Bool.and_eq_true]
  exact ⟨decide_eq_true (by omega), decide_eq_true (by omega)⟩

/-- The number of a decimal with few digits denotes it, and can be read with one rounding. -/
theorem short_of_decimal (negative : Bool) {d : Decimal} (pos : 0 < d.coefficient)
    (digits : d.numerator < 10 ^ 15) (places : d.denominator ≤ 10 ^ 22) {n : Number}
    (written : n = if isPositionalPlace d.leadingPlace then positional negative d
      else scientific negative d) :
    n.toDecimal.SameValue d ∧ n.Short := by
  rcases Int.lt_or_le d.exponent 0 with below | whole
  · have same : n.toDecimal = d := by
      rw [written]
      split
      · exact toDecimal_positional_of_neg negative below
      · exact toDecimal_scientific negative d
    refine ⟨?_, short_of_fraction same below digits places⟩
    rw [same]
    exact .refl d
  · rw [if_pos (isPositionalPlace_of_whole pos whole digits)] at written
    rw [written]
    exact ⟨sameValue_positional negative d, short_of_whole negative whole digits⟩

theorem negative_scientific (negative : Bool) (d : Decimal) :
    (scientific negative d).negative = negative := by
  unfold scientific
  dsimp only
  split <;> rfl

theorem negative_positional (negative : Bool) (d : Decimal) :
    (positional negative d).negative = negative := by
  unfold positional
  split <;> rfl

/-- **A double of few digits is read back from its number**, and so are both zeros. -/
theorem toBinary64?_ofFinite (negative : Bool) {m : Magnitude} (few : m.FewDigits) :
    (ofFinite negative m).toBinary64? = some (.finite negative m) := by
  by_cases zero : m.isZero
  · have literal : toBinary64? ⟨negative, ['0'], some ['0'], none⟩ =
        some (.finite negative .zero) := by
      cases negative <;> decide +kernel
    rw [ofFinite, if_pos zero, literal, Magnitude.eq_zero_of_isZero zero]
  · have written : ofFinite negative m =
        if isPositionalPlace (m.shortest .toEven).leadingPlace then
          positional negative (m.shortest .toEven)
        else scientific negative (m.shortest .toEven) := by
      rw [ofFinite, if_neg zero]
    generalize ofFinite negative m = n at written ⊢
    obtain ⟨same, short⟩ :=
      short_of_decimal negative (coefficient_pos zero) few.1 few.2 written
    have reads := (same.readsAs_iff m).mpr (m.shortest_readsAs .toEven)
    have sign : n.negative = negative := by
      rw [written]
      split
      · exact negative_positional negative _
      · exact negative_scientific negative _
    rw [short.toBinary64?_eq, sign, Decimal.toBinary64_of_readsAs reads]

end Json.Number

end Calculator
