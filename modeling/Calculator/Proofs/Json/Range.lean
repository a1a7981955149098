/-
# Calculator.Proofs.Json.Range -- the number of a double can be read

A literal cannot be read as a double when its digits times their power of ten are too large.
The number of a finite double always can be.  The greatest double is a case of its own.  What
is written of any other one is less than half a step above its predecessor at most, and so far
below the greatest that two roundings do not reach beyond it: this is looked up for the greatest
digits in front of each power of ten (`greatest_products`), and lesser digits have lesser
products.

* `toBinary64?_ofFinite_isSome`: the number of a finite double is read as a finite double.
-/
import Calculator.Proofs.Binary64.Order
import Calculator.Proofs.Json.Doubles

namespace Calculator

set_option autoImplicit false

namespace Json.Number

/-! ## Powers of ten -/

theorem exists_powerOfTen {k : Nat} (small : k ≤ greatestPower) :
    ∃ m, powerOfTen k = .finite false m ∧ Magnitude.unitsPerOne ≤ m.units := by
  have top : (powerOfTen greatestPower).isFinite := by decide +kernel
  obtain ⟨most, power, -⟩ := Binary64.exists_ofNat top
  obtain ⟨m, finite, -⟩ :=
    Binary64.exists_ofNat_of_le (Nat.pow_le_pow_right (by decide) small) power
  obtain ⟨one, origin, units⟩ := Binary64.ofNat_exact (n := 1) (isExact_of_lt (by decide))
  obtain ⟨least, same, le⟩ :=
    Binary64.exists_ofNat_of_le (Nat.one_le_pow k 10 (by decide)) finite
  rw [origin] at same
  obtain rfl : one = least := by simpa using same
  rw [units, Nat.one_mul] at le
  exact ⟨m, finite, le⟩

/-- Dividing by powers of ten does not leave the finite doubles. -/
theorem divideByPower_finite {x : Binary64} (finite : x.isFinite) (k : Nat) :
    (divideByPower x k).isFinite := by
  induction x, k using divideByPower.induct with
  | case1 x k zero =>
    rw [divideByPower, if_pos zero]
    exact finite
  | case2 x k nonzero small =>
    obtain ⟨n, power, units⟩ := exists_powerOfTen small
    rw [divideByPower, if_neg nonzero, if_pos small, power]
    exact Binary64.div_finite finite units
  | case3 x k nonzero large ih =>
    obtain ⟨n, power, units⟩ := exists_powerOfTen (Nat.le_refl greatestPower)
    rw [divideByPower, if_neg nonzero, if_neg large]
    refine ih ?_
    rw [power]
    exact Binary64.div_finite finite units

/-! ## Digits that are taken -/

/-- The digits that are taken fit sixty-four bits, and do not denote more than all the digits
do. -/
theorem absorb_spec {word : Nat} (fits : word < wordLimit) (cs : List Char) :
    (absorb word cs).1 < wordLimit ∧ (absorb word cs).2.length ≤ cs.length ∧
      (absorb word cs).1 * 10 ^ (absorb word cs).2.length ≤
        10 ^ cs.length * word + Decimal.ofDigits cs := by
  induction cs generalizing word with
  | nil => exact ⟨fits, Nat.le_refl 0, by rw [absorb, Nat.mul_comm]; exact Nat.le_add_right _ _⟩
  | cons c cs ih =>
    rw [absorb]
    split
    · rename_i next
      obtain ⟨below, shorter, le⟩ := ih next
      refine ⟨below, Nat.le_succ_of_le shorter, Nat.le_trans le (Nat.le_of_eq ?_)⟩
      rw [ofDigits_cons, List.length_cons, Nat.pow_succ, Nat.mul_add, Nat.mul_assoc, Nat.add_assoc]
    · refine ⟨fits, Nat.le_refl _, ?_⟩
      rw [Nat.mul_comm]
      exact Nat.le_add_right _ _

/-- A literal whose whole part fits is read from digits of the decimal that it denotes. -/
theorem parts_spec {n : Number} (whole : Decimal.ofDigits n.whole < wordLimit) :
    n.parts.1 < wordLimit ∧ ∃ left : Nat, n.parts.2 = n.toDecimal.exponent + left ∧
      n.parts.1 * 10 ^ left ≤ n.toDecimal.coefficient := by
  have front : absorb 0 n.whole = (Decimal.ofDigits n.whole, []) := by
    rw [absorb_eq (by omega), Nat.mul_zero, Nat.zero_add]
  obtain ⟨below, shorter, le⟩ := absorb_spec whole (n.fraction.getD [])
  simp only [parts, front, toDecimal, List.length_nil, Decimal.ofDigits_append]
  generalize absorb (Decimal.ofDigits n.whole) (n.fraction.getD []) = taken at *
  obtain ⟨word, left⟩ := taken
  exact ⟨below, left.length, by dsimp only at shorter ⊢; omega, le⟩

/-! ## Products with a power of ten -/

/-- Half a step above the predecessor of the greatest magnitude, in halves of units. -/
def twiceBound : Nat := 2 * Magnitude.greatest.units - 2 ^ Magnitude.greatest.scale

/-- The greatest number of sixty-four bits that is below the bound with a power of ten. -/
def greatestWord (k : Nat) : Nat :=
  min (wordLimit - 1) (twiceBound / (2 * (10 ^ k * Magnitude.unitsPerOne)))

/-- Up to this power of ten all numbers of sixty-four bits are below the bound. -/
theorem greatestWord_eq : greatestWord 288 = wordLimit - 1 := by decide +kernel

/-- From there on the greatest number is looked up: its product is finite. -/
theorem greatest_products : (List.range' 288 21).all fun k =>
    ((Binary64.ofNat (greatestWord k)).mul (powerOfTen k)).isFinite := by
  decide +kernel

theorem twiceBound_lt : twiceBound < 2 * (10 ^ (greatestPower + 1) * Magnitude.unitsPerOne) := by
  decide +kernel

theorem exists_word {word : Nat} (fits : word < wordLimit) :
    ∃ m, Binary64.ofNat word = .finite false m := by
  have limit : (Binary64.ofNat (wordLimit - 1)).isFinite := by decide +kernel
  obtain ⟨most, last, -⟩ := Binary64.exists_ofNat limit
  obtain ⟨m, number, -⟩ :=
    Binary64.exists_ofNat_of_le (show word ≤ wordLimit - 1 by omega) last
  exact ⟨m, number⟩

section Product

variable {word k : Nat} (below : 2 * (word * 10 ^ k * Magnitude.unitsPerOne) ≤ twiceBound)
include below

theorem power_le (nonzero : 0 < word) : k ≤ greatestPower := by
  refine Nat.not_lt.mp fun large => ?_
  have power : 10 ^ (greatestPower + 1) ≤ word * 10 ^ k :=
    Nat.le_trans (Nat.pow_le_pow_right (by decide) large) (Nat.le_mul_of_pos_left _ nonzero)
  have beyond := Nat.mul_le_mul_left 2 (Nat.mul_le_mul_right Magnitude.unitsPerOne power)
  exact absurd (Nat.lt_of_lt_of_le twiceBound_lt beyond) (Nat.not_lt.mpr below)

theorem word_le (fits : word < wordLimit) : word ≤ greatestWord (max k 288) := by
  rcases Nat.le_total k 288 with small | large
  · rw [Nat.max_eq_right small, greatestWord_eq]
    omega
  · have unit : 0 < 2 * (10 ^ k * Magnitude.unitsPerOne) :=
      Nat.mul_pos (by decide) (Nat.mul_pos (Nat.pow_pos (by decide)) (Nat.two_pow_pos _))
    rw [Nat.max_eq_left large]
    have product : word * (2 * (10 ^ k * Magnitude.unitsPerOne)) =
        2 * (word * 10 ^ k * Magnitude.unitsPerOne) := by
      rw [Nat.mul_left_comm, Nat.mul_assoc word]
    refine Nat.le_min.mpr ⟨by omega, (Nat.le_div_iff_mul_le unit).mpr ?_⟩
    rw [product]
    exact below

/-- **Digits below the bound have a finite product with their power of ten.** -/
theorem multiplyByPower?_isSome (fits : word < wordLimit) :
    ∃ x, multiplyByPower? (.ofNat word) k = some x ∧ x.isFinite := by
  obtain ⟨m', greatest⟩ := exists_word (show greatestWord (max k 288) < wordLimit from
    Nat.lt_of_le_of_lt (Nat.min_le_left _ _) (by decide))
  obtain ⟨m, number, order⟩ := Binary64.exists_ofNat_of_le (word_le below fits) greatest
  rw [multiplyByPower?, number]
  split
  · exact ⟨_, rfl, rfl⟩
  rename_i nonzero
  have positive : 0 < word := by
    rw [Nat.pos_iff_ne_zero]
    rintro rfl
    rw [← number] at nonzero
    exact nonzero (by decide +kernel)
  have small := power_le below positive
  have power : greatestPower = 308 := rfl
  have listed : max k 288 ∈ List.range' 288 21 := by
    rw [List.mem_range'_1]
    omega
  have product := List.all_eq_true.mp greatest_products _ listed
  obtain ⟨n', tens', -⟩ := exists_powerOfTen (show max k 288 ≤ greatestPower by omega)
  obtain ⟨n, tens, factor⟩ := Binary64.exists_ofNat_of_le
    (Nat.pow_le_pow_right (by decide) (Nat.le_max_left k 288)) tens'
  have tens : powerOfTen k = .finite false n := tens
  rw [greatest, tens'] at product
  have finite := Binary64.mul_finite_of_le order factor product
  rw [if_pos small, tens, if_pos finite]
  exact ⟨_, rfl, finite⟩

end Product

/-- A whole number below the bound with its power of ten is scaled to a finite double. -/
theorem scaled?_isSome {word : Nat} (fits : word < wordLimit) {exponent : Int}
    (below : 0 ≤ exponent →
      2 * (word * 10 ^ exponent.toNat * Magnitude.unitsPerOne) ≤ twiceBound) :
    ∃ x, scaled? word exponent = some x ∧ x.isFinite := by
  rw [scaled?]
  split
  · rename_i multiple
    exact multiplyByPower?_isSome (below multiple) fits
  · obtain ⟨m, number⟩ := exists_word fits
    exact ⟨_, rfl, divideByPower_finite (by rw [number]; rfl) _⟩

/-! ## The numbers of doubles -/

/-- What is taken of a decimal is not more than the decimal. -/
theorem taken_le {d : Decimal} {word left : Nat} (le : word * 10 ^ left ≤ d.coefficient)
    (multiple : 0 ≤ d.exponent + left) :
    word * 10 ^ (d.exponent + left).toNat * d.denominator ≤ d.numerator := by
  have power : 10 ^ (d.exponent + left).toNat * d.denominator = 10 ^ left * 10 ^ d.exponent.toNat := by
    rw [Decimal.denominator, ← Nat.pow_add, ← Nat.pow_add]
    congr 1
    omega
  rw [Nat.mul_assoc, power, ← Nat.mul_assoc]
  exact Nat.mul_le_mul_right _ le

/-- **A literal that denotes a decimal near a magnitude is read as a finite double**, if the
magnitude is not the greatest. -/
theorem toBinary64?_isSome {n : Number} (whole : Decimal.ofDigits n.whole < wordLimit)
    {m : Magnitude} (reads : n.toDecimal.readsAs m) (lesser : m ≠ .greatest) :
    ∃ x, n.toBinary64? = some x ∧ x.isFinite := by
  obtain ⟨fits, left, exponent, le⟩ := parts_spec whole
  have near := Magnitude.le_of_nearest n.toDecimal.denominator_pos
    (Decimal.readsAs_iff_nearest.mp reads)
  have bound : 2 * m.units + 2 ^ Magnitude.greatest.scale ≤ twiceBound := by
    have room := Magnitude.units_add_le_greatest lesser
    rw [twiceBound]
    omega
  have below : 0 ≤ n.parts.2 →
      2 * (n.parts.1 * 10 ^ n.parts.2.toNat * Magnitude.unitsPerOne) ≤ twiceBound := by
    intro multiple
    rw [exponent] at multiple ⊢
    refine Nat.le_of_mul_le_mul_right ?_ n.toDecimal.denominator_pos
    calc 2 * (n.parts.1 * 10 ^ (n.toDecimal.exponent + left).toNat * Magnitude.unitsPerOne) *
            n.toDecimal.denominator
        = 2 * (n.parts.1 * 10 ^ (n.toDecimal.exponent + left).toNat * n.toDecimal.denominator *
            Magnitude.unitsPerOne) := by rw [Nat.mul_assoc 2, Nat.mul_right_comm _ Magnitude.unitsPerOne]
      _ ≤ 2 * (n.toDecimal.numerator * Magnitude.unitsPerOne) :=
          Nat.mul_le_mul_left _ (Nat.mul_le_mul_right _ (taken_le le multiple))
      _ ≤ (2 * m.units + 2 ^ Magnitude.greatest.scale) * n.toDecimal.denominator := near
      _ ≤ twiceBound * n.toDecimal.denominator := Nat.mul_le_mul_right _ bound
  obtain ⟨x, scaled, finite⟩ := scaled?_isSome fits below
  refine ⟨if n.negative then x.neg else x, ?_, ?_⟩
  · simp only [toBinary64?, scaled]
  · split
    · rw [Binary64.isFinite_neg, finite]
    · exact finite

/-- Without an exponent the first digit is at the sixteenth place in front of the point at
most. -/
theorem whole_positional_lt (negative : Bool) {d : Decimal} (pos : 0 < d.coefficient)
    (place : d.leadingPlace < 16) :
    Decimal.ofDigits (positional negative d).whole < 10 ^ 16 := by
  rw [Decimal.leadingPlace] at place
  rcases Int.lt_or_le d.exponent 0 with below | whole
  · have large : d.coefficient < 10 ^ (16 + (-d.exponent).toNat) :=
      (Decimal.length_digits_le_iff (by omega)).mp (by omega)
    rw [Nat.pow_add] at large
    rw [positional, if_neg (by omega), Decimal.ofDigits_digits]
    exact (Nat.div_lt_iff_lt_mul (Nat.pow_pos (by decide))).mpr large
  · rw [positional, if_pos whole, Decimal.ofDigits_digits]
    refine (Decimal.length_digits_le_iff (by decide)).mp ?_
    rw [Decimal.digits_shift pos, List.length_append, List.length_replicate]
    omega

/-- With an exponent it stands alone in front of the point. -/
theorem whole_scientific_lt (negative : Bool) (d : Decimal) :
    Decimal.ofDigits (scientific negative d).whole < 10 ^ 1 := by
  have each : ∀ c ∈ Decimal.digits d.coefficient, c.isDigit := fun _ => Decimal.isDigit_of_mem_digits
  rw [scientific]
  generalize Decimal.digits d.coefficient = digits at each
  cases digits with
  | nil => exact Nat.pow_pos (by decide)
  | cons first behind =>
    have alone : ∀ c ∈ [first], c.isDigit := fun c member =>
      each c (List.mem_cons.mpr (.inl (List.mem_singleton.mp member)))
    cases behind with
    | nil => exact Decimal.ofDigits_lt alone
    | cons second rest => exact Decimal.ofDigits_lt alone

/-- **The number of a finite double is read as a finite double.** -/
theorem toBinary64?_ofFinite_isSome (negative : Bool) (m : Magnitude) :
    ∃ x, (ofFinite negative m).toBinary64? = some x ∧ x.isFinite := by
  by_cases zero : m.isZero
  · obtain rfl := Magnitude.eq_zero_of_isZero zero
    exact ⟨_, toBinary64?_ofFinite negative (by decide +kernel), rfl⟩
  by_cases other : m ≠ .greatest
  · have reads := m.shortest_readsAs .toEven
    have pos := coefficient_pos zero
    rw [ofFinite, if_neg zero]
    generalize m.shortest .toEven = d at reads pos ⊢
    have limit : 10 ^ 16 < wordLimit := by decide
    dsimp only
    split
    · rename_i place
      rw [isPositionalPlace, Bool.and_eq_true] at place
      have short := whole_positional_lt negative pos (of_decide_eq_true place.2)
      exact toBinary64?_isSome (by omega)
        (((sameValue_positional negative d).readsAs_iff m).mpr reads) other
    · have short := whole_scientific_lt negative d
      refine toBinary64?_isSome (by omega) ?_ other
      rwa [toDecimal_scientific]
  · obtain rfl := Decidable.not_not.mp other
    have read : (ofFinite negative .greatest).toBinary64?.any Binary64.isFinite := by
      cases negative <;> decide +kernel
    cases found : (ofFinite negative .greatest).toBinary64? with
    | none =>
      rw [found] at read
      exact absurd read Bool.false_ne_true
    | some x =>
      rw [found] at read
      exact ⟨x, rfl, read⟩

end Json.Number

end Calculator
