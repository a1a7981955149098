/-
# Calculator.Proofs.Decimal.Digits -- a number and its digits

Digits without a superfluous leading zero are the digits of the number that they denote
(`digits_ofDigits`).  What numbers are cut into or put together from is read off that: the
digits of a product with a power of ten have zeros behind them (`digits_shift`), and the
digits of a number are those of its quotient by a power of ten and those of its remainder,
filled up to their places (`digits_split`).

* `digits_ofDigits`: digits determine a number and are determined by it;
* `length_digits_le_iff`, `head?_digits`, `getLast?_digits`: how many digits there are, and
  what the first and the last one are.
-/
import Mathlib.Data.List.Basic
import Mathlib.Data.List.Induction
import Calculator.Decimal

namespace Calculator.Decimal

set_option autoImplicit false

/-! ## Digits -/

theorem digitChar_of_isDigit {c : Char} (digit : c.isDigit) :
    c.toNat - '0'.toNat < 10 ∧ (c.toNat - '0'.toNat).digitChar = c := by
  rw [show '0'.toNat = 48 from rfl]
  have range : 48 ≤ c.toNat ∧ c.toNat ≤ 57 := by
    simpa [Char.isDigit, UInt32.le_iff_toNat_le] using digit
  have small : c.toNat - 48 < 10 := by omega
  refine ⟨small, Char.toNat_inj.mp ?_⟩
  have same := Nat.toNat_digitChar_of_lt_ten small
  omega

/-- Among the digits only that of zero is `0`. -/
theorem digitChar_eq_zero_iff {digit : Nat} (small : digit < 10) :
    digit.digitChar = '0' ↔ digit = 0 := by
  have each : ∀ digit < 10, digit.digitChar = '0' ↔ digit = 0 := by decide
  exact each digit small

theorem digits_ne_nil (n : Nat) : digits n ≠ [] := Nat.toDigits_ne_nil

theorem digits_of_lt {n : Nat} (small : n < 10) : digits n = [n.digitChar] :=
  Nat.toDigits_of_lt_base small

/-- The last digit is the remainder by ten. -/
theorem digits_of_le {n : Nat} (large : 10 ≤ n) :
    digits n = digits (n / 10) ++ [(n % 10).digitChar] :=
  Nat.toDigits_of_base_le (by decide) large

theorem isDigit_of_mem_digits {n : Nat} {c : Char} (member : c ∈ digits n) : c.isDigit :=
  Nat.isDigit_of_mem_toDigits (by decide) (by decide) member

theorem isDigit_of_mem_padded {width n : Nat} {c : Char} (member : c ∈ padded width n) :
    c.isDigit := by
  rcases List.mem_append.mp member with zero | digit
  · rw [List.eq_of_mem_replicate zero]
    rfl
  · exact isDigit_of_mem_digits digit

/-- Digits, and at least one of them. -/
structure IsDigits (cs : List Char) : Prop where
  nonempty : cs ≠ []
  each : ∀ c ∈ cs, c.isDigit

theorem isDigits_digits (n : Nat) : IsDigits (digits n) :=
  ⟨digits_ne_nil n, fun _ => isDigit_of_mem_digits⟩

theorem isDigits_padded (width n : Nat) : IsDigits (padded width n) :=
  ⟨by simp [padded, digits_ne_nil], fun _ => isDigit_of_mem_padded⟩

/-- A point with what stands behind it, or neither. -/
def pointed : Option (List Char) → List Char
  | none => []
  | some fraction => '.' :: fraction

/-! ## The number of digits -/

theorem length_digits_le_iff {n k : Nat} (pos : 0 < k) : (digits n).length ≤ k ↔ n < 10 ^ k :=
  Nat.length_toDigits_le_iff (by decide) pos

theorem length_digits_pos (n : Nat) : 0 < (digits n).length := Nat.length_toDigits_pos

theorem length_digits_eq_iff {n k : Nat} (pos : 0 < n) :
    (digits n).length = k + 1 ↔ 10 ^ k ≤ n ∧ n < 10 ^ (k + 1) := by
  have upper := length_digits_le_iff (n := n) k.succ_pos
  rcases Nat.eq_zero_or_pos k with rfl | more
  · have nonempty := length_digits_pos n
    omega
  · have lower := length_digits_le_iff (n := n) more
    omega

theorem length_padded {width n : Nat} (pos : 0 < width) (fits : n < 10 ^ width) :
    (padded width n).length = width := by
  have short : (digits n).length ≤ width := (length_digits_le_iff pos).mpr fits
  rw [padded, List.length_append, List.length_replicate]
  omega

/-! ## What digits denote -/

theorem ofDigits_singleton {digit : Nat} (small : digit < 10) :
    ofDigits [digit.digitChar] = digit := by
  rw [ofDigits, Nat.ofDigitChars_cons_digitChar_of_lt_ten small, Nat.ofDigitChars_nil]
  omega

/-- Digits split anywhere denote what both parts do, the first one shifted. -/
theorem ofDigits_append (front back : List Char) :
    ofDigits (front ++ back) = 10 ^ back.length * ofDigits front + ofDigits back := by
  rw [ofDigits, Nat.ofDigitChars_append, Nat.ofDigitChars_eq_ofDigitChars_zero]
  rfl

theorem ofDigits_zeros (count : Nat) : ofDigits (List.replicate count '0') = 0 := by
  rw [ofDigits, Nat.ofDigitChars_replicate_zero, Nat.mul_zero]

theorem ofDigits_padded (width n : Nat) : ofDigits (padded width n) = n := by
  rw [padded, ofDigits_append, ofDigits_zeros, ofDigits_digits]
  omega

/-- As many digits denote less than the power of ten with as many zeros. -/
theorem ofDigits_lt {cs : List Char} (each : ∀ c ∈ cs, c.isDigit) :
    ofDigits cs < 10 ^ cs.length := by
  induction cs using List.reverseRecOn with
  | nil => decide
  | append_singleton cs c ih =>
      obtain ⟨small, same⟩ := digitChar_of_isDigit (each c (by simp))
      have shorter := ih fun d member => each d (List.mem_append_left _ member)
      rw [← same, ofDigits_append, ofDigits_singleton small, List.length_append,
        List.length_singleton, Nat.pow_succ]
      omega

/-! ## Leading zeros -/

/-- No superfluous leading zero. -/
def NoLeadingZero (cs : List Char) : Prop := cs = ['0'] ∨ cs.head? ≠ some '0'

theorem head?_digits {n : Nat} (pos : 0 < n) : (digits n).head? ≠ some '0' := by
  induction n using Nat.strongRecOn with
  | ind n ih =>
    rcases Nat.lt_or_ge n 10 with small | large
    · rw [digits_of_lt small, List.head?_cons, ne_eq, Option.some.injEq,
        digitChar_eq_zero_iff small]
      omega
    · rw [digits_of_le large, List.head?_append_of_ne_nil _ (digits_ne_nil _)]
      exact ih (n / 10) (by omega) (by omega)

theorem noLeadingZero_digits (n : Nat) : NoLeadingZero (digits n) := by
  rcases Nat.eq_zero_or_pos n with rfl | pos
  · exact .inl rfl
  · exact .inr (head?_digits pos)

/-- **Digits determine a number and are determined by it**, when no zero leads them. -/
theorem digits_ofDigits {cs : List Char} (nonempty : cs ≠ []) (each : ∀ c ∈ cs, c.isDigit)
    (leading : NoLeadingZero cs) : digits (ofDigits cs) = cs := by
  induction cs using List.reverseRecOn with
  | nil => exact absurd rfl nonempty
  | append_singleton cs c ih =>
    obtain ⟨small, same⟩ := digitChar_of_isDigit (each c (by simp))
    have value : ofDigits (cs ++ [c]) = 10 * ofDigits cs + (c.toNat - '0'.toNat) := by
      rw [ofDigits_append, ← same, ofDigits_singleton small, same]
      rfl
    rw [value]
    generalize c.toNat - '0'.toNat = digit at small same
    rcases List.eq_nil_or_concat' cs with rfl | ⟨front, last, rfl⟩
    · -- one digit
      have flat : 10 * ofDigits [] + digit = digit := by
        show 10 * 0 + digit = digit
        omega
      rw [flat, digits_of_lt small, same]
      rfl
    · -- the digits in front of the last one denote more than zero, as no zero leads them
      have front_ne_nil : front ++ [last] ≠ [] := by simp
      have behind : (front ++ [last]).head? ≠ some '0' := by
        rcases leading with alone | head
        · exact absurd (congrArg List.length alone) (by simp)
        · rwa [List.head?_append_of_ne_nil _ front_ne_nil] at head
      have before := ih front_ne_nil (fun d member => each d (List.mem_append_left _ member))
        (.inr behind)
      have positive : 0 < ofDigits (front ++ [last]) := by
        rw [Nat.pos_iff_ne_zero]
        intro zero
        rw [zero] at before
        rw [← before] at behind
        exact behind rfl
      generalize ofDigits (front ++ [last]) = number at before positive ⊢
      have quotient : (10 * number + digit) / 10 = number := by omega
      have remainder : (10 * number + digit) % 10 = digit := by omega
      rw [digits_of_le (by omega), quotient, remainder, before, same]

/-- A power of ten as a factor puts zeros behind the digits. -/
theorem digits_shift {n : Nat} (pos : 0 < n) (k : Nat) :
    digits (n * 10 ^ k) = digits n ++ List.replicate k '0' := by
  have value : ofDigits (digits n ++ List.replicate k '0') = n * 10 ^ k := by
    rw [ofDigits_append, ofDigits_zeros, ofDigits_digits, List.length_replicate, Nat.mul_comm]
    rfl
  rw [← value]
  refine digits_ofDigits ?_ ?_ (.inr ?_)
  · simp [digits_ne_nil]
  · intro c member
    rcases List.mem_append.mp member with digit | zero
    · exact isDigit_of_mem_digits digit
    · rw [List.eq_of_mem_replicate zero]
      rfl
  · rw [List.head?_append_of_ne_nil _ (digits_ne_nil n)]
    exact head?_digits pos

/-- The digits of a number are those of its quotient by a power of ten, and those of its
remainder with the zeros that lead them. -/
theorem digits_split {n k : Nat} (pos : 0 < k) (large : 10 ^ k ≤ n) :
    digits n = digits (n / 10 ^ k) ++ padded k (n % 10 ^ k) := by
  have power : 0 < 10 ^ k := Nat.pow_pos (by decide)
  have width := length_padded pos (Nat.mod_lt n power)
  have value : ofDigits (digits (n / 10 ^ k) ++ padded k (n % 10 ^ k)) = n := by
    rw [ofDigits_append, width, ofDigits_digits, ofDigits_padded, Nat.div_add_mod]
  have whole : digits (ofDigits (digits (n / 10 ^ k) ++ padded k (n % 10 ^ k))) =
      digits (n / 10 ^ k) ++ padded k (n % 10 ^ k) := by
    refine digits_ofDigits ?_ ?_ (.inr ?_)
    · simp [digits_ne_nil]
    · intro c member
      rcases List.mem_append.mp member with digit | digit
      · exact isDigit_of_mem_digits digit
      · exact isDigit_of_mem_padded digit
    · rw [List.head?_append_of_ne_nil _ (digits_ne_nil _)]
      exact head?_digits (Nat.div_pos large power)
  rwa [value] at whole

/-! ## Trailing zeros -/

theorem getLast?_digits (n : Nat) : (digits n).getLast? = some (n % 10).digitChar := by
  rcases Nat.lt_or_ge n 10 with small | large
  · rw [digits_of_lt small, Nat.mod_eq_of_lt small]
    rfl
  · rw [digits_of_le large, List.getLast?_concat]

theorem getLast?_digits_ne_zero {n : Nat} (settled : n % 10 ≠ 0) :
    (digits n).getLast? ≠ some '0' := by
  rw [getLast?_digits, ne_eq, Option.some.injEq, digitChar_eq_zero_iff (Nat.mod_lt n (by decide))]
  exact settled

end Calculator.Decimal
