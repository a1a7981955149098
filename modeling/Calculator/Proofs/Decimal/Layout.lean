/-
# Calculator.Proofs.Decimal.Layout -- the texts of a decimal, by its digits and its place

A decimal without trailing zeros is written from its digits and the place of the first of them
alone.  A positional text has zeros in front of the digits when the place is behind the point
(`positional_behind`), zeros behind them when the digits end in front of it
(`positional_whole`), and is cut by the point otherwise (`positional_cut`).

* `exists_trim_eq`: dropping trailing zeros drops them from the digits, and keeps the place.
-/
import Calculator.Proofs.Decimal.Digits

namespace Calculator.Decimal

set_option autoImplicit false

/-! ## Trailing zeros -/

/-- The digits end in zeros that are dropped, and the exponent counts them. -/
theorem exists_trim_eq (d : Decimal) (pos : 0 < d.coefficient) :
    ∃ zeros : Nat, d.coefficient = d.trim.coefficient * 10 ^ zeros ∧
      d.trim.exponent = d.exponent + zeros ∧ d.trim.coefficient % 10 ≠ 0 := by
  induction d using trim.induct with
  | case1 d trailing ih =>
    obtain ⟨zeros, coefficient, exponent, settled⟩ := ih (show 0 < d.coefficient / 10 by omega)
    rw [trim, if_pos trailing]
    refine ⟨zeros + 1, ?_, ?_, settled⟩
    · rw [Nat.pow_succ, ← Nat.mul_assoc, ← coefficient]
      show d.coefficient = d.coefficient / 10 * 10
      omega
    · rw [exponent, Int.natCast_succ]
      show d.exponent + 1 + zeros = d.exponent + (zeros + 1)
      omega
  | case2 d settled =>
    rw [trim, if_neg settled]
    exact ⟨0, (Nat.mul_one _).symm, (Int.add_zero _).symm, fun zero => settled ⟨pos, zero⟩⟩

theorem trim_settled {d : Decimal} (pos : 0 < d.coefficient) : d.trim.coefficient % 10 ≠ 0 := by
  obtain ⟨-, -, -, settled⟩ := exists_trim_eq d pos
  exact settled

theorem digits_eq_trim {d : Decimal} (pos : 0 < d.coefficient) :
    ∃ zeros, digits d.coefficient = digits d.trim.coefficient ++ List.replicate zeros '0' := by
  obtain ⟨zeros, coefficient, -, settled⟩ := exists_trim_eq d pos
  refine ⟨zeros, ?_⟩
  rw [coefficient, digits_shift (by omega)]

theorem leadingPlace_trim {d : Decimal} (pos : 0 < d.coefficient) :
    d.trim.leadingPlace = d.leadingPlace := by
  obtain ⟨zeros, coefficient, exponent, settled⟩ := exists_trim_eq d pos
  rw [leadingPlace, leadingPlace, coefficient, digits_shift (by omega), exponent,
    List.length_append, List.length_replicate]
  omega

/-! ## Positional texts -/

section Positional

variable {d : Decimal}

/-- The first digit behind the point: zeros fill the places up to it. -/
theorem positional_behind (behind : d.leadingPlace < 0) :
    d.positional =
      '0' :: '.' :: (List.replicate (-d.leadingPlace - 1).toNat '0' ++ digits d.coefficient) := by
  have some_digit := length_digits_pos d.coefficient
  rw [leadingPlace] at behind ⊢
  have small : d.coefficient < 10 ^ (-d.exponent).toNat :=
    (length_digits_le_iff (by omega)).mp (by omega)
  have width : (-d.exponent).toNat - (digits d.coefficient).length =
      (-(d.exponent + (digits d.coefficient).length - 1) - 1).toNat := by omega
  rw [positional, if_neg (by omega)]
  simp only []
  rw [Nat.div_eq_of_lt small, Nat.mod_eq_of_lt small, padded, width]
  rfl

/-- The last digit in front of the point: zeros fill the places up to it. -/
theorem positional_whole (pos : 0 < d.coefficient) (whole : 0 ≤ d.exponent) :
    d.positional =
      digits d.coefficient ++
        List.replicate (d.leadingPlace.toNat + 1 - (digits d.coefficient).length) '0' := by
  have some_digit := length_digits_pos d.coefficient
  have zeros : d.leadingPlace.toNat + 1 - (digits d.coefficient).length = d.exponent.toNat := by
    rw [leadingPlace]
    omega
  rw [positional, if_pos whole, digits_shift pos, zeros]

/-- The point between two digits. -/
theorem positional_cut (front : 0 ≤ d.leadingPlace) (behind : d.exponent < 0) :
    d.positional =
      (digits d.coefficient).take (d.leadingPlace.toNat + 1) ++
        '.' :: (digits d.coefficient).drop (d.leadingPlace.toNat + 1) := by
  rw [leadingPlace] at front
  have places : 0 < (-d.exponent).toNat := by omega
  have large : 10 ^ (-d.exponent).toNat ≤ d.coefficient := by
    have longer := length_digits_le_iff (n := d.coefficient) places
    omega
  have split := digits_split places large
  have width := length_padded places
    (Nat.mod_lt d.coefficient (Nat.pow_pos (by decide : 0 < 10)))
  have cut : (digits (d.coefficient / 10 ^ (-d.exponent).toNat)).length =
      d.leadingPlace.toNat + 1 := by
    have total := congrArg List.length split
    rw [List.length_append, width] at total
    rw [leadingPlace]
    omega
  rw [positional, if_neg (by omega), split, List.take_left' cut, List.drop_left' cut]

end Positional

end Calculator.Decimal
