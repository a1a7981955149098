/-
# Calculator.Rounding -- a quotient, rounded to an integer

`roundHalfEven n d` is the integer nearest to `n / d`; a quotient exactly half
way between two integers goes to the even one.  Every rounding of the
calculator, binary or decimal, is this one applied on a suitable grid.

* `roundHalfEven_within`, `roundHalfEven_even`: at most half a unit away, and
  even at exactly that;
* `roundHalfEven_mul`, `roundHalfEven_mono`: whole quotients are kept, and a
  greater quotient has no lesser result.
-/
namespace Calculator

set_option autoImplicit false

/-- A library of algebra brings a power of its own.  On natural numbers `^` is the
core power here, whatever else is imported. -/
@[default_instance 10000]
instance (priority := 10000) corePow : Pow Nat Nat := instPowNat

/-- The integer nearest to `num / den`, a half going to the even neighbour. -/
def roundHalfEven (num den : Nat) : Nat :=
  if 2 * (num % den) < den ∨ (2 * (num % den) = den ∧ num / den % 2 = 0) then num / den
  else num / den + 1

theorem roundHalfEven_within (num den : Nat) (pos : 0 < den) :
    2 * num ≤ 2 * (roundHalfEven num den * den) + den ∧
      2 * (roundHalfEven num den * den) ≤ 2 * num + den := by
  have split := Nat.div_add_mod num den
  have small := Nat.mod_lt num pos
  rw [Nat.mul_comm] at split
  unfold roundHalfEven
  split
  · constructor <;> omega
  · rw [Nat.add_one_mul (num / den) den]
    constructor <;> omega

theorem roundHalfEven_even (num den : Nat) (pos : 0 < den)
    (half : 2 * num = 2 * (roundHalfEven num den * den) + den ∨
      2 * (roundHalfEven num den * den) = 2 * num + den) :
    roundHalfEven num den % 2 = 0 := by
  have split := Nat.div_add_mod num den
  have small := Nat.mod_lt num pos
  rw [Nat.mul_comm] at split
  unfold roundHalfEven at half ⊢
  split at half
  · rename_i down
    simp only [down, if_true]
    omega
  · rename_i up
    simp only [up, if_false]
    rw [Nat.add_one_mul (num / den) den] at half
    omega

theorem roundHalfEven_mul (n den : Nat) (pos : 0 < den) : roundHalfEven (n * den) den = n := by
  simp [roundHalfEven, Nat.mul_div_cancel n pos, pos]

theorem le_roundHalfEven {num den n : Nat} (pos : 0 < den) (low : n * den ≤ num) :
    n ≤ roundHalfEven num den := by
  have floor : n ≤ num / den := (Nat.le_div_iff_mul_le pos).mpr low
  unfold roundHalfEven
  split <;> omega

theorem roundHalfEven_le {num den n : Nat} (pos : 0 < den) (high : num < n * den) :
    roundHalfEven num den ≤ n := by
  have floor : num / den < n := (Nat.div_lt_iff_lt_mul pos).mpr high
  unfold roundHalfEven
  split <;> omega

theorem roundHalfEven_mono {num num' : Nat} (den : Nat) (le : num ≤ num') :
    roundHalfEven num den ≤ roundHalfEven num' den := by
  have quotient : num / den ≤ num' / den := Nat.div_le_div_right le
  rcases Nat.lt_or_eq_of_le quotient with less | equal
  · unfold roundHalfEven
    split <;> split <;> omega
  · -- on one whole part the remainders decide
    have split := Nat.div_add_mod num den
    have split' := Nat.div_add_mod num' den
    rw [← equal] at split'
    have remainder : num % den ≤ num' % den := by omega
    unfold roundHalfEven
    rw [← equal]
    split <;> split <;> omega

end Calculator
