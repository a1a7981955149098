/-
# Calculator.Proofs.Binary64.Order -- rounding keeps order

A quotient is rounded to a number of units as if there were no greatest double (`rounded`).  The
magnitude of as many units is the nearest one, and there is none when the greatest has fewer
(`nearest_spec`).  A lesser quotient is not rounded to more units, so that it has a nearest
magnitude when the greater one does (`Magnitude.exists_nearest_of_le`).

* `Binary64.exists_ofNat_of_le`, `mul_finite_of_le`, `div_finite`: whole numbers, products and
  quotients that are finite because greater ones are.
-/
import Calculator.Proofs.Binary64.Exact

namespace Calculator

set_option autoImplicit false

namespace Magnitude

/-! ## Scales -/

theorem lt_of_scaleOf (whole : Nat) : whole < 2 ^ 53 * 2 ^ scaleOf whole := by
  rw [← Nat.pow_add]
  rcases Nat.eq_zero_or_pos whole with rfl | pos
  · exact Nat.two_pow_pos _
  · calc whole < 2 ^ (whole.log2 + 1) := Nat.lt_log2_self
      _ ≤ 2 ^ (53 + scaleOf whole) := Nat.pow_le_pow_right (by decide) (by rw [scaleOf]; omega)

theorem le_of_scaleOf {whole : Nat} (scaled : 0 < scaleOf whole) :
    2 ^ 52 * 2 ^ scaleOf whole ≤ whole := by
  have large : whole.log2 = 52 + scaleOf whole := by
    rw [scaleOf] at scaled ⊢
    omega
  have nonzero : whole ≠ 0 := by
    rintro rfl
    exact absurd scaled (by decide)
  rw [← Nat.pow_add, ← large]
  exact Nat.log2_self_le nonzero

/-- The significand that does not fit a scale is the least one on the next. -/
theorem full_eq (scale : Nat) : 2 ^ 53 * 2 ^ scale = 2 ^ 52 * 2 ^ (scale + 1) := by
  rw [Nat.pow_succ 2 scale, Nat.pow_succ 2 52, Nat.mul_assoc, Nat.mul_comm 2]

theorem scaleOf_mono {whole whole' : Nat} (le : whole ≤ whole') :
    scaleOf whole ≤ scaleOf whole' := by
  rcases Nat.eq_zero_or_pos (scaleOf whole) with flat | scaled
  · omega
  · have power : 2 ^ (52 + scaleOf whole) < 2 ^ (53 + scaleOf whole') := by
      rw [Nat.pow_add, Nat.pow_add]
      exact Nat.lt_of_le_of_lt (Nat.le_trans (le_of_scaleOf scaled) le) (lt_of_scaleOf whole')
    have exponents := (Nat.pow_lt_pow_iff_right (by decide : 1 < 2)).mp power
    omega

/-! ## Rounding without a bound -/

/-- The significand of a quotient on its scale. -/
def significandOf (num den : Nat) : Nat := roundHalfEven num (den * 2 ^ scaleOf (num / den))

/-- A quotient, rounded as if there were no greatest magnitude. -/
def rounded (num den : Nat) : Nat := significandOf num den * 2 ^ scaleOf (num / den)

section Significand

variable {num den : Nat} (pos : 0 < den)
include pos

theorem unit_pos (scale : Nat) : 0 < den * 2 ^ scale := Nat.mul_pos pos (Nat.two_pow_pos _)

theorem significandOf_le : significandOf num den ≤ 2 ^ 53 := by
  refine roundHalfEven_le (unit_pos pos _) ?_
  have small := (Nat.div_lt_iff_lt_mul pos).mp (lt_of_scaleOf (num / den))
  rwa [Nat.mul_assoc, Nat.mul_comm _ den] at small

theorem le_significandOf (scaled : 0 < scaleOf (num / den)) : 2 ^ 52 ≤ significandOf num den := by
  refine le_roundHalfEven (unit_pos pos _) ?_
  have large := (Nat.le_div_iff_mul_le pos).mp (le_of_scaleOf scaled)
  rwa [Nat.mul_assoc, Nat.mul_comm _ den] at large

/-- Rounding moves a quotient by at most half a step of its scale. -/
theorem rounded_within :
    2 * num ≤ (2 * rounded num den + 2 ^ scaleOf (num / den)) * den := by
  have within := (roundHalfEven_within num _ (unit_pos pos (scaleOf (num / den)))).1
  calc 2 * num ≤ 2 * (significandOf num den * (den * 2 ^ scaleOf (num / den))) +
          den * 2 ^ scaleOf (num / den) := within
    _ = (2 * rounded num den + 2 ^ scaleOf (num / den)) * den := by
        rw [rounded, Nat.add_mul, Nat.mul_comm den, Nat.mul_assoc 2, Nat.mul_assoc (significandOf _ _)]

end Significand

/-- A greater quotient is not rounded to less. -/
theorem rounded_mono {num num' den : Nat} (pos : 0 < den) (le : num ≤ num') :
    rounded num den ≤ rounded num' den := by
  have scales := scaleOf_mono (Nat.div_le_div_right (c := den) le)
  rcases Nat.lt_or_eq_of_le scales with finer | equal
  · -- the least significand on the coarser scale is the greatest on the finer one, doubled
    have power : 2 ^ (scaleOf (num / den) + 1) ≤ 2 ^ scaleOf (num' / den) :=
      Nat.pow_le_pow_right (by decide) finer
    calc rounded num den ≤ 2 ^ 53 * 2 ^ scaleOf (num / den) :=
          Nat.mul_le_mul_right _ (significandOf_le pos)
      _ = 2 ^ 52 * 2 ^ (scaleOf (num / den) + 1) := full_eq _
      _ ≤ 2 ^ 52 * 2 ^ scaleOf (num' / den) := Nat.mul_le_mul_left _ power
      _ ≤ rounded num' den := Nat.mul_le_mul_right _ (le_significandOf pos (by omega))
  · rw [rounded, rounded, significandOf, significandOf, equal]
    exact Nat.mul_le_mul_right _ (roundHalfEven_mono _ le)

/-! ## The greatest magnitude -/

def greatest : Magnitude := ⟨2 ^ 53 - 1, 2045, by decide⟩

theorem units_le_greatest (m : Magnitude) : m.units ≤ greatest.units := by
  obtain ⟨s, p, below, shape, fits⟩ := m
  exact Nat.mul_le_mul (by show s ≤ 2 ^ 53 - 1; omega) (Nat.pow_le_pow_right (by decide) fits)

/-- Another magnitude is at least a step below the greatest. -/
theorem units_add_le_greatest {m : Magnitude} (other : m ≠ greatest) :
    m.units + 2 ^ greatest.scale ≤ greatest.units := by
  have step (s : Nat) (room : s + 1 ≤ 2 ^ 53 - 1) :
      s * 2 ^ greatest.scale + 2 ^ greatest.scale ≤ greatest.units := by
    rw [← Nat.succ_mul]
    exact Nat.mul_le_mul_right _ room
  obtain ⟨s, p, below, shape, fits⟩ := m
  rcases Nat.lt_or_eq_of_le fits with finer | coarsest
  · -- a finer scale has half as much at most
    refine Nat.le_trans (Nat.add_le_add_right ?_ _) (step (2 ^ 52) (by decide))
    calc s * 2 ^ p ≤ 2 ^ 53 * 2 ^ p := Nat.mul_le_mul_right _ (Nat.le_of_lt below)
      _ = 2 ^ 52 * 2 ^ (p + 1) := full_eq p
      _ ≤ 2 ^ 52 * 2 ^ greatest.scale :=
          Nat.mul_le_mul_left _ (Nat.pow_le_pow_right (by decide) finer)
  · subst coarsest
    refine step s ?_
    have last : s ≠ 2 ^ 53 - 1 := by
      rintro rfl
      exact other rfl
    omega

theorem greatest_lt {scale : Nat} (coarse : 2045 ≤ scale) :
    greatest.units < 2 ^ 53 * 2 ^ scale := by
  calc greatest.units ≤ (2 ^ 53 - 1) * 2 ^ scale :=
        Nat.mul_le_mul_left _ (Nat.pow_le_pow_right (by decide) coarse)
    _ < 2 ^ 53 * 2 ^ scale := Nat.mul_lt_mul_of_pos_right (by decide) (Nat.two_pow_pos scale)

/-- On a scale that no magnitude has there are too many units. -/
theorem greatest_lt_rounded {num den : Nat} (pos : 0 < den)
    (coarse : 2045 < scaleOf (num / den)) : greatest.units < rounded num den := by
  obtain ⟨scale, succ⟩ := Nat.exists_eq_succ_of_ne_zero (Nat.ne_zero_of_lt coarse)
  calc greatest.units < 2 ^ 53 * 2 ^ scale := greatest_lt (by omega)
    _ = 2 ^ 52 * 2 ^ scaleOf (num / den) := by rw [full_eq, succ]
    _ ≤ rounded num den := Nat.mul_le_mul_right _ (le_significandOf pos (by omega))

/-- **What a quotient is rounded to**: the magnitude of as many units as without a bound, if
there is one. -/
theorem nearest_spec (num : Nat) {den : Nat} (pos : 0 < den) :
    (∃ m, nearest num den = some m ∧ m.units = rounded num den) ∨
      (nearest num den = none ∧ greatest.units < rounded num den) := by
  have most : significandOf num den ≤ 2 ^ 53 := significandOf_le pos
  have least : 0 < scaleOf (num / den) → 2 ^ 52 ≤ significandOf num den := le_significandOf pos
  by_cases fits : significandOf num den < 2 ^ 53 ∧
      (2 ^ 52 ≤ significandOf num den ∨ scaleOf (num / den) = 0) ∧ scaleOf (num / den) ≤ 2045
  · exact .inl ⟨⟨significandOf num den, scaleOf (num / den), fits⟩, dif_pos fits, rfl⟩
  by_cases room : scaleOf (num / den) + 1 ≤ 2045
  · -- the one significand that does not fit
    have full : significandOf num den = 2 ^ 53 := by omega
    refine .inl ⟨⟨2 ^ 52, scaleOf (num / den) + 1, by omega⟩,
      (dif_neg fits).trans (dif_pos room), ?_⟩
    rw [rounded, full, full_eq]
    rfl
  · refine .inr ⟨(dif_neg fits).trans (dif_neg room), ?_⟩
    rcases Nat.lt_or_ge 2045 (scaleOf (num / den)) with coarse | last
    · exact greatest_lt_rounded pos coarse
    · have full : significandOf num den = 2 ^ 53 := by omega
      rw [rounded, full]
      exact greatest_lt (by omega)

section Nearest

variable {num den : Nat} (pos : 0 < den) {m : Magnitude}
include pos

theorem units_of_nearest (found : nearest num den = some m) : m.units = rounded num den := by
  rcases nearest_spec num pos with ⟨n, same, units⟩ | ⟨none, -⟩
  · rw [found] at same
    rw [Option.some.inj same, units]
  · rw [found] at none
    exact absurd none (Option.some_ne_none m)

/-- **A lesser quotient has a nearest magnitude when a greater one does**, and it is not
greater. -/
theorem exists_nearest_of_le {num' den' : Nat} (pos' : 0 < den')
    (le : num' * den ≤ num * den') (found : nearest num den = some m) :
    ∃ m', nearest num' den' = some m' ∧ m'.units ≤ m.units := by
  have both := Nat.mul_pos pos pos'
  rw [← nearest_expand num den den' pos'] at found
  have order := rounded_mono both le
  rw [← units_of_nearest both found] at order
  rw [← nearest_expand num' den' den pos, Nat.mul_comm den']
  rcases nearest_spec (num' * den) both with ⟨m', same, units⟩ | ⟨-, beyond⟩
  · exact ⟨m', same, units ▸ order⟩
  · exact absurd (Nat.lt_of_lt_of_le beyond order) (Nat.not_lt.mpr (units_le_greatest m))

/-- A quotient exceeds its nearest magnitude by half a step of the coarsest scale at most. -/
theorem le_of_nearest (found : nearest num den = some m) :
    2 * num ≤ (2 * m.units + 2 ^ greatest.scale) * den := by
  have units := units_of_nearest pos found
  have scale : scaleOf (num / den) ≤ greatest.scale := by
    refine Nat.not_lt.mp fun coarse => ?_
    have beyond := greatest_lt_rounded pos coarse
    rw [← units] at beyond
    exact absurd beyond (Nat.not_lt.mpr (units_le_greatest m))
  calc 2 * num ≤ (2 * rounded num den + 2 ^ scaleOf (num / den)) * den := rounded_within pos
    _ ≤ (2 * m.units + 2 ^ greatest.scale) * den := by
        rw [units]
        exact Nat.mul_le_mul_right _
          (Nat.add_le_add_left (Nat.pow_le_pow_right (by decide) scale) _)

end Nearest

end Magnitude

namespace Binary64

/-! ## Lesser numbers are finite -/

theorem exists_nearest {negative : Bool} {num den : Nat}
    (finite : (nearest negative num den).isFinite) : ∃ m, Magnitude.nearest num den = some m := by
  cases found : Magnitude.nearest num den with
  | some m => exact ⟨m, rfl⟩
  | none =>
    rw [nearest_of_none found] at finite
    exact absurd finite Bool.false_ne_true

theorem exists_ofNat {n : Nat} (finite : (ofNat n).isFinite) :
    ∃ m, ofNat n = .finite false m ∧
      Magnitude.nearest (n * Magnitude.unitsPerOne) 1 = some m := by
  obtain ⟨m, found⟩ := exists_nearest finite
  exact ⟨m, nearest_of_some found false, found⟩

/-- A lesser whole number is finite too, and not greater when it is rounded. -/
theorem exists_ofNat_of_le {n n' : Nat} (le : n ≤ n') {m' : Magnitude}
    (greater : ofNat n' = .finite false m') :
    ∃ m, ofNat n = .finite false m ∧ m.units ≤ m'.units := by
  have finite : (ofNat n').isFinite := by
    rw [greater]
    rfl
  obtain ⟨other, same, found⟩ := exists_ofNat finite
  rw [greater] at same
  obtain rfl : m' = other := by simpa using same
  obtain ⟨m, nearest, units⟩ := Magnitude.exists_nearest_of_le Nat.one_pos Nat.one_pos
    (Nat.mul_le_mul_right 1 (Nat.mul_le_mul_right Magnitude.unitsPerOne le)) found
  exact ⟨m, nearest_of_some nearest false, units⟩

/-- A product of lesser factors is finite too. -/
theorem mul_finite_of_le {m m' n n' : Magnitude} (left : m.units ≤ m'.units)
    (right : n.units ≤ n'.units)
    (finite : ((Binary64.finite false m').mul (.finite false n')).isFinite) :
    ((Binary64.finite false m).mul (.finite false n)).isFinite := by
  have unit := Magnitude.unitsPerOne_pos
  have order : m.units * n.units * Magnitude.unitsPerOne ≤
      m'.units * n'.units * Magnitude.unitsPerOne :=
    Nat.mul_le_mul_right _ (Nat.mul_le_mul left right)
  rw [mul] at finite
  obtain ⟨product, found⟩ := exists_nearest finite
  obtain ⟨lesser, nearest, -⟩ := Magnitude.exists_nearest_of_le unit unit order found
  rw [mul, nearest_of_some nearest]
  rfl

/-- What is divided by one or more is finite too. -/
theorem div_finite {x : Binary64} (finite : x.isFinite) {n : Magnitude}
    (large : Magnitude.unitsPerOne ≤ n.units) : (x.div (.finite false n)).isFinite := by
  obtain ⟨negative, m, rfl⟩ := exists_finite finite
  have unit := Magnitude.unitsPerOne_pos
  have nonzero : ¬ n.isZero := by
    rw [← n.units_eq_zero_iff]
    omega
  have order : m.units * Magnitude.unitsPerOne * 1 ≤ m.units * 1 * n.units := by
    rw [Nat.mul_one, Nat.mul_one]
    exact Nat.mul_le_mul_left m.units large
  obtain ⟨quotient, nearest, -⟩ := Magnitude.exists_nearest_of_le Nat.one_pos
    (Nat.lt_of_lt_of_le unit large) order (m.nearest_units 1 Nat.one_pos)
  rw [div, if_neg nonzero, nearest_of_some nearest]
  rfl

end Binary64

end Calculator
