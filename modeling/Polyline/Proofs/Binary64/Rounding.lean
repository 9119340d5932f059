import Mathlib.Algebra.Order.Field.Rat
import Mathlib.Data.Nat.Cast.Order.Field
import Mathlib.Tactic.FieldSimp
import Mathlib.Tactic.Linarith
import Mathlib.Tactic.Positivity
import Mathlib.Tactic.Ring
import Polyline.Binary64.Rounding

/-! How far rounding moves a quotient, and which quotients it does not move at all. -/

set_option autoImplicit false

namespace Polyline

/-- A fraction is its whole part and what the remainder leaves. -/
theorem cast_div_eq_add (numerator : Nat) {denominator : Nat} (positive : 0 < denominator) :
    (numerator : ℚ) / denominator =
      (numerator / denominator : Nat) + (numerator % denominator : Nat) / denominator := by
  have divided := Nat.div_add_mod numerator denominator
  have scale : (0 : ℚ) < denominator := by exact_mod_cast positive
  rw [eq_comm, ← mul_left_inj' scale.ne', add_mul, div_mul_cancel₀ _ scale.ne',
    div_mul_cancel₀ _ scale.ne', mul_comm]
  exact_mod_cast divided

theorem abs_nearestEven_sub_le (numerator : Nat) {denominator : Nat} (positive : 0 < denominator) :
    |(nearestEven numerator denominator : ℚ) - numerator / denominator| ≤ 1 / 2 := by
  have inside := Nat.mod_lt numerator positive
  have scale : (0 : ℚ) < denominator := by exact_mod_cast positive
  have exact := cast_div_eq_add numerator positive
  unfold nearestEven
  simp only
  split
  next down =>
    have half : 2 * ((numerator % denominator : Nat) : ℚ) ≤ denominator := by
      have : 2 * (numerator % denominator) ≤ denominator := by omega
      exact_mod_cast this
    have nonneg : (0 : ℚ) ≤ (numerator % denominator : Nat) / denominator := by positivity
    have small : ((numerator % denominator : Nat) : ℚ) / denominator ≤ 1 / 2 := by
      rw [div_le_iff₀ scale]
      linarith
    rw [exact, abs_le]
    constructor <;> linarith
  next up =>
    have half : (denominator : ℚ) ≤ 2 * (numerator % denominator : Nat) := by
      have : denominator ≤ 2 * (numerator % denominator) := by omega
      exact_mod_cast this
    have below : ((numerator % denominator : Nat) : ℚ) / denominator ≤ 1 := by
      rw [div_le_one scale]
      exact_mod_cast inside.le
    have large : 1 / 2 ≤ ((numerator % denominator : Nat) : ℚ) / denominator := by
      rw [le_div_iff₀ scale]
      linarith
    rw [exact, abs_le]
    push_cast
    constructor <;> linarith

theorem nearestEven_eq_of_near {numerator denominator whole : Nat} (positive : 0 < denominator)
    (near : |(numerator : ℚ) / denominator - whole| < 1 / 2) :
    nearestEven numerator denominator = whole := by
  have rounded := abs_le.1 (abs_nearestEven_sub_le numerator positive)
  have exact := abs_lt.1 near
  have above : (nearestEven numerator denominator : ℚ) < whole + 1 := by linarith [rounded.2, exact.2]
  have below : (whole : ℚ) < nearestEven numerator denominator + 1 := by linarith [rounded.1, exact.1]
  have notAbove : nearestEven numerator denominator < whole + 1 := by exact_mod_cast above
  have notBelow : whole < nearestEven numerator denominator + 1 := by exact_mod_cast below
  omega

theorem nearestEven_mul_mul (count : Nat) {denominator : Nat} (positive : 0 < denominator) :
    nearestEven (count * denominator) denominator = count := by
  unfold nearestEven
  simp [Nat.mul_div_cancel _ positive, positive]

theorem nearestEven_mul_mul_right (numerator denominator : Nat) {scale : Nat}
    (positive : 0 < scale) :
    nearestEven (numerator * scale) (denominator * scale) = nearestEven numerator denominator := by
  have below : 2 * (numerator % denominator * scale) < denominator * scale ↔
      2 * (numerator % denominator) < denominator := by
    rw [← Nat.mul_assoc, Nat.mul_lt_mul_right positive]
  have tie : 2 * (numerator % denominator * scale) = denominator * scale ↔
      2 * (numerator % denominator) = denominator := by
    rw [← Nat.mul_assoc, Nat.mul_left_inj positive.ne']
  unfold nearestEven
  simp only [Nat.mul_div_mul_right _ _ positive, Nat.mul_mod_mul_right, below, tie]

namespace Binary64

theorem spacing_eq_two_pow (grains : Nat) : spacing grains = 2 ^ (grains.log2 - 52) := rfl

theorem spacing_pos (grains : Nat) : 0 < spacing grains := Nat.two_pow_pos _

/-- The spacing is a single grain, or else too fine for more than 53 bits. -/
theorem spacing_le (grains : Nat) : (spacing grains : ℚ) ≤ 1 + grains / 2 ^ 52 := by
  have nonneg : (0 : ℚ) ≤ (grains : ℚ) / 2 ^ 52 := by positivity
  rcases Nat.lt_or_ge grains.log2 53 with few | many
  · have one : spacing grains = 1 := by
      rw [spacing_eq_two_pow, Nat.sub_eq_zero_of_le (Nat.le_of_lt_succ few), Nat.pow_zero]
    rw [one]
    push_cast
    linarith
  · have some : grains ≠ 0 := by
      rintro rfl
      simp at many
    have scaled : spacing grains * 2 ^ 52 ≤ grains := by
      rw [spacing_eq_two_pow, ← Nat.pow_add, Nat.sub_add_cancel (by omega)]
      exact Nat.log2_self_le some
    have cast : (spacing grains : ℚ) * 2 ^ 52 ≤ grains := by exact_mod_cast scaled
    have fine : (spacing grains : ℚ) ≤ grains / 2 ^ 52 := by
      rw [le_div_iff₀ (by positivity)]
      exact cast
    linarith

/-- Rounding is off by at most half the last of 53 bits, or half a grain. -/
theorem abs_roundGrains_sub_le (numerator : Nat) {denominator : Nat}
    (positive : 0 < denominator) :
    |(roundGrains numerator denominator : ℚ) - numerator / denominator| ≤
      numerator / denominator / 2 ^ 53 + 1 / 2 := by
  have scale : (0 : ℚ) < denominator := by exact_mod_cast positive
  have step : (0 : ℚ) < spacing (numerator / denominator) := by exact_mod_cast spacing_pos _
  have near := abs_nearestEven_sub_le numerator
    (Nat.mul_pos positive (spacing_pos (numerator / denominator)))
  have coarse := spacing_le (numerator / denominator)
  have floor : ((numerator / denominator : Nat) : ℚ) ≤ numerator / denominator := Nat.cast_div_le
  have moved : (roundGrains numerator denominator : ℚ) - numerator / denominator =
      ((nearestEven numerator (denominator * spacing (numerator / denominator)) : ℚ) -
        numerator / (denominator * spacing (numerator / denominator) : Nat)) *
        spacing (numerator / denominator) := by
    unfold roundGrains
    push_cast
    field_simp
  rw [moved, abs_mul, abs_of_pos step]
  calc |(nearestEven numerator (denominator * spacing (numerator / denominator)) : ℚ) -
          numerator / (denominator * spacing (numerator / denominator) : Nat)| *
          spacing (numerator / denominator)
      ≤ 1 / 2 * spacing (numerator / denominator) := mul_le_mul_of_nonneg_right near step.le
    _ ≤ 1 / 2 * (1 + (numerator / denominator : Nat) / 2 ^ 52) := by linarith
    _ ≤ 1 / 2 * (1 + (numerator / denominator : ℚ) / 2 ^ 52) := by linarith
    _ = numerator / denominator / 2 ^ 53 + 1 / 2 := by ring

/-- A quotient that is a double already stays what it is. -/
theorem roundGrains_mul {grains denominator : Nat} (positive : 0 < denominator)
    (exact : spacing grains ∣ grains) :
    roundGrains (grains * denominator) denominator = grains := by
  obtain ⟨count, equal⟩ := exact
  have quotient : grains * denominator / denominator = grains := Nat.mul_div_cancel _ positive
  have counted : grains * denominator = count * (denominator * spacing grains) := by
    calc grains * denominator = spacing grains * count * denominator :=
          congrArg (· * denominator) equal
      _ = count * (denominator * spacing grains) := by ring
  unfold roundGrains
  simp only [quotient]
  rw [counted, nearestEven_mul_mul count (Nat.mul_pos positive (spacing_pos grains)), Nat.mul_comm]
  exact equal.symm

theorem roundGrains_mul_mul (numerator denominator : Nat) {scale : Nat} (positive : 0 < scale) :
    roundGrains (numerator * scale) (denominator * scale) = roundGrains numerator denominator := by
  unfold roundGrains
  simp only [Nat.mul_div_mul_right _ _ positive]
  rw [Nat.mul_right_comm denominator scale, nearestEven_mul_mul_right _ _ positive]

end Binary64

end Polyline
