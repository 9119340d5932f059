import Polyline.Binary64.Basic

/-!
# Rounding to nearest

The one rounding rule of all operations: an exact quotient goes to the nearest double, and a tie to
the neighbour with the even last bit. Magnitudes from halfway past the largest double on become
infinite.
-/

set_option autoImplicit false

namespace Polyline

/-- The whole number nearest to a quotient; a tie goes to the even one. -/
def nearestEven (numerator denominator : Nat) : Nat :=
  let quotient := numerator / denominator
  let remainder := numerator % denominator
  if 2 * remainder < denominator ∨ (2 * remainder = denominator ∧ quotient % 2 = 0) then quotient
  else quotient + 1

theorem nearestEven_le (numerator denominator : Nat) :
    nearestEven numerator denominator ≤ numerator / denominator + 1 := by
  unfold nearestEven
  simp only
  split <;> omega

namespace Binary64

/-- A quotient of grains rounded to 53 significant bits, whatever its size. -/
def roundGrains (numerator denominator : Nat) : Nat :=
  let step := spacing (numerator / denominator)
  nearestEven numerator (denominator * step) * step

/-- At most 53 bits are left once a number is counted in the spacing around it. -/
theorem div_spacing_lt (grains : Nat) : grains / spacing grains < Nat.pow 2 53 := by
  unfold spacing
  rw [Nat.pow_eq, Nat.pow_eq, Nat.div_lt_iff_lt_mul (Nat.two_pow_pos _), ← Nat.pow_add]
  exact Nat.lt_of_lt_of_le Nat.lt_log2_self (Nat.pow_le_pow_right (by decide) (by omega))

theorem spacing_dvd_of_le_two_pow {count shift : Nat} (few : count ≤ Nat.pow 2 53) :
    spacing (count * Nat.pow 2 shift) ∣ count * Nat.pow 2 shift := by
  unfold spacing
  simp only [Nat.pow_eq] at few ⊢
  rcases Nat.lt_or_eq_of_le few with fewer | equal
  · refine Nat.dvd_trans (Nat.pow_dvd_pow 2 ?_) (Nat.dvd_mul_left _ count)
    rcases Nat.eq_zero_or_pos count with none | some
    · simp [none]
    · have positive := Nat.ne_of_gt (Nat.mul_pos some (Nat.two_pow_pos shift))
      have below := Nat.mul_lt_mul_of_pos_right fewer (Nat.two_pow_pos shift)
      rw [← Nat.pow_add] at below
      have := (Nat.log2_lt positive).2 below
      omega
  · rw [equal, ← Nat.pow_add]
    exact Nat.pow_dvd_pow 2 (by simp)

theorem spacing_dvd_roundGrains (numerator denominator : Nat) :
    spacing (roundGrains numerator denominator) ∣ roundGrains numerator denominator := by
  refine spacing_dvd_of_le_two_pow (Nat.le_trans (nearestEven_le _ _) ?_)
  rw [← Nat.div_div_eq_div_mul]
  exact div_spacing_lt _

def ofQuotient (negative : Bool) (numerator denominator : Nat) : Binary64 :=
  let grains := roundGrains numerator denominator
  if inRange : grains < grainLimit then
    .finite ⟨negative, grains, spacing_dvd_roundGrains numerator denominator, inRange⟩
  else .infinite negative

end Binary64

end Polyline
