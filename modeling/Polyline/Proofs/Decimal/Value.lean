import Polyline.Decimal.Basic
import Polyline.Proofs.Binary64.Value

/-! The double of a decimal number depends on its value alone, however that value is divided into
digits and a power of ten. Exponents far out of range are settled without any power of ten, and as
the exact value would be. -/

set_option autoImplicit false

namespace Polyline

namespace Binary64

theorem ofQuotient_of_roundGrains_eq_zero {numerator denominator : Nat}
    (none : roundGrains numerator denominator = 0) (negative : Bool) :
    ofQuotient negative numerator denominator = zero negative := by
  unfold ofQuotient
  simp only [none]
  exact dif_pos grainLimit_pos

theorem ofQuotient_of_grainLimit_le {numerator denominator : Nat}
    (past : grainLimit ≤ roundGrains numerator denominator) (negative : Bool) :
    ofQuotient negative numerator denominator = .infinite negative := by
  unfold ofQuotient
  exact dif_neg (Nat.not_lt.2 past)

/-- Quotients that are equal as fractions round to the same double. -/
theorem ofQuotient_congr {numerator denominator numerator' denominator' : Nat}
    (positive : 0 < denominator) (positive' : 0 < denominator')
    (same : numerator * denominator' = numerator' * denominator) (negative : Bool) :
    ofQuotient negative numerator denominator = ofQuotient negative numerator' denominator' := by
  have grains : roundGrains numerator denominator = roundGrains numerator' denominator' := by
    rw [← roundGrains_mul_mul numerator denominator positive', same, Nat.mul_comm denominator,
      roundGrains_mul_mul numerator' denominator' positive]
  unfold ofQuotient
  simp only [grains]

theorem two_mul_grainLimit_le : 2 * grainLimit ≤ 10 ^ 310 * grainsPerUnit := by
  decide +kernel

theorem four_mul_grainsPerUnit_le : 4 * grainsPerUnit ≤ 10 ^ 330 := by
  decide +kernel

/-- Rounding moves a magnitude by less than half of itself, and by hardly more than half a grain. -/
theorem grainLimit_le_roundGrains {numerator : Nat}
    (large : 10 ^ 310 * grainsPerUnit ≤ numerator) : grainLimit ≤ roundGrains numerator 1 := by
  have near := (abs_le.1 (abs_roundGrains_sub_le numerator Nat.one_pos)).1
  have limit : (2 : ℚ) * grainLimit ≤ numerator := by
    exact_mod_cast two_mul_grainLimit_le.trans large
  have one : (1 : ℚ) ≤ grainLimit := by exact_mod_cast grainLimit_pos
  have cast : (grainLimit : ℚ) ≤ roundGrains numerator 1 := by
    push_cast at near
    linarith
  exact_mod_cast cast

theorem roundGrains_eq_zero {numerator denominator : Nat} (positive : 0 < denominator)
    (small : 4 * numerator ≤ denominator) : roundGrains numerator denominator = 0 := by
  have near := (abs_le.1 (abs_roundGrains_sub_le numerator positive)).2
  have scale : (0 : ℚ) < denominator := by exact_mod_cast positive
  have quarter : (numerator : ℚ) / denominator ≤ 1 / 4 := by
    rw [div_le_iff₀ scale]
    have cast : (4 : ℚ) * numerator ≤ denominator := by exact_mod_cast small
    linarith
  have below : (roundGrains numerator denominator : ℚ) < 1 := by linarith
  exact Nat.lt_one_iff.1 (by exact_mod_cast below)

end Binary64

open Binary64

namespace Decimal

theorem toBinary64_eq_ofQuotient (decimal : Decimal) :
    decimal.toBinary64 =
      ofQuotient decimal.negative
        (decimal.digits * 10 ^ decimal.exponent.toNat * grainsPerUnit)
        (10 ^ (-decimal.exponent).toNat) := by
  obtain ⟨negative, digits, exponent⟩ := decimal
  unfold toBinary64
  split
  next none =>
    subst none
    have rounded : roundGrains (0 * 10 ^ exponent.toNat * grainsPerUnit)
        (10 ^ (-exponent).toNat) = 0 := roundGrains_eq_zero (by positivity) (by simp)
    exact (ofQuotient_of_roundGrains_eq_zero rounded negative).symm
  next some =>
    have powers : ∀ low, low ≤ exponent.toNat → 10 ^ low ≤ digits * 10 ^ exponent.toNat := by
      intro low least
      exact (Nat.pow_le_pow_right (by decide) least).trans
        (Nat.le_mul_of_pos_left _ (Nat.pos_of_ne_zero some))
    split
    next beyond =>
      have power : 310 ≤ exponent.toNat := by
        simp only [overflowExponent] at beyond
        omega
      have whole : (-exponent).toNat = 0 := by
        simp only [overflowExponent] at beyond
        omega
      have large := Nat.mul_le_mul_right grainsPerUnit (powers 310 power)
      simp only [whole, pow_zero]
      exact (ofQuotient_of_grainLimit_le (grainLimit_le_roundGrains large) negative).symm
    next =>
      split
      next under =>
        have power : 330 + (digits.log2 + 1) ≤ (-exponent).toNat := by
          simp only [underflowExponent] at under
          omega
        have fraction : exponent.toNat = 0 := by
          simp only [underflowExponent] at under
          omega
        have bits : digits ≤ 10 ^ (digits.log2 + 1) :=
          Nat.lt_log2_self.le.trans (Nat.pow_le_pow_left (by decide) _)
        have small : 4 * (digits * 10 ^ exponent.toNat * grainsPerUnit) ≤
            10 ^ (-exponent).toNat := by
          rw [fraction, pow_zero, mul_one]
          calc 4 * (digits * grainsPerUnit) = 4 * grainsPerUnit * digits := by ring
            _ ≤ 10 ^ 330 * 10 ^ (digits.log2 + 1) := Nat.mul_le_mul four_mul_grainsPerUnit_le bits
            _ = 10 ^ (330 + (digits.log2 + 1)) := (pow_add _ _ _).symm
            _ ≤ 10 ^ (-exponent).toNat := Nat.pow_le_pow_right (by decide) power
        exact (ofQuotient_of_roundGrains_eq_zero
          (roundGrains_eq_zero (by positivity) small) negative).symm
      next => rfl

theorem mul_ten_zpow_eq_div (digits : Nat) (exponent : Int) :
    (digits : ℚ) * 10 ^ exponent =
      ((digits * 10 ^ exponent.toNat : Nat) : ℚ) / (10 ^ (-exponent).toNat : Nat) := by
  have power : (10 : ℚ) ^ exponent = 10 ^ exponent.toNat / 10 ^ (-exponent).toNat := by
    rw [← zpow_natCast, ← zpow_natCast, ← zpow_sub₀ (by norm_num)]
    congr 1
    omega
  rw [power]
  push_cast
  ring

/-- Decimal numbers of one value have one double. -/
theorem toBinary64_congr (negative : Bool) {digits digits' : Nat} {exponent exponent' : Int}
    (same : (digits : ℚ) * 10 ^ exponent = digits' * 10 ^ exponent') :
    (Decimal.mk negative digits exponent).toBinary64 =
      (Decimal.mk negative digits' exponent').toBinary64 := by
  have positive : ∀ power : Nat, 0 < 10 ^ power := fun power => Nat.pow_pos (by decide)
  rw [mul_ten_zpow_eq_div, mul_ten_zpow_eq_div, div_eq_div_iff
    (by exact_mod_cast (positive _).ne') (by exact_mod_cast (positive _).ne')] at same
  have cross : digits * 10 ^ exponent.toNat * 10 ^ (-exponent').toNat =
      digits' * 10 ^ exponent'.toNat * 10 ^ (-exponent).toNat := by
    exact_mod_cast same
  rw [toBinary64_eq_ofQuotient, toBinary64_eq_ofQuotient]
  apply ofQuotient_congr (positive _) (positive _)
  rw [Nat.mul_right_comm, cross, Nat.mul_right_comm]

end Decimal

end Polyline
