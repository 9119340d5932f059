import Polyline.Binary64.Conversion
import Polyline.Proofs.Binary64.Rounding

/-! Doubles as exact rational numbers. Each operation is the exact one up to a relative error of
`2^-53` and half a grain, as long as the result stays well below the largest double. -/

set_option autoImplicit false

namespace Polyline.Binary64

/-- The exact value of a finite double. -/
def Finite.toRat (number : Finite) : ℚ := number.toInt / grainsPerUnit

/-- The exact value of a double that has one. -/
def toRat? : Binary64 → Option ℚ
  | .finite number => some number.toRat
  | .infinite _ | .nan => none

/-- The distance that rounding moves an exact result at most. -/
def roundingError (exact : ℚ) : ℚ := |exact| / 2 ^ 53 + 1 / (2 * grainsPerUnit)

/-- A magnitude with a sign. -/
def signed (negative : Bool) (magnitude : ℚ) : ℚ := if negative then -magnitude else magnitude

theorem exists_grainsPerUnit_eq_two_pow : ∃ shift, grainsPerUnit = Nat.pow 2 shift :=
  ⟨1074, by decide +kernel⟩

theorem grainsPerUnit_pos : 0 < grainsPerUnit := by decide +kernel

theorem mul_grainsPerUnit_le_grainLimit : 2 ^ 102 * grainsPerUnit ≤ grainLimit := by
  decide +kernel

theorem cast_grainsPerUnit_pos : (0 : ℚ) < grainsPerUnit := by exact_mod_cast grainsPerUnit_pos

theorem toRat_eq_signed (number : Finite) :
    number.toRat = signed number.negative (number.grains / grainsPerUnit) := by
  unfold Finite.toRat Finite.toInt signed
  cases number.negative <;> simp [neg_div]

theorem abs_signed (negative : Bool) (magnitude : ℚ) :
    |signed negative magnitude| = |magnitude| := by
  cases negative <;> simp [signed]

theorem signed_sub_signed (negative : Bool) (left right : ℚ) :
    signed negative left - signed negative right = signed negative (left - right) := by
  cases negative <;> simp [signed]
  ring

theorem signed_mul_signed (left right : Bool) (first second : ℚ) :
    signed left first * signed right second = signed (left != right) (first * second) := by
  cases left <;> cases right <;> simp [signed]

theorem signed_div_signed (left right : Bool) (first second : ℚ) :
    signed left first / signed right second = signed (left != right) (first / second) := by
  cases left <;> cases right <;> simp [signed, neg_div, div_neg]

/-! ## Rounded quotients -/

theorem ofQuotient_near (negative : Bool) (numerator : Nat) {denominator : Nat}
    (positive : 0 < denominator)
    (bounded : (numerator : ℚ) / denominator / grainsPerUnit ≤ 2 ^ 100) :
    ∃ number, ofQuotient negative numerator denominator = .finite number ∧
      number.negative = negative ∧
      |number.toRat - signed negative (numerator / denominator / grainsPerUnit)| ≤
        roundingError (signed negative (numerator / denominator / grainsPerUnit)) := by
  have unit := cast_grainsPerUnit_pos
  have near := abs_roundGrains_sub_le numerator positive
  have nonneg : (0 : ℚ) ≤ numerator / denominator := by positivity
  have inRange : roundGrains numerator denominator < grainLimit := by
    have limit : (2 : ℚ) ^ 102 * grainsPerUnit ≤ grainLimit := by
      exact_mod_cast mul_grainsPerUnit_le_grainLimit
    have grain : (1 : ℚ) ≤ grainsPerUnit := by exact_mod_cast Nat.succ_le_of_lt grainsPerUnit_pos
    have upper := (abs_le.1 near).2
    have exactBelow : (numerator : ℚ) / denominator ≤ 2 ^ 100 * grainsPerUnit :=
      (div_le_iff₀ unit).1 bounded
    have below : (roundGrains numerator denominator : ℚ) < grainLimit := by
      linarith
    exact_mod_cast below
  refine ⟨⟨negative, roundGrains numerator denominator,
    spacing_dvd_roundGrains numerator denominator, inRange⟩, dif_pos inRange, rfl, ?_⟩
  rw [toRat_eq_signed, signed_sub_signed, abs_signed, roundingError, abs_signed, ← sub_div, abs_div,
    abs_of_pos unit, abs_of_nonneg (div_nonneg nonneg unit.le)]
  calc |(roundGrains numerator denominator : ℚ) - numerator / denominator| / grainsPerUnit
      ≤ (numerator / denominator / 2 ^ 53 + 1 / 2) / grainsPerUnit :=
        div_le_div_of_nonneg_right near unit.le
    _ = numerator / denominator / grainsPerUnit / 2 ^ 53 + 1 / (2 * grainsPerUnit) := by
        field_simp

theorem ofQuotient_mul {grains denominator : Nat} (positive : 0 < denominator)
    (exact : Representable grains) (negative : Bool) :
    ofQuotient negative (grains * denominator) denominator = .finite ⟨negative, grains, exact⟩ := by
  have same := roundGrains_mul positive exact.1
  unfold ofQuotient
  simp only [same]
  exact dif_pos exact.2

/-! ## Operations -/

theorem mul_near {left right : Finite} (bounded : |left.toRat * right.toRat| ≤ 2 ^ 100) :
    ∃ number, (finite left * finite right : Binary64) = .finite number ∧
      number.negative = (left.negative != right.negative) ∧
      |number.toRat - left.toRat * right.toRat| ≤ roundingError (left.toRat * right.toRat) := by
  have unit := cast_grainsPerUnit_pos
  have product : left.toRat * right.toRat =
      signed (left.negative != right.negative)
        (((left.grains * right.grains : Nat) : ℚ) / grainsPerUnit / grainsPerUnit) := by
    rw [toRat_eq_signed, toRat_eq_signed, signed_mul_signed]
    congr 1
    push_cast
    field_simp
  rw [product] at bounded ⊢
  refine ofQuotient_near _ _ grainsPerUnit_pos ?_
  rw [abs_signed] at bounded
  exact le_of_abs_le bounded

theorem div_near {left right : Finite} (nonzero : right.toRat ≠ 0)
    (bounded : |left.toRat / right.toRat| ≤ 2 ^ 100) :
    ∃ number, (finite left / finite right : Binary64) = .finite number ∧
      number.negative = (left.negative != right.negative) ∧
      |number.toRat - left.toRat / right.toRat| ≤ roundingError (left.toRat / right.toRat) := by
  have unit := cast_grainsPerUnit_pos
  have divisor : right.grains ≠ 0 := by
    intro none
    apply nonzero
    rw [toRat_eq_signed, none]
    simp [signed]
  have cast : (right.grains : ℚ) ≠ 0 := by exact_mod_cast divisor
  have quotient : left.toRat / right.toRat =
      signed (left.negative != right.negative)
        (((left.grains * grainsPerUnit : Nat) : ℚ) / right.grains / grainsPerUnit) := by
    rw [toRat_eq_signed, toRat_eq_signed, signed_div_signed]
    congr 1
    push_cast
    field_simp
  have divided : (finite left / finite right : Binary64) =
      ofQuotient (left.negative != right.negative) (left.grains * grainsPerUnit) right.grains :=
    if_neg divisor
  rw [quotient] at bounded ⊢
  rw [divided]
  refine ofQuotient_near _ _ (Nat.pos_of_ne_zero divisor) ?_
  rw [abs_signed] at bounded
  exact le_of_abs_le bounded

theorem representable_mul_grainsPerUnit {count : Nat} (few : count ≤ 2 ^ 53) :
    Representable (count * grainsPerUnit) := by
  have limit := mul_grainsPerUnit_le_grainLimit
  have unit := grainsPerUnit_pos
  constructor
  · obtain ⟨shift, equal⟩ := exists_grainsPerUnit_eq_two_pow
    rw [equal]
    exact spacing_dvd_of_le_two_pow few
  · have below : count * grainsPerUnit ≤ 2 ^ 53 * grainsPerUnit := Nat.mul_le_mul_right _ few
    omega

theorem ofInt_eq_ofQuotient (number : Int) :
    ofInt number = ofQuotient (decide (number < 0)) (number.natAbs * grainsPerUnit) 1 := by
  have unit : (0 : Int) < grainsPerUnit := by exact_mod_cast grainsPerUnit_pos
  have sign : decide (number * grainsPerUnit < 0) = decide (number < 0) := by
    rw [decide_eq_decide]
    constructor
    · intro product
      exact neg_of_mul_neg_left product unit.le
    · intro below
      exact mul_neg_of_neg_of_pos below unit
  rw [ofInt, ofGrains, sign, Int.natAbs_mul, Int.natAbs_natCast]

/-- Whole numbers of up to 100 bits are in the range of doubles. -/
theorem isFinite_ofInt {number : Int} (bounded : number.natAbs ≤ 2 ^ 100) :
    (ofInt number).isFinite = true := by
  have inside : ((number.natAbs * grainsPerUnit : Nat) : ℚ) / (1 : Nat) / grainsPerUnit ≤
      2 ^ 100 := by
    push_cast
    rw [div_one, mul_div_cancel_right₀ _ cast_grainsPerUnit_pos.ne']
    exact_mod_cast bounded
  obtain ⟨double, equal, _⟩ := ofQuotient_near (decide (number < 0)) _ Nat.one_pos inside
  rw [ofInt_eq_ofQuotient, equal]
  rfl

/-- Whole numbers of up to 53 bits keep their value. -/
theorem ofInt_eq {number : Int} (few : number.natAbs ≤ 2 ^ 53) :
    ∃ double, ofInt number = .finite double ∧ double.toRat = number ∧
      double.negative = decide (number < 0) := by
  have rounded := ofQuotient_mul Nat.one_pos (representable_mul_grainsPerUnit few)
    (decide (number < 0))
  rw [Nat.mul_one] at rounded
  have converted : ofInt number = .finite ⟨decide (number < 0), number.natAbs * grainsPerUnit,
      representable_mul_grainsPerUnit few⟩ := by
    rw [ofInt_eq_ofQuotient, rounded]
  refine ⟨_, converted, ?_, rfl⟩
  rw [toRat_eq_signed]
  push_cast
  rw [mul_div_cancel_right₀ _ cast_grainsPerUnit_pos.ne', signed]
  rcases lt_or_ge number 0 with below | above
  · rw [if_pos (decide_eq_true below), Nat.cast_natAbs, abs_of_neg below]
    push_cast
    ring
  · rw [if_neg (by simpa using above), Nat.cast_natAbs, abs_of_nonneg above]

theorem ofInt32_eq (number : Int32) :
    ∃ double, ofInt32 number = .finite double ∧ double.toRat = number.toInt ∧
      double.negative = decide (number.toInt < 0) := by
  have low := number.le_toInt
  have high := number.toInt_lt
  exact ofInt_eq (by omega)

/-! ## Whole numbers -/

private theorem abs_halfUp_sub_le (grains : Nat) {unit : Nat} (positive : 0 < unit) :
    |(((2 * grains + unit) / (2 * unit) : Nat) : ℚ) - grains / unit| ≤ 1 / 2 := by
  have scale : (0 : ℚ) < unit := by exact_mod_cast positive
  have lower : (2 * grains + unit) / (2 * unit) * (2 * unit) ≤ 2 * grains + unit :=
    Nat.div_mul_le_self _ _
  have upper : 2 * grains + unit < ((2 * grains + unit) / (2 * unit) + 1) * (2 * unit) :=
    Nat.lt_mul_of_div_lt (Nat.lt_succ_self _) (by omega)
  have lowerCast : (((2 * grains + unit) / (2 * unit) : Nat) : ℚ) * (2 * unit) ≤
      2 * grains + unit := by exact_mod_cast lower
  have upperCast : (2 : ℚ) * grains + unit <
      (((2 * grains + unit) / (2 * unit) : Nat) + 1) * (2 * unit) := by exact_mod_cast upper
  have exact : (grains : ℚ) / unit * unit = grains := div_mul_cancel₀ _ scale.ne'
  rw [abs_le]
  constructor
  · rw [← mul_le_mul_iff_left₀ scale]
    linarith
  · rw [← mul_le_mul_iff_left₀ scale]
    linarith

/-- The nearest whole number is at most half away. -/
theorem abs_nearestInt_sub_le (number : Finite) :
    |(number.nearestInt : ℚ) - number.toRat| ≤ 1 / 2 := by
  have read : (number.nearestInt : ℚ) = signed number.negative
      (((2 * number.grains + grainsPerUnit) / (2 * grainsPerUnit) : Nat) : ℚ) := by
    unfold Finite.nearestInt signed
    generalize (2 * number.grains + grainsPerUnit) / (2 * grainsPerUnit) = magnitude
    cases number.negative <;> simp
  rw [read, toRat_eq_signed, signed_sub_signed, abs_signed]
  exact abs_halfUp_sub_le number.grains grainsPerUnit_pos

theorem toInt_clampInt32 {number : Int} (low : -2 ^ 31 ≤ number) (high : number < 2 ^ 31) :
    (clampInt32 number).toInt = number := by
  have minimum : Int32.minValue.toInt = -2 ^ 31 := rfl
  have maximum : Int32.maxValue.toInt = 2 ^ 31 - 1 := rfl
  have inside : max Int32.minValue.toInt (min Int32.maxValue.toInt number) = number := by omega
  rw [clampInt32, inside]
  exact Int32.toInt_ofInt_of_le low high

theorem abs_toInt32_sub_le {number : Finite} (inside : |number.toRat| < 2 ^ 31 - 1 / 2) :
    |((toInt32 (.finite number)).toInt : ℚ) - number.toRat| ≤ 1 / 2 := by
  have near := abs_nearestInt_sub_le number
  have rounded := abs_le.1 near
  have range := abs_lt.1 inside
  have low : -2 ^ 31 ≤ number.nearestInt := by
    have lowCast : (-2 ^ 31 : ℚ) < number.nearestInt := by linarith [rounded.1, range.1]
    exact_mod_cast lowCast.le
  have high : number.nearestInt < 2 ^ 31 := by
    have highCast : (number.nearestInt : ℚ) < 2 ^ 31 := by linarith [rounded.2, range.2]
    exact_mod_cast highCast
  rwa [toInt32, toInt_clampInt32 low high]

/-- A double that is less than half away from a 32-bit integer rounds to it. -/
theorem toInt32_eq_of_near {number : Finite} {whole : Int32}
    (near : |number.toRat - whole.toInt| < 1 / 2) : toInt32 (.finite number) = whole := by
  have rounded := abs_le.1 (abs_nearestInt_sub_le number)
  have exact := abs_lt.1 near
  have close : |((number.nearestInt - whole.toInt : Int) : ℚ)| < 1 := by
    push_cast
    rw [abs_lt]
    constructor <;> linarith [rounded.1, rounded.2, exact.1, exact.2]
  have equal : number.nearestInt = whole.toInt := by
    have small : |number.nearestInt - whole.toInt| < 1 := by exact_mod_cast close
    have zero := Int.abs_lt_one_iff.1 small
    omega
  rw [toInt32, equal]
  exact Int32.toInt_inj.1 (toInt_clampInt32 whole.le_toInt whole.toInt_lt)

end Polyline.Binary64
