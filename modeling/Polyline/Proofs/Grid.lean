import Polyline.Grid
import Polyline.Precision
import Polyline.Proofs.Binary64.Value

/-! Rounding to the grid and back. Three roundings lie between a sample and the sample of its
coordinate, and together they move it by far less than half a grid step. -/

set_option autoImplicit false

namespace Polyline

open Binary64

namespace Precision

/-- The number of grid steps in the number one. -/
def scale (precision : Precision) : ℚ := 10 ^ precision.digits

theorem one_le_scale (precision : Precision) : 1 ≤ precision.scale :=
  one_le_pow₀ (by norm_num)

theorem scale_pos (precision : Precision) : 0 < precision.scale :=
  zero_lt_one.trans_le precision.one_le_scale

theorem scale_le (precision : Precision) : precision.scale ≤ 2 ^ 30 :=
  calc (10 : ℚ) ^ precision.digits ≤ 10 ^ 9 := pow_le_pow_right₀ (by norm_num) precision.digits_le
    _ ≤ 2 ^ 30 := by norm_num

theorem toInt_encodeFactor (precision : Precision) :
    (precision.encodeFactor.toInt : ℚ) = precision.scale := by
  have small : 10 ^ precision.digits < 2 ^ 31 :=
    Nat.lt_of_le_of_lt (Nat.pow_le_pow_right (by decide) precision.digits_le) (by decide)
  have exact : precision.encodeFactor.toInt = ((10 ^ precision.digits : Nat) : Int) :=
    Int32.toInt_ofNat_of_lt small
  rw [exact, scale]
  push_cast
  rfl

end Precision

namespace Binary64

theorem roundingError_le (exact : ℚ) : roundingError exact ≤ |exact| / 2 ^ 53 + 1 / 2 ^ 103 := by
  have fine : (2 : ℚ) ^ 102 ≤ grainsPerUnit := by
    have counted : 2 ^ 102 ≤ grainsPerUnit := by decide +kernel
    exact_mod_cast counted
  have grain : 1 / (2 * (grainsPerUnit : ℚ)) ≤ 1 / 2 ^ 103 := by
    apply one_div_le_one_div_of_le (by positivity)
    linarith
  unfold roundingError
  linarith

end Binary64

variable (precision : Precision)

/-- A rounding error counted in grid steps. -/
private theorem scaled_near {number exact : ℚ} (near : |number - exact| ≤ roundingError exact) :
    |number * precision.scale - exact * precision.scale| ≤
      |exact * precision.scale| / 2 ^ 53 + 1 / 2 ^ 73 := by
  have positive := precision.scale_pos
  have large := precision.scale_le
  have bound := near.trans (roundingError_le exact)
  rw [← sub_mul, abs_mul, abs_mul, abs_of_pos positive]
  calc |number - exact| * precision.scale
      ≤ (|exact| / 2 ^ 53 + 1 / 2 ^ 103) * precision.scale :=
        mul_le_mul_of_nonneg_right bound positive.le
    _ = |exact| * precision.scale / 2 ^ 53 + precision.scale / 2 ^ 103 := by ring
    _ ≤ |exact| * precision.scale / 2 ^ 53 + 1 / 2 ^ 73 := by
        norm_num at large ⊢
        linarith

theorem decodeFactor_near :
    ∃ factor, precision.decodeFactor = .finite factor ∧ factor.negative = false ∧
      |factor.toRat * precision.scale - 1| ≤ 1 / 2 ^ 52 := by
  have positive := precision.scale_pos
  have single : (1 : Int).natAbs ≤ 2 ^ 53 := by decide
  obtain ⟨one, oneEqual, oneValue, oneSign⟩ := ofInt_eq single
  obtain ⟨steps, stepsEqual, stepsValue, stepsSign⟩ := ofInt32_eq precision.encodeFactor
  rw [precision.toInt_encodeFactor] at stepsValue
  have unsigned : steps.negative = false := by
    have wide : (0 : ℚ) < precision.encodeFactor.toInt := precision.toInt_encodeFactor ▸ positive
    have above : 0 < precision.encodeFactor.toInt := by exact_mod_cast wide
    simp [stepsSign, above.le]
  have exact : one.toRat / steps.toRat = 1 / precision.scale := by
    rw [oneValue, stepsValue, Int.cast_one]
  have bounded : |one.toRat / steps.toRat| ≤ 2 ^ 100 := by
    rw [exact, abs_of_pos (by positivity), div_le_iff₀ positive]
    linarith [precision.one_le_scale]
  obtain ⟨factor, factorEqual, factorSign, near⟩ :=
    div_near (by rw [stepsValue]; exact positive.ne') bounded
  refine ⟨factor, ?_, ?_, ?_⟩
  · rw [Precision.decodeFactor, oneEqual, stepsEqual, factorEqual]
  · rw [factorSign, oneSign, unsigned]
    rfl
  · have scaled := scaled_near precision near
    rw [exact, one_div_mul_cancel positive.ne', abs_one] at scaled
    exact scaled.trans (by norm_num)

theorem abs_toInt_le (sample : Int32) : |(sample.toInt : ℚ)| ≤ 2 ^ 31 := by
  have low : (-2 ^ 31 : ℚ) ≤ sample.toInt := by exact_mod_cast sample.le_toInt
  have high : (sample.toInt : ℚ) < 2 ^ 31 := by exact_mod_cast sample.toInt_lt
  exact abs_le.2 ⟨low, high.le⟩

/-- The coordinate of a sample is within a millionth of a grid step. -/
theorem restore_near (sample : Int32) :
    ∃ coordinate, restore precision.decodeFactor sample = .finite coordinate ∧
      coordinate.negative = decide (sample.toInt < 0) ∧
      |coordinate.toRat * precision.scale - sample.toInt| ≤ 1 / 2 ^ 20 := by
  have large := precision.one_le_scale
  have size := abs_toInt_le sample
  obtain ⟨whole, wholeEqual, wholeValue, wholeSign⟩ := ofInt32_eq sample
  obtain ⟨factor, factorEqual, factorSign, factorNear⟩ := decodeFactor_near precision
  -- The error of the factor grows with the sample, which is less than `2^31` steps.
  have moved : |sample.toInt * factor.toRat * precision.scale - sample.toInt| ≤ 1 / 2 ^ 21 :=
    calc |sample.toInt * factor.toRat * precision.scale - sample.toInt|
        = |(sample.toInt : ℚ)| * |factor.toRat * precision.scale - 1| := by
          rw [← abs_mul]
          congr 1
          ring
      _ ≤ 2 ^ 31 * (1 / 2 ^ 52) := mul_le_mul size factorNear (abs_nonneg _) (by norm_num)
      _ = 1 / 2 ^ 21 := by norm_num
  have product : |sample.toInt * factor.toRat * precision.scale| ≤ 2 ^ 31 + 1 / 2 ^ 21 := by
    have apart := abs_sub_abs_le_abs_sub (sample.toInt * factor.toRat * precision.scale)
      (sample.toInt : ℚ)
    linarith
  have bounded : |whole.toRat * factor.toRat| ≤ 2 ^ 100 := by
    have unscaled : |whole.toRat * factor.toRat| ≤
        |sample.toInt * factor.toRat * precision.scale| := by
      rw [wholeValue, abs_mul _ precision.scale, abs_of_pos precision.scale_pos]
      exact le_mul_of_one_le_right (abs_nonneg _) large
    linarith
  obtain ⟨coordinate, coordinateEqual, coordinateSign, near⟩ := mul_near bounded
  refine ⟨coordinate, ?_, ?_, ?_⟩
  · rw [restore, wholeEqual, factorEqual, coordinateEqual]
  · rw [coordinateSign, wholeSign, factorSign, Bool.bne_false]
  · have rounded := scaled_near precision near
    rw [wholeValue] at rounded
    have triangle := abs_sub_le (coordinate.toRat * precision.scale)
      (sample.toInt * factor.toRat * precision.scale) (sample.toInt : ℚ)
    linarith

/-- The product that is rounded to a sample is within a millionth of a grid step. -/
private theorem product_near {coordinate : Finite}
    (inside : |coordinate.toRat * precision.scale| ≤ 2 ^ 31 + 1) :
    ∃ product, (finite coordinate * ofInt32 precision.encodeFactor : Binary64) = .finite product ∧
      |product.toRat - coordinate.toRat * precision.scale| ≤ 1 / 2 ^ 20 := by
  obtain ⟨steps, stepsEqual, stepsValue, _⟩ := ofInt32_eq precision.encodeFactor
  rw [precision.toInt_encodeFactor] at stepsValue
  rw [← stepsValue] at inside ⊢
  have bounded : |coordinate.toRat * steps.toRat| ≤ 2 ^ 100 := by linarith
  obtain ⟨product, equal, _, near⟩ := mul_near bounded
  refine ⟨product, by rw [stepsEqual, equal], near.trans ?_⟩
  have error := roundingError_le (coordinate.toRat * steps.toRat)
  linarith

theorem quantize_near {coordinate : Finite}
    (inside : |coordinate.toRat * precision.scale| ≤ 2 ^ 31 - 1) :
    |((quantize precision.encodeFactor (.finite coordinate)).toInt : ℚ) -
      coordinate.toRat * precision.scale| ≤ 1 / 2 + 1 / 2 ^ 20 := by
  obtain ⟨product, equal, near⟩ := product_near precision (inside.trans (by norm_num))
  have below : |product.toRat| < 2 ^ 31 - 1 / 2 := by
    have apart := abs_sub_abs_le_abs_sub product.toRat (coordinate.toRat * precision.scale)
    linarith
  have rounded := abs_toInt32_sub_le below
  rw [quantize, equal]
  have triangle := abs_sub_le ((toInt32 (.finite product)).toInt : ℚ) product.toRat
    (coordinate.toRat * precision.scale)
  linarith

/-- Every sample is the sample of its coordinate. -/
theorem quantize_restore (sample : Int32) :
    quantize precision.encodeFactor (restore precision.decodeFactor sample) = sample := by
  obtain ⟨coordinate, restored, _, coordinateNear⟩ := restore_near precision sample
  have size := abs_toInt_le sample
  have inside : |coordinate.toRat * precision.scale| ≤ 2 ^ 31 + 1 := by
    have apart := abs_sub_abs_le_abs_sub (coordinate.toRat * precision.scale) (sample.toInt : ℚ)
    linarith
  obtain ⟨product, equal, productNear⟩ := product_near precision inside
  rw [restored, quantize, equal]
  apply toInt32_eq_of_near
  have triangle := abs_sub_le product.toRat (coordinate.toRat * precision.scale)
    (sample.toInt : ℚ)
  linarith

end Polyline
