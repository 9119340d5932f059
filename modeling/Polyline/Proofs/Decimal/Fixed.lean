import Polyline.Proofs.Decimal.Text
import Polyline.Text.Integer

/-! Numbers written out with a fixed number of decimal places. A double that is less than half of
the last place away from a whole number of last places is shown as that number. -/

set_option autoImplicit false

namespace Polyline

namespace Decimal

/-- What stands behind the whole part of a number with so many decimal places. -/
def pointed (places : Nat) (fraction : List Char) : List Char :=
  if places = 0 then [] else '.' :: fraction

/-- The text that writes a number out in full with a number of decimal places: a minus sign below
zero, the whole part, and a point with the places behind it, unless there are none. -/
def IsExpansion (places : Nat) (number : ℚ) (text : List Char) : Prop :=
  ∃ (whole : Nat) (fraction : List Char),
    text = signText (number < 0) ++ Text.natural whole ++ pointed places fraction ∧
    fraction.length = places ∧ (∀ char ∈ fraction, char.isDigit = true) ∧
    |number| = whole + (Nat.ofDigitChars 10 fraction 0 : ℚ) / 10 ^ places

variable {places : Nat} {number other : ℚ} {text fraction : List Char}

/-! ## Reading expansions -/

theorem mem_signText_iff {negative : Bool} {char : Char} :
    char ∈ signText negative ↔ negative = true ∧ char = '-' := by
  cases negative <;> simp [signText]

theorem filter_isDigit_pointed (length : fraction.length = places)
    (digit : ∀ char ∈ fraction, char.isDigit = true) :
    (pointed places fraction).filter Char.isDigit = fraction := by
  unfold pointed
  split
  next none =>
    rw [none, List.length_eq_zero_iff] at length
    exact length.symm
  next => exact List.filter_eq_self.2 digit

theorem IsExpansion.isDigit_or (expanded : IsExpansion places number text) :
    ∀ char ∈ text, char.isDigit = true ∨ char = '.' ∨ number < 0 ∧ char = '-' := by
  obtain ⟨whole, fraction, rfl, _, digit, _⟩ := expanded
  intro char member
  rcases List.mem_append.1 member with front | behind
  · rcases List.mem_append.1 front with sign | inside
    · exact .inr (.inr (by simpa using mem_signText_iff.1 sign))
    · exact .inl (isDigit_toDigits whole char inside)
  · unfold pointed at behind
    split at behind
    · cases behind
    · rcases List.mem_cons.1 behind with point | inside
      · exact .inr (.inl point)
      · exact .inl (digit char inside)

theorem IsExpansion.not_mem (expanded : IsExpansion places number text) {char : Char}
    (other : char.isDigit = false) (point : char ≠ '.') (sign : char ≠ '-') : char ∉ text := by
  intro member
  rcases expanded.isDigit_or char member with digit | dot | ⟨_, minus⟩
  · exact Bool.false_ne_true (other.symm.trans digit)
  · exact point dot
  · exact sign minus

theorem IsExpansion.ne_nil (expanded : IsExpansion places number text) : text ≠ [] := by
  obtain ⟨whole, fraction, rfl, _⟩ := expanded
  have spelled : Text.natural whole ≠ [] := Nat.toDigits_ne_nil
  simp [spelled]

/-- The digits of an expansion, without sign and point, count its last places. -/
theorem IsExpansion.abs_eq (expanded : IsExpansion places number text) :
    |number| = (Nat.ofDigitChars 10 (text.filter Char.isDigit) 0 : ℚ) / 10 ^ places := by
  obtain ⟨whole, fraction, rfl, length, digit, size⟩ := expanded
  have sign : (signText (decide (number < 0))).filter Char.isDigit = [] := by
    rw [List.filter_eq_nil_iff]
    intro char member
    rw [(mem_signText_iff.1 member).2]
    decide
  have front : (Text.natural whole).filter Char.isDigit = Text.natural whole :=
    List.filter_eq_self.2 (isDigit_toDigits whole)
  have spelled : Nat.ofDigitChars 10 (Text.natural whole) 0 = whole :=
    Nat.ofDigitChars_ten_toDigits
  have moved : Nat.ofDigitChars 10 fraction whole =
      10 ^ fraction.length * whole + Nat.ofDigitChars 10 fraction 0 :=
    Nat.ofDigitChars_eq_ofDigitChars_zero
  rw [size, List.filter_append, List.filter_append, sign, front,
    filter_isDigit_pointed length digit, List.nil_append, Nat.ofDigitChars_append, spelled, moved,
    length]
  push_cast
  field_simp

theorem IsExpansion.neg_iff (expanded : IsExpansion places number text) :
    number < 0 ↔ '-' ∈ text := by
  constructor
  · intro below
    obtain ⟨whole, fraction, rfl, _⟩ := expanded
    simp [mem_signText_iff, below]
  · intro member
    rcases expanded.isDigit_or '-' member with digit | point | sign
    · cases digit
    · cases point
    · exact sign.1

/-- No text writes out two numbers. -/
theorem IsExpansion.unique (expanded : IsExpansion places number text)
    (same : IsExpansion places other text) : number = other := by
  have size := expanded.abs_eq.trans same.abs_eq.symm
  have sign := expanded.neg_iff.trans same.neg_iff.symm
  rcases lt_or_ge number 0 with below | above
  · rw [abs_of_neg below, abs_of_neg (sign.1 below)] at size
    exact neg_inj.1 size
  · rwa [abs_of_nonneg above, abs_of_nonneg (not_lt.1 (mt sign.2 (not_lt.2 above)))] at size

/-! ## Writing expansions -/

/-- The last digits of a number, filled up with zeros in front. -/
def lastDigits (places number : Nat) : List Char :=
  List.replicate (places - (Nat.toDigits 10 number).length) '0' ++ Nat.toDigits 10 number

theorem length_lastDigits {number : Nat} (some : places ≠ 0) (below : number < 10 ^ places) :
    (lastDigits places number).length = places := by
  have fits := (Nat.length_toDigits_le_iff (by decide) (Nat.pos_of_ne_zero some)).2 below
  rw [lastDigits, List.length_append, List.length_replicate, Nat.sub_add_cancel fits]

theorem isDigit_lastDigits (places number : Nat) :
    ∀ char ∈ lastDigits places number, char.isDigit = true := by
  intro char member
  rcases List.mem_append.1 member with zero | digit
  · exact isDigit_of_mem_zeros zero
  · exact isDigit_toDigits number char digit

theorem ofDigitChars_lastDigits (places number : Nat) :
    Nat.ofDigitChars 10 (lastDigits places number) 0 = number := by
  rw [lastDigits, Nat.ofDigitChars_append, Nat.ofDigitChars_replicate_zero, Nat.mul_zero,
    Nat.ofDigitChars_ten_toDigits]

/-- A whole number of last places is expanded by dividing it. -/
theorem isExpansion_div (places : Nat) (steps : Int) :
    IsExpansion places (steps / 10 ^ places)
      (signText (steps < 0) ++ Text.natural (steps.natAbs / 10 ^ places) ++
        pointed places (lastDigits places (steps.natAbs % 10 ^ places))) := by
  have scale : (0 : ℚ) < 10 ^ places := by positivity
  have positive : 0 < 10 ^ places := Nat.pow_pos (by decide)
  have sign : decide ((steps : ℚ) / 10 ^ places < 0) = decide (steps < 0) := by
    rw [decide_eq_decide, div_lt_iff₀ scale, zero_mul, Int.cast_lt_zero]
  have size : |(steps : ℚ) / 10 ^ places| =
      (steps.natAbs / 10 ^ places : Nat) + (steps.natAbs % 10 ^ places : Nat) / 10 ^ places := by
    have divided := cast_div_eq_add steps.natAbs positive
    push_cast at divided
    rw [abs_div, abs_of_pos scale, ← Int.cast_abs, Int.abs_eq_natAbs, Int.cast_natCast, divided]
  rcases Nat.eq_zero_or_pos places with rfl | some
  · refine ⟨steps.natAbs / 10 ^ 0, [], ?_, rfl, nofun, ?_⟩
    · rw [sign]
      rfl
    · simp
  · refine ⟨steps.natAbs / 10 ^ places, lastDigits places (steps.natAbs % 10 ^ places), ?_,
      length_lastDigits some.ne' (Nat.mod_lt _ positive), isDigit_lastDigits _ _, ?_⟩
    · rw [sign]
    · rw [ofDigitChars_lastDigits, size]

end Decimal

open Decimal Binary64

/-- How many last places a double is shown as. -/
def Binary64.Finite.steps (number : Finite) (places : Nat) : Nat :=
  nearestEven (number.grains * 10 ^ places) grainsPerUnit

theorem Binary64.Finite.fixedText_eq (number : Finite) (places : Nat) :
    number.fixedText places =
      signText number.negative ++ Text.natural (number.steps places / 10 ^ places) ++
        pointed places (lastDigits places (number.steps places % 10 ^ places)) := rfl

/-- A double is shown as a number of last places that is nearest to it. -/
theorem Binary64.Finite.isExpansion_steps {number : Finite} (positive : number.negative = false)
    (places : Nat) :
    IsExpansion places (number.steps places / 10 ^ places) (number.fixedText places) ∧
      |(number.steps places : ℚ) - number.toRat * 10 ^ places| ≤ 1 / 2 := by
  constructor
  · have expanded := isExpansion_div places (number.steps places)
    have sign : decide (((number.steps places : Nat) : Int) < 0) = number.negative := by
      rw [positive]
      exact decide_eq_false (Int.not_lt.2 (Int.natCast_nonneg _))
    rw [sign, Int.natAbs_natCast, Int.cast_natCast, ← fixedText_eq] at expanded
    exact expanded
  · have near := abs_nearestEven_sub_le (number.grains * 10 ^ places) grainsPerUnit_pos
    rw [toRat_eq_signed, positive, signed, if_neg Bool.false_ne_true, div_mul_eq_mul_div]
    push_cast at near
    exact near

/-- A double that is nearest to a whole number of last places is shown as that number. -/
theorem Binary64.Finite.isExpansion_fixedText {number : Finite} {places : Nat} {steps : Int}
    (sign : number.negative = decide (steps < 0))
    (near : |number.toRat * 10 ^ places - steps| < 1 / 2) :
    IsExpansion places (steps / 10 ^ places) (number.fixedText places) := by
  have exact : (steps : ℚ) = signed number.negative steps.natAbs := by
    rw [sign, Nat.cast_natAbs, Int.cast_abs]
    rcases lt_or_ge steps 0 with below | above
    · simp [signed, below, abs_of_neg]
    · simp [signed, above, abs_of_nonneg]
  have scaled : number.steps places = steps.natAbs := by
    apply nearestEven_eq_of_near grainsPerUnit_pos
    have moved : number.toRat * 10 ^ places =
        signed number.negative ((number.grains * 10 ^ places : Nat) / grainsPerUnit) := by
      rw [toRat_eq_signed]
      cases number.negative <;> simp [signed] <;> ring
    rwa [moved, exact, signed_sub_signed, abs_signed] at near
  rw [fixedText_eq, scaled, sign]
  exact isExpansion_div places steps

end Polyline
