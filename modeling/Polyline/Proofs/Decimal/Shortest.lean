import Polyline.Decimal.Shortest
import Polyline.Proofs.Decimal.Value

/-! The decimal number that stands for a double reads back as that double. The candidates that are
cut short are tested for it, and a number written out in full is exact. -/

set_option autoImplicit false

namespace Polyline.Binary64.Finite

theorem toBinary64_roundedAt? {tie : Tie} {number : Finite} {dropped : Nat} {decimal : Decimal}
    (found : number.roundedAt? tie dropped = some decimal) :
    decimal.toBinary64 = .finite number := by
  unfold roundedAt? at found
  simp only at found
  split at found
  next => cases found
  next readsBack _ =>
    cases found
    exact of_decide_eq_true readsBack
  next _ readsBack =>
    cases found
    exact of_decide_eq_true readsBack
  next below above =>
    have either : ∀ digits, digits = number.exactDigits / Nat.pow 10 dropped ∨
        digits = number.exactDigits / Nat.pow 10 dropped + 1 →
        (Decimal.mk number.negative digits ((dropped : Int) - number.places)).toBinary64 =
          .finite number := by
      rintro digits (rfl | rfl)
      · exact of_decide_eq_true below
      · exact of_decide_eq_true above
    split at found
    · cases found
      exact either _ (.inl rfl)
    · cases found
      exact either _ (.inr rfl)
    · split at found
      · cases found
        apply either
        split
        · exact .inl rfl
        · exact .inr rfl
      · cases found
        exact either _ (.inr rfl)

/-- Twos in the power of ten and in the spacing make up for all twos of a unit. -/
theorem grainsPerUnit_dvd (number : Finite) :
    grainsPerUnit ∣ number.grains * 10 ^ number.places := by
  obtain ⟨negative, grains, spaced, inRange⟩ := number
  obtain ⟨shift, width, unit⟩ : ∃ shift, shift = 1074 ∧ grainsPerUnit = 2 ^ shift :=
    ⟨1074, rfl, by decide +kernel⟩
  have twos : 2 ^ shift ∣ spacing grains * 2 ^ (1074 - (grains.log2 - 52)) := by
    rw [spacing_eq_two_pow, ← Nat.pow_add]
    exact Nat.pow_dvd_pow 2 (by omega)
  have tens : 2 ^ (1074 - (grains.log2 - 52)) ∣ 10 ^ (1074 - (grains.log2 - 52)) :=
    pow_dvd_pow_of_dvd (by decide) _
  rw [unit]
  exact twos.trans (Nat.mul_dvd_mul spaced tens)

theorem toBinary64_toDecimal (number : Finite) : number.toDecimal.toBinary64 = .finite number := by
  have positive : 0 < 10 ^ number.places := Nat.pow_pos (by decide)
  have whole : (-(number.places : Int)).toNat = 0 := by omega
  have exact : number.exactDigits * grainsPerUnit = number.grains * 10 ^ number.places :=
    Nat.div_mul_cancel number.grainsPerUnit_dvd
  rw [Decimal.toBinary64_eq_ofQuotient]
  simp only [toDecimal, whole, pow_zero, mul_one, neg_neg, Int.toNat_natCast, exact]
  exact ofQuotient_mul positive number.representable number.negative

theorem toBinary64_shortest (tie : Tie) (number : Finite) :
    (number.shortest tie).toBinary64 = .finite number := by
  unfold shortest
  simp only
  cases found : (List.range sufficientDigits).findSome? fun index =>
      number.roundedAt? tie ((Nat.toDigits 10 number.exactDigits).length - (index + 1)) with
  | none => exact number.toBinary64_toDecimal
  | some decimal =>
    obtain ⟨index, _, rounded⟩ := List.exists_of_findSome?_eq_some found
    exact toBinary64_roundedAt? rounded

end Polyline.Binary64.Finite
