import Mathlib.Algebra.Order.Field.Power
import Polyline.Decimal.Text
import Polyline.Proofs.Decimal.Value

/-! Significant digits. A decimal number is its significant digits, counted by the power of ten of
the first of them; zeros at the end only move that count. -/

set_option autoImplicit false

namespace Polyline.Decimal

/-- Digits that spell a number without a needless zero in front. -/
structure IsSpelling (digits : List Char) : Prop where
  digit : ∀ char ∈ digits, char.isDigit = true
  leading : digits.head? ≠ some '0'
  nonempty : digits ≠ []

theorem isDigit_of_mem_zeros {zeros : Nat} {char : Char}
    (member : char ∈ List.replicate zeros '0') : char.isDigit = true := by
  rw [List.eq_of_mem_replicate member]
  rfl

theorem IsSpelling.append_zeros {digits : List Char} (spelling : IsSpelling digits) (zeros : Nat) :
    IsSpelling (digits ++ List.replicate zeros '0') := by
  obtain ⟨digit, leading, nonempty⟩ := spelling
  refine ⟨?_, by rwa [List.head?_append_of_ne_nil _ nonempty], by simp [nonempty]⟩
  exact List.forall_mem_append.2 ⟨digit, fun _ zero => isDigit_of_mem_zeros zero⟩

theorem isDigit_toDigits (number : Nat) :
    ∀ char ∈ Nat.toDigits 10 number, char.isDigit = true := by
  intro char member
  exact Nat.isDigit_of_mem_toDigits (by decide) (by decide) member

theorem head?_toDigits_ne_zero {number : Nat} (positive : number ≠ 0) :
    (Nat.toDigits 10 number).head? ≠ some '0' := by
  induction number using Nat.strongRecOn with
  | ind number ih =>
    rw [Nat.toDigits_eq_if (by decide)]
    split
    · simpa using positive
    · have shorter := ih (number / 10) (by omega) (by omega)
      cases front : Nat.toDigits 10 (number / 10) with
      | nil => exact absurd front Nat.toDigits_ne_nil
      | cons first others => simpa [front] using shorter

theorem exists_toDigits_eq_append (digits : Nat) :
    ∃ zeros, Nat.toDigits 10 digits = significant digits ++ List.replicate zeros '0' := by
  have divided := List.takeWhile_append_dropWhile (p := (· == '0'))
    (l := (Nat.toDigits 10 digits).reverse)
  have zeros : (Nat.toDigits 10 digits).reverse.takeWhile (· == '0') =
      List.replicate ((Nat.toDigits 10 digits).reverse.takeWhile (· == '0')).length '0' := by
    apply List.eq_replicate_of_mem
    intro char member
    simpa using List.all_eq_true.1 List.all_takeWhile char member
  refine ⟨((Nat.toDigits 10 digits).reverse.takeWhile (· == '0')).length, ?_⟩
  rw [significant, ← List.reverse_replicate, ← zeros, ← List.reverse_append, divided,
    List.reverse_reverse]

theorem ofDigitChars_significant_ne_zero {digits : Nat} (positive : digits ≠ 0) :
    Nat.ofDigitChars 10 (significant digits) 0 ≠ 0 := by
  intro zero
  obtain ⟨zeros, divided⟩ := exists_toDigits_eq_append digits
  have value := Nat.ofDigitChars_ten_toDigits (n := digits)
  rw [divided, Nat.ofDigitChars_append, Nat.ofDigitChars_replicate_zero, zero] at value
  exact positive value.symm

theorem isSpelling_significant {digits : Nat} (positive : digits ≠ 0) :
    IsSpelling (significant digits) := by
  obtain ⟨zeros, divided⟩ := exists_toDigits_eq_append digits
  have nonempty : significant digits ≠ [] := by
    intro empty
    have counted := ofDigitChars_significant_ne_zero positive
    rw [empty] at counted
    exact counted rfl
  refine ⟨?_, ?_, nonempty⟩
  · intro char member
    have spelled : char ∈ Nat.toDigits 10 digits := by
      rw [divided]
      exact List.mem_append_left _ member
    exact isDigit_toDigits digits char spelled
  · have leading := head?_toDigits_ne_zero positive
    cases spelled : significant digits with
    | nil => exact absurd spelled nonempty
    | cons first others =>
      rw [divided, spelled] at leading
      exact leading

/-- The significant digits as a number that counts the place of the last of them. -/
def trimmed (decimal : Decimal) : Decimal :=
  ⟨decimal.negative, Nat.ofDigitChars 10 (significant decimal.digits) 0,
    decimal.leadingExponent + 1 - (significant decimal.digits).length⟩

theorem toBinary64_trimmed (decimal : Decimal) :
    decimal.trimmed.toBinary64 = decimal.toBinary64 := by
  obtain ⟨negative, digits, exponent⟩ := decimal
  obtain ⟨zeros, divided⟩ := exists_toDigits_eq_append digits
  have value := Nat.ofDigitChars_ten_toDigits (n := digits)
  have length := congrArg List.length divided
  rw [divided, Nat.ofDigitChars_append, Nat.ofDigitChars_replicate_zero] at value
  rw [List.length_append, List.length_replicate] at length
  have moved : (Decimal.mk negative digits exponent).leadingExponent + 1 -
      (significant digits).length = exponent + zeros := by
    simp only [leadingExponent, length]
    push_cast
    ring
  have cast : (digits : ℚ) = 10 ^ zeros * Nat.ofDigitChars 10 (significant digits) 0 := by
    exact_mod_cast value.symm
  apply toBinary64_congr negative
  rw [moved, cast, zpow_add₀ (by norm_num), zpow_natCast]
  ring

end Polyline.Decimal
