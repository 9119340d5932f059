import Polyline.Proofs.Json.Literal
import Polyline.Text.Integer

/-! Whole numbers read back. They are spelled by digits alone, and a double that is one is shown to
people without a point, so that it is read as a whole number and turned into the double again. -/

set_option autoImplicit false

namespace Polyline.Json

open Decimal

/-- Digits alone are a whole number, unless they are a zero with a minus sign. -/
theorem magnitude?_digits {negative : Bool} {digits : List Char}
    (digit : ∀ char ∈ digits, char.isDigit = true) (nonempty : digits ≠ [])
    (leading : digits.head? = some '0' → digits = ['0'])
    (finite : (Decimal.mk negative (Nat.ofDigitChars 10 digits 0) 0).toBinary64.isFinite = true)
    (signed : negative = true → Nat.ofDigitChars 10 digits 0 ≠ 0) :
    magnitude? negative digits =
      some (.integer (if negative then -(Nat.ofDigitChars 10 digits 0 : Int)
        else Nat.ofDigitChars 10 digits 0)) := by
  have stops : ∀ char ∈ ([] : List Char).head?, char.isDigit = false := nofun
  have taken := wholeDigits?_append digit nonempty leading stops
  have divided : fraction? [] = some ([], []) := rfl
  have scaled : exponent? [] = some 0 := rfl
  have exact : (!(negative && Nat.ofDigitChars 10 digits 0 == 0)) = true := by
    cases negative with
    | false => rfl
    | true => simpa using signed rfl
  rw [List.append_nil] at taken
  unfold magnitude?
  rw [taken]
  simp only [bind, Option.bind, divided, scaled, List.append_nil, List.length_nil, Nat.cast_zero,
    sub_zero, finite, exact, List.isEmpty_nil, Bool.and_self, Bool.true_eq_false, if_false, if_true]

/-- The double of a whole number is that of its digits. -/
theorem ofInt_eq_toBinary64 {negative : Bool} {count : Nat}
    (signed : negative = true → count ≠ 0) :
    Binary64.ofInt (if negative then -(count : Int) else count) =
      (Decimal.mk negative count 0).toBinary64 := by
  have sign : decide ((if negative then -(count : Int) else count) < 0) = negative := by
    cases negative with
    | false => simp
    | true => simpa using Nat.pos_of_ne_zero (signed rfl)
  have size : (if negative then -(count : Int) else count).natAbs = count := by
    cases negative <;> simp
  rw [toBinary64_eq_ofQuotient, Binary64.ofInt_eq_ofQuotient, sign, size]
  simp only [Int.neg_zero, Int.toNat_zero, pow_zero, mul_one]

/-- A sign in front of a magnitude, which has no hyphen in front of it. -/
theorem number?_signText {negative : Bool} {text : List Char} {read : Json}
    (magnitude : magnitude? negative text = some read) :
    number? (signText negative ++ text) = some read := by
  cases negative with
  | true => exact magnitude
  | false =>
    change number? text = _
    unfold number?
    split
    next => cases magnitude
    next => exact magnitude

/-! ## Integers -/

theorem integer_eq_signText (number : Int) :
    Text.integer number = signText (decide (number < 0)) ++ Text.natural number.natAbs := by
  simp [Text.integer, signText]

theorem head?_natural {number : Nat} (zero : (Text.natural number).head? = some '0') :
    Text.natural number = ['0'] := by
  by_cases none : number = 0
  · rw [none]
    rfl
  · exact absurd zero (head?_toDigits_ne_zero none)

theorem number?_integer {number : Int} (finite : (Binary64.ofInt number).isFinite = true) :
    number? (Text.integer number) = some (.integer number) := by
  have same : (if decide (number < 0) then -(number.natAbs : Int) else number.natAbs) = number := by
    rcases lt_or_ge number 0 with below | above
    · rw [if_pos (decide_eq_true below), Int.ofNat_natAbs_of_nonpos below.le, neg_neg]
    · rw [if_neg (by simpa using above), Int.natAbs_of_nonneg above]
  have signed (below : decide (number < 0) = true) : number.natAbs ≠ 0 :=
    Int.natAbs_ne_zero.2 (of_decide_eq_true below).ne
  have digits : Nat.ofDigitChars 10 (Text.natural number.natAbs) 0 = number.natAbs :=
    Nat.ofDigitChars_ten_toDigits
  have nonempty : Text.natural number.natAbs ≠ [] := Nat.toDigits_ne_nil
  have digit : ∀ char ∈ Text.natural number.natAbs, char.isDigit = true :=
    isDigit_toDigits number.natAbs
  rw [← same, ofInt_eq_toBinary64 signed, ← digits] at finite
  rw [← digits] at signed
  have read := magnitude?_digits digit nonempty head?_natural finite signed
  rw [digits, same] at read
  rw [integer_eq_signText, number?_signText read]

theorem isLiteral_integer (number : Int) : ∀ char ∈ Text.integer number, isLiteral char = true := by
  rw [integer_eq_signText]
  exact List.forall_mem_append.2 ⟨isLiteral_signText _, isLiteral_toDigits number.natAbs⟩

theorem integer_ne_nil (number : Int) : Text.integer number ≠ [] := by
  have nonempty : Text.natural number.natAbs ≠ [] := Nat.toDigits_ne_nil
  simp [Text.integer, nonempty]

/-! ## Doubles without a needless point -/

/-- A text of which a reader makes a double. -/
def IsNumber (number : Binary64) (text : List Char) : Prop :=
  ∃ read, number? text = some read ∧ read.toBinary64? = some number

theorem isNumber_of_magnitude? {negative : Bool} {text : List Char} {read : Json}
    {number : Binary64} (magnitude : magnitude? negative text = some read)
    (double : read.toBinary64? = some number) : IsNumber number (signText negative ++ text) :=
  ⟨read, number?_signText magnitude, double⟩

variable {negative : Bool} {digits : List Char} {number : Binary64.Finite}

/-- Zeros behind the last digit of a whole number. -/
theorem isNumber_whole (spelling : IsSpelling digits) (positive : Nat.ofDigitChars 10 digits 0 ≠ 0)
    {zeros : Nat} (reads : (Decimal.mk negative (Nat.ofDigitChars 10 digits 0) zeros).toBinary64 =
      .finite number) :
    IsNumber (.finite number) (signText negative ++ (digits ++ List.replicate zeros '0')) := by
  have value : Nat.ofDigitChars 10 (digits ++ List.replicate zeros '0') 0 =
      10 ^ zeros * Nat.ofDigitChars 10 digits 0 := by
    rw [Nat.ofDigitChars_append, Nat.ofDigitChars_replicate_zero]
  have double : (Decimal.mk negative (Nat.ofDigitChars 10 (digits ++ List.replicate zeros '0') 0)
      0).toBinary64 = .finite number := by
    rw [← reads, value]
    apply toBinary64_congr negative
    rw [zpow_natCast, zpow_zero]
    push_cast
    ring
  have signed : negative = true →
      Nat.ofDigitChars 10 (digits ++ List.replicate zeros '0') 0 ≠ 0 := by
    intro _
    rw [value]
    exact mul_ne_zero (by positivity) positive
  obtain ⟨digit, leading, nonempty⟩ := spelling.append_zeros zeros
  refine isNumber_of_magnitude? (magnitude?_digits digit nonempty (absurd · leading) ?_ signed) ?_
  · rw [double]
    rfl
  · rw [toBinary64?, ofInt_eq_toBinary64 signed, double]

theorem isNumber_positional (spelling : IsSpelling digits)
    (positive : Nat.ofDigitChars 10 digits 0 ≠ 0) {whole : Int}
    (reads : (Decimal.mk negative (Nat.ofDigitChars 10 digits 0)
      (whole - digits.length)).toBinary64 = .finite number) :
    IsNumber (.finite number) (signText negative ++ positional [] digits whole) := by
  unfold positional
  split
  next small =>
    have place : whole - digits.length = -((-whole).toNat : Int) - digits.length := by omega
    rw [place] at reads
    exact isNumber_of_magnitude? (magnitude?_belowOne spelling reads) rfl
  next large =>
    split
    next few =>
      have place : whole - digits.length = ((whole.toNat - digits.length : Nat) : Int) := by omega
      rw [place] at reads
      rw [List.append_nil]
      exact isNumber_whole spelling positive reads
    next many =>
      have place : whole - digits.length = (whole.toNat : Int) - digits.length := by omega
      rw [place] at reads
      exact isNumber_of_magnitude? (magnitude?_divided spelling (by omega) (by omega) reads) rfl

theorem isNumber_text {decimal : Decimal} (reads : decimal.toBinary64 = .finite number) :
    IsNumber (.finite number) (decimal.text Binary64.plainStyle) := by
  unfold text magnitudeText
  split
  next none =>
    obtain ⟨negative, digits, exponent⟩ := decimal
    cases none
    have zero (exponent : Int) :
        (Decimal.mk negative 0 exponent).toBinary64 = Binary64.zero negative := if_pos rfl
    rw [zero] at reads
    cases negative with
    | true => exact ⟨.real (Binary64.zero true), rfl, congrArg some reads⟩
    | false =>
      have whole := @ofInt_eq_toBinary64 false 0 nofun
      rw [zero, reads] at whole
      exact ⟨.integer 0, rfl, congrArg some whole⟩
  next some =>
    rw [← toBinary64_trimmed] at reads
    exact isNumber_positional (isSpelling_significant some) (ofDigitChars_significant_ne_zero some)
      reads

/-- The spelling of a double that is made for people is read as that double. -/
theorem isNumber_plainText {number : Binary64} (finite : number.isFinite = true) :
    IsNumber number number.plainText := by
  cases number with
  | finite number => exact isNumber_text (number.toBinary64_shortest .up)
  | infinite negative => cases finite
  | nan => cases finite

end Polyline.Json
