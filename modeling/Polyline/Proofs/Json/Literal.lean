import Polyline.Json.Literal
import Polyline.Json.Printing
import Polyline.Proofs.Decimal.Shortest
import Polyline.Proofs.Decimal.Text

/-! Printed numbers read back. A number is printed positionally or with an exponent, with zeros put
in where digits end too early, and each of these spellings has the value of its significant digits.
-/

set_option autoImplicit false

namespace Polyline.Json

open Decimal

/-! ## Parts of a number -/

theorem digits?_append {digits rest : List Char} (digit : ∀ char ∈ digits, char.isDigit = true)
    (nonempty : digits ≠ []) (stops : ∀ char ∈ rest.head?, char.isDigit = false) :
    digits? (digits ++ rest) = some (digits, rest) := by
  have ended : rest.takeWhile Char.isDigit = [] ∧ rest.dropWhile Char.isDigit = rest := by
    cases rest with
    | nil => exact ⟨rfl, rfl⟩
    | cons char rest => simp [stops char rfl]
  unfold digits?
  rw [List.span_eq_takeWhile_dropWhile, List.takeWhile_append_of_pos digit,
    List.dropWhile_append_of_pos digit, ended.1, ended.2, List.append_nil]
  cases digits with
  | nil => exact absurd rfl nonempty
  | cons first others => rfl

theorem digits?_of_all {digits : List Char} (digit : ∀ char ∈ digits, char.isDigit = true)
    (nonempty : digits ≠ []) : digits? digits = some (digits, []) := by
  have stops : ∀ char ∈ ([] : List Char).head?, char.isDigit = false := nofun
  simpa using digits?_append digit nonempty stops

theorem wholeDigits?_append {digits rest : List Char}
    (digit : ∀ char ∈ digits, char.isDigit = true) (nonempty : digits ≠ [])
    (leading : digits.head? = some '0' → digits = ['0'])
    (stops : ∀ char ∈ rest.head?, char.isDigit = false) :
    wholeDigits? (digits ++ rest) = some (digits, rest) := by
  unfold wholeDigits?
  rw [digits?_append digit nonempty stops]
  split
  next second others _ equal =>
    cases equal
    have single := leading rfl
    cases single
  next => rfl

theorem exponent?_sign (exponent : Int) :
    exponent? ('e' :: (if exponent < 0 then '-' else '+') :: Nat.toDigits 10 exponent.natAbs) =
      some exponent := by
  have read := digits?_of_all (isDigit_toDigits exponent.natAbs) Nat.toDigits_ne_nil
  by_cases below : exponent < 0
  · simp [exponent?, below, read, Nat.ofDigitChars_ten_toDigits, abs_of_neg below]
  · simp [exponent?, below, read, Nat.ofDigitChars_ten_toDigits, abs_of_nonneg (not_lt.1 below)]

/-- A number with a fraction or an exponent is the double of the value it spells. It may have
further zeros behind the digits that are counted. -/
theorem magnitude?_append {negative : Bool} {whole rest fraction tail : List Char} {exponent : Int}
    {count zeros : Nat} {place : Int} {number : Binary64.Finite}
    (digit : ∀ char ∈ whole, char.isDigit = true) (nonempty : whole ≠ [])
    (leading : whole.head? = some '0' → whole = ['0'])
    (stops : ∀ char ∈ rest.head?, char.isDigit = false)
    (divided : fraction? rest = some (fraction, tail)) (scaled : exponent? tail = some exponent)
    (fractional : fraction ≠ [] ∨ tail ≠ [])
    (counted : Nat.ofDigitChars 10 (whole ++ fraction) 0 = 10 ^ zeros * count)
    (placed : place = exponent - fraction.length + zeros)
    (reads : (Decimal.mk negative count place).toBinary64 = .finite number) :
    magnitude? negative (whole ++ rest) = some (.real (.finite number)) := by
  have double : (Decimal.mk negative (Nat.ofDigitChars 10 (whole ++ fraction) 0)
      (exponent - fraction.length)).toBinary64 = .finite number := by
    rw [← reads]
    apply toBinary64_congr negative
    rw [counted, placed, zpow_add₀ (by norm_num), zpow_natCast]
    push_cast
    ring
  have inexact : (tail.isEmpty && fraction.isEmpty) = false := by
    rcases fractional with some | some
    · simp [some]
    · simp [some]
  unfold magnitude?
  rw [wholeDigits?_append digit nonempty leading stops]
  simp only [bind, Option.bind, divided, scaled, double, Binary64.isFinite, inexact,
    Bool.false_and, Bool.true_eq_false, Bool.false_eq_true, if_false]

/-! ## Spellings -/

variable {negative : Bool} {digits : List Char} {number : Binary64.Finite}

/-- Zeros between the point and the first digit. -/
theorem magnitude?_belowOne (spelling : IsSpelling digits) {zeros : Nat}
    (reads : (Decimal.mk negative (Nat.ofDigitChars 10 digits 0)
      (-zeros - digits.length)).toBinary64 = .finite number) :
    magnitude? negative ('0' :: '.' :: List.replicate zeros '0' ++ digits) =
      some (.real (.finite number)) := by
  obtain ⟨digit, _, nonempty⟩ := spelling
  have fraction : ∀ char ∈ List.replicate zeros '0' ++ digits, char.isDigit = true := by
    intro char member
    rcases List.mem_append.1 member with zero | spelled
    · exact isDigit_of_mem_zeros zero
    · exact digit char spelled
  have counted : Nat.ofDigitChars 10 (['0'] ++ (List.replicate zeros '0' ++ digits)) 0 =
      10 ^ 0 * Nat.ofDigitChars 10 digits 0 := by
    simp [Nat.ofDigitChars_append, Nat.ofDigitChars_replicate_zero, Nat.ofDigitChars_cons]
  have placed : (-zeros - digits.length : Int) =
      0 - (List.replicate zeros '0' ++ digits).length + (0 : Nat) := by
    simp
    omega
  have read : magnitude? negative (['0'] ++ '.' :: (List.replicate zeros '0' ++ digits)) = _ :=
    magnitude?_append (by simp) (by simp) (fun _ => rfl) (by simp)
      (digits?_of_all fraction (by simp [nonempty])) rfl (.inl (by simp [nonempty])) counted placed
      reads
  simpa using read

/-- Zeros between the last digit and the point. -/
theorem magnitude?_whole (spelling : IsSpelling digits) {zeros : Nat}
    (reads : (Decimal.mk negative (Nat.ofDigitChars 10 digits 0) zeros).toBinary64 =
      .finite number) :
    magnitude? negative (digits ++ List.replicate zeros '0' ++ ['.', '0']) =
      some (.real (.finite number)) := by
  obtain ⟨digit, leading, nonempty⟩ := spelling.append_zeros zeros
  have counted : Nat.ofDigitChars 10 (digits ++ List.replicate zeros '0' ++ ['0']) 0 =
      10 ^ (zeros + 1) * Nat.ofDigitChars 10 digits 0 := by
    rw [List.append_assoc, ← List.replicate_succ', Nat.ofDigitChars_append,
      Nat.ofDigitChars_replicate_zero]
  have placed : (zeros : Int) = 0 - (['0'] : List Char).length + ((zeros + 1 : Nat) : Int) := by
    simp
  have divided : fraction? ['.', '0'] = some (['0'], []) := by decide
  exact magnitude?_append digit nonempty (absurd · leading) (by simp) divided rfl
    (.inl (by simp)) counted placed reads

/-- The point between two digits. -/
theorem magnitude?_divided (spelling : IsSpelling digits) {whole : Nat} (positive : 0 < whole)
    (many : whole < digits.length)
    (reads : (Decimal.mk negative (Nat.ofDigitChars 10 digits 0)
      (whole - digits.length)).toBinary64 = .finite number) :
    magnitude? negative (digits.take whole ++ '.' :: digits.drop whole) =
      some (.real (.finite number)) := by
  obtain ⟨digit, leading, nonempty⟩ := spelling
  have front : digits.take whole ≠ [] := by
    simp [nonempty, positive.ne']
  have back : digits.drop whole ≠ [] := by
    simpa using many
  have first : (digits.take whole).head? ≠ some '0' := by
    rwa [List.head?_take, if_neg positive.ne']
  have counted : Nat.ofDigitChars 10 (digits.take whole ++ digits.drop whole) 0 =
      10 ^ 0 * Nat.ofDigitChars 10 digits 0 := by
    simp
  have placed : (whole - digits.length : Int) =
      0 - ((digits.drop whole).length : Int) + (0 : Nat) := by
    simp
    omega
  exact magnitude?_append (fun char member => digit char (List.mem_of_mem_take member)) front
    (absurd · first) (by simp)
    (digits?_of_all (fun char member => digit char (List.mem_of_mem_drop member)) back) rfl
    (.inl back) counted placed reads

theorem magnitude?_positional (spelling : IsSpelling digits) {whole : Int}
    (reads : (Decimal.mk negative (Nat.ofDigitChars 10 digits 0)
      (whole - digits.length)).toBinary64 = .finite number) :
    magnitude? negative (positional ['.', '0'] digits whole) = some (.real (.finite number)) := by
  unfold positional
  split
  next small =>
    have place : whole - digits.length = -((-whole).toNat : Int) - digits.length := by omega
    rw [place] at reads
    exact magnitude?_belowOne spelling reads
  next large =>
    split
    next few =>
      have place : whole - digits.length = ((whole.toNat - digits.length : Nat) : Int) := by omega
      rw [place] at reads
      exact magnitude?_whole spelling reads
    next many =>
      have place : whole - digits.length = (whole.toNat : Int) - digits.length := by omega
      rw [place] at reads
      exact magnitude?_divided spelling (by omega) (by omega) reads

theorem magnitude?_scientific (spelling : IsSpelling digits) {exponent : Int}
    (reads : (Decimal.mk negative (Nat.ofDigitChars 10 digits 0)
      (exponent + 1 - digits.length)).toBinary64 = .finite number) :
    magnitude? negative (scientific digits exponent) = some (.real (.finite number)) := by
  obtain ⟨digit, leading, nonempty⟩ := spelling
  let tail := 'e' :: (if exponent < 0 then '-' else '+') :: Nat.toDigits 10 exponent.natAbs
  have scaled : exponent? tail = some exponent := exponent?_sign exponent
  cases digits with
  | nil => exact absurd rfl nonempty
  | cons first others =>
    obtain ⟨front, back⟩ := List.forall_mem_cons.1 digit
    have whole : ∀ char ∈ [first], char.isDigit = true := by simpa using front
    have nonzero : ([first] : List Char).head? ≠ some '0' := leading
    have counted : Nat.ofDigitChars 10 ([first] ++ others) 0 =
        10 ^ 0 * Nat.ofDigitChars 10 (first :: others) 0 := by
      simp
    have placed : exponent + 1 - (first :: others).length =
        exponent - others.length + (0 : Nat) := by
      simp
    cases others with
    | nil =>
      have divided : fraction? tail = some ([], tail) := rfl
      exact magnitude?_append whole (by simp) (absurd · nonzero) (by simp) divided scaled
        (.inr (List.cons_ne_nil _ _)) counted placed reads
    | cons second others =>
      have divided : fraction? ('.' :: (second :: others ++ tail)) =
          some (second :: others, tail) :=
        digits?_append back (by simp) (by simp [tail])
      have read : magnitude? negative ([first] ++ '.' :: (second :: others ++ tail)) = _ :=
        magnitude?_append whole (by simp) (absurd · nonzero) (by simp) divided scaled
          (.inl (by simp)) counted placed reads
      simpa [scientific, tail] using read

theorem magnitude?_magnitudeText {decimal : Decimal} {number : Binary64.Finite}
    (reads : decimal.toBinary64 = .finite number) :
    magnitude? decimal.negative (decimal.magnitudeText numberStyle) =
      some (.real (.finite number)) := by
  obtain ⟨negative, digits, exponent⟩ := decimal
  unfold magnitudeText
  split
  next none =>
    cases none
    have unscaled : (Decimal.mk negative 0 (-1)).toBinary64 = .finite number := by
      rw [← reads]
      exact toBinary64_congr negative (by simp)
    have divided : fraction? ['.', '0'] = some (['0'], []) := by decide
    have counted : Nat.ofDigitChars 10 (['0'] ++ ['0']) 0 = 10 ^ 0 * 0 := rfl
    have placed : (-1 : Int) = 0 - (['0'] : List Char).length + (0 : Nat) := rfl
    have read : magnitude? negative (['0'] ++ ['.', '0']) = _ :=
      magnitude?_append (by simp) (by simp) (fun _ => rfl) (by simp) divided rfl (.inl (by simp))
        counted placed unscaled
    exact read
  next some =>
    have spelling := isSpelling_significant some
    rw [← toBinary64_trimmed] at reads
    split
    · exact magnitude?_positional spelling reads
    · exact magnitude?_scientific spelling reads

theorem number?_text {decimal : Decimal} {number : Binary64.Finite}
    (reads : decimal.toBinary64 = .finite number) :
    number? (decimal.text numberStyle) = some (.real (.finite number)) := by
  have read := magnitude?_magnitudeText reads
  unfold text
  cases sign : decimal.negative with
  | true =>
    rw [sign] at read
    exact read
  | false =>
    rw [sign] at read
    change number? (decimal.magnitudeText numberStyle) = _
    cases spelled : decimal.magnitudeText numberStyle with
    | nil =>
      rw [spelled] at read
      cases read
    | cons first others =>
      rw [spelled] at read
      unfold number?
      split
      next hyphen =>
        cases hyphen
        cases read
      next => exact read

theorem literal?_of_number? {text : List Char} {value : Json} (read : number? text = some value) :
    literal? text = some value := by
  unfold literal?
  split
  next word =>
    subst word
    cases read
  next =>
    split
    next word =>
      subst word
      cases read
    next =>
      split
      next word =>
        subst word
        cases read
      next => exact read

/-- What a printed number is for a reader: numbers that are none are printed as null. -/
def realRead : Binary64 → Json
  | .finite number => .real (.finite number)
  | .infinite _ | .nan => .null

theorem realRead_of_isFinite {number : Binary64} (finite : number.isFinite = true) :
    realRead number = .real number := by
  cases number with
  | finite number => rfl
  | infinite negative => cases finite
  | nan => cases finite

theorem literal?_realText (number : Binary64) :
    literal? (realText number) = some (realRead number) := by
  cases number with
  | nan => rfl
  | infinite negative => rfl
  | finite number => exact literal?_of_number? (number?_text (number.toBinary64_shortest .even))

/-! ## Characters of a number -/

theorem isLiteral_of_isDigit {char : Char} (digit : char.isDigit = true) :
    isLiteral char = true := by
  simp [isLiteral, Char.isAlphanum, digit]

theorem isLiteral_toDigits (number : Nat) :
    ∀ char ∈ Nat.toDigits 10 number, isLiteral char = true := by
  intro char member
  exact isLiteral_of_isDigit (isDigit_toDigits number char member)

theorem isLiteral_positional {ending digits : List Char}
    (closing : ∀ char ∈ ending, isLiteral char = true)
    (spelled : ∀ char ∈ digits, isLiteral char = true) (whole : Int) :
    ∀ char ∈ positional ending digits whole, isLiteral char = true := by
  have filled : ∀ zeros : Nat, ∀ char ∈ List.replicate zeros '0', isLiteral char = true :=
    fun zeros char member => isLiteral_of_isDigit (isDigit_of_mem_zeros member)
  unfold positional
  split
  · simp only [List.cons_append, List.forall_mem_cons, List.forall_mem_append]
    exact ⟨rfl, rfl, filled _, spelled⟩
  · split
    · simp only [List.forall_mem_append]
      exact ⟨⟨spelled, filled _⟩, closing⟩
    · simp only [List.forall_mem_append, List.forall_mem_cons]
      exact ⟨fun char member => spelled char (List.mem_of_mem_take member), rfl,
        fun char member => spelled char (List.mem_of_mem_drop member)⟩

theorem isLiteral_scientific {digits : List Char}
    (spelled : ∀ char ∈ digits, isLiteral char = true) (exponent : Int) :
    ∀ char ∈ scientific digits exponent, isLiteral char = true := by
  have fraction : ∀ char ∈ (if digits.length ≤ 1 then [] else '.' :: digits.drop 1),
      isLiteral char = true := by
    split
    · nofun
    · exact List.forall_mem_cons.2
        ⟨rfl, fun char member => spelled char (List.mem_of_mem_drop member)⟩
  have sign : isLiteral (if exponent < 0 then '-' else '+') = true := by
    split <;> rfl
  unfold scientific
  simp only [List.forall_mem_append, List.forall_mem_cons]
  exact ⟨⟨fun char member => spelled char (List.mem_of_mem_take member), fraction⟩, rfl, sign,
    isLiteral_toDigits exponent.natAbs⟩

theorem isLiteral_signText (negative : Bool) :
    ∀ char ∈ signText negative, isLiteral char = true := by
  cases negative <;> exact List.all_eq_true.1 rfl

theorem isLiteral_text {style : Style} (ending : ∀ char ∈ style.wholeEnding, isLiteral char = true)
    (decimal : Decimal) : ∀ char ∈ decimal.text style, isLiteral char = true := by
  have spelled : ∀ char ∈ significant decimal.digits, isLiteral char = true := by
    obtain ⟨zeros, divided⟩ := exists_toDigits_eq_append decimal.digits
    intro char member
    apply isLiteral_toDigits decimal.digits
    rw [divided]
    exact List.mem_append_left _ member
  refine List.forall_mem_append.2 ⟨isLiteral_signText decimal.negative, ?_⟩
  unfold magnitudeText
  split
  · exact List.forall_mem_cons.2 ⟨rfl, ending⟩
  · split
    · exact isLiteral_positional ending spelled _
    · exact isLiteral_scientific spelled _

theorem isLiteral_realText (number : Binary64) :
    ∀ char ∈ realText number, isLiteral char = true := by
  cases number with
  | nan => exact List.all_eq_true.1 rfl
  | infinite negative => exact List.all_eq_true.1 rfl
  | finite number => exact isLiteral_text (List.all_eq_true.1 rfl) _

theorem isLiteral_plainText (number : Binary64) :
    ∀ char ∈ number.plainText, isLiteral char = true := by
  cases number with
  | nan => exact List.all_eq_true.1 rfl
  | infinite negative => cases negative <;> exact List.all_eq_true.1 rfl
  | finite number => exact isLiteral_text (List.forall_mem_nil _) _

theorem realText_ne_nil (number : Binary64) : realText number ≠ [] := by
  intro empty
  have read := literal?_realText number
  rw [empty] at read
  cases read

end Polyline.Json
