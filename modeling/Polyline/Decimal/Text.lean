import Polyline.Decimal.Shortest

/-!
# Decimal text

How a decimal number is spelled: positionally or with an exponent, as a style lays down.
-/

set_option autoImplicit false

namespace Polyline

structure Decimal.Style where
  /-- Whether a number whose first digit counts this power of ten is spelled without exponent. -/
  isPositional : Int → Bool
  wholeEnding : List Char
  tie : Tie

namespace Decimal

/-- The significant digits without zeros at the end; zero has none. -/
def significant (digits : Nat) : List Char :=
  ((Nat.toDigits 10 digits).reverse.dropWhile (· == '0')).reverse

def leadingExponent (decimal : Decimal) : Int :=
  decimal.exponent + (Nat.toDigits 10 decimal.digits).length - 1

/-- Digits with a point after the first `whole` of them, filled up with zeros on either side. -/
def positional (ending : List Char) (digits : List Char) (whole : Int) : List Char :=
  if whole ≤ 0 then '0' :: '.' :: List.replicate (-whole).toNat '0' ++ digits
  else if digits.length ≤ whole.toNat then
    digits ++ List.replicate (whole.toNat - digits.length) '0' ++ ending
  else digits.take whole.toNat ++ '.' :: digits.drop whole.toNat

/-- Digits with a point after the first one, if there are more, and a signed exponent. -/
def scientific (digits : List Char) (exponent : Int) : List Char :=
  let fraction := if digits.length ≤ 1 then [] else '.' :: digits.drop 1
  let sign := if exponent < 0 then '-' else '+'
  digits.take 1 ++ fraction ++ 'e' :: sign :: Nat.toDigits 10 exponent.natAbs

def magnitudeText (style : Style) (decimal : Decimal) : List Char :=
  if decimal.digits = 0 then '0' :: style.wholeEnding
  else if style.isPositional decimal.leadingExponent then
    positional style.wholeEnding (significant decimal.digits) (decimal.leadingExponent + 1)
  else scientific (significant decimal.digits) decimal.leadingExponent

/-- The minus sign of a negative number, zero included. -/
def signText (negative : Bool) : List Char := if negative then ['-'] else []

def text (style : Style) (decimal : Decimal) : List Char :=
  signText decimal.negative ++ decimal.magnitudeText style

end Decimal

namespace Binary64

def Finite.text (style : Decimal.Style) (number : Finite) : List Char :=
  (number.shortest style.tie).text style

def nanText : List Char := ['N', 'a', 'N']

def infiniteText (negative : Bool) : List Char := Decimal.signText negative ++ ['i', 'n', 'f']

/-- The shortest spelling without exponent; a whole number gets no fraction. -/
def plainStyle : Decimal.Style := ⟨fun _ => true, [], .up⟩

def plainText : Binary64 → List Char
  | .nan => nanText
  | .infinite negative => infiniteText negative
  | .finite number => number.text plainStyle

/-- The exact value of a finite double rounded to a number of decimal places, a half to the even
last digit. The sign stays when the digits round to zero. -/
def Finite.fixedText (places : Nat) (number : Finite) : List Char :=
  let scaled := nearestEven (number.grains * Nat.pow 10 places) grainsPerUnit
  let fraction := Nat.toDigits 10 (scaled % Nat.pow 10 places)
  let point := if places = 0 then []
    else '.' :: List.replicate (places - fraction.length) '0' ++ fraction
  Decimal.signText number.negative ++ Nat.toDigits 10 (scaled / Nat.pow 10 places) ++ point

def fixedText (places : Nat) : Binary64 → List Char
  | .nan => nanText
  | .infinite negative => infiniteText negative
  | .finite number => number.fixedText places

end Binary64

end Polyline
