import Polyline.Decimal.Basic
import Polyline.Json.Basic

/-!
# Numbers and words of JSON

The tokens that are written without quotes. A number is an optional minus sign, digits without a
needless zero in front, an optional fraction and an optional exponent. Numbers that would round to
infinity are refused.
-/

set_option autoImplicit false

namespace Polyline.Json

def digits? (text : List Char) : Option (List Char × List Char) :=
  match text.span Char.isDigit with
  | ([], _) => none
  | (digits, rest) => some (digits, rest)

/-- Whole digits start with a zero only if they are a single zero. -/
def wholeDigits? (text : List Char) : Option (List Char × List Char) :=
  match digits? text with
  | some ('0' :: _ :: _, _) => none
  | found => found

def fraction? : List Char → Option (List Char × List Char)
  | '.' :: rest => digits? rest
  | text => some ([], text)

def exponent? : List Char → Option Int
  | [] => some 0
  | mark :: rest =>
    if mark ≠ 'e' ∧ mark ≠ 'E' then none
    else
      let (negative, rest) := match rest with
        | '-' :: rest => (true, rest)
        | '+' :: rest => (false, rest)
        | _ => (false, rest)
      match digits? rest with
      | some (digits, []) =>
        let magnitude : Int := Nat.ofDigitChars 10 digits 0
        some (if negative then -magnitude else magnitude)
      | _ => none

/-- The value of what follows the sign of a number. Minus zero is a double, because a whole number
cannot hold its sign. -/
def magnitude? (negative : Bool) (text : List Char) : Option Json := do
  let (whole, rest) ← wholeDigits? text
  let (fraction, rest) ← fraction? rest
  let exponent ← exponent? rest
  let decimal : Decimal :=
    ⟨negative, Nat.ofDigitChars 10 (whole ++ fraction) 0, exponent - fraction.length⟩
  let value := decimal.toBinary64
  if value.isFinite = false then none
  else if rest.isEmpty && fraction.isEmpty && !(negative && decimal.digits == 0) then
    some (.integer (if negative then -(decimal.digits : Int) else decimal.digits))
  else some (.real value)

def number? : List Char → Option Json
  | '-' :: rest => magnitude? true rest
  | text => magnitude? false text

def isLiteral (char : Char) : Bool := char.isAlphanum || char == '-' || char == '+' || char == '.'

def literal? (text : List Char) : Option Json :=
  if text = ['n', 'u', 'l', 'l'] then some .null
  else if text = ['t', 'r', 'u', 'e'] then some (.bool true)
  else if text = ['f', 'a', 'l', 's', 'e'] then some (.bool false)
  else number? text

end Polyline.Json
