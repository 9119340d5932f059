import Polyline.Decimal.Basic

/-!
# Shortest decimal numbers

The decimal number that stands for a double in text: of all that read back as that double, one with
the fewest digits, and of those the nearest to it.
-/

set_option autoImplicit false

namespace Polyline

inductive Tie where
  | even
  | up
  deriving DecidableEq

namespace Binary64.Finite

/-- How many decimal places write the number out in full. A grain, which is `2^-1074`, takes 1074
places, and one place fewer is needed each time the spacing around the number doubles. -/
def places (number : Finite) : Nat := 1074 - (number.grains.log2 - 52)

/-- The digits of the magnitude written out in full. The division leaves no remainder. -/
def exactDigits (number : Finite) : Nat := number.grains * Nat.pow 10 number.places / grainsPerUnit

def toDecimal (number : Finite) : Decimal := ⟨number.negative, number.exactDigits, -number.places⟩

/-- A magnitude cut to a multiple of `10 ^ dropped` in its last place, or one above it: the nearer
of those that read back as the number. -/
def roundedAt? (tie : Tie) (number : Finite) (dropped : Nat) : Option Decimal :=
  let below := number.exactDigits / Nat.pow 10 dropped
  let remainder := number.exactDigits % Nat.pow 10 dropped
  let decimal (digits : Nat) : Decimal := ⟨number.negative, digits, (dropped : Int) - number.places⟩
  let readsBack (digits : Nat) : Bool := (decimal digits).toBinary64 = .finite number
  match readsBack below, readsBack (below + 1) with
  | false, false => none
  | true, false => some (decimal below)
  | false, true => some (decimal (below + 1))
  | true, true =>
    match compare (2 * remainder) (Nat.pow 10 dropped) with
    | .lt => some (decimal below)
    | .gt => some (decimal (below + 1))
    | .eq =>
      match tie with
      | .even => some (decimal (if below % 2 = 0 then below else below + 1))
      | .up => some (decimal (below + 1))

/-- Seventeen digits tell any two doubles apart. -/
def sufficientDigits : Nat := 17

def shortest (tie : Tie) (number : Finite) : Decimal :=
  let length := (Nat.toDigits 10 number.exactDigits).length
  ((List.range sufficientDigits).findSome? fun index =>
    number.roundedAt? tie (length - (index + 1))).getD number.toDecimal

end Binary64.Finite

end Polyline
