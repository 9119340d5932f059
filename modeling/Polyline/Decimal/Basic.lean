import Polyline.Binary64.Arithmetic

/-!
# Decimal numbers

A decimal number is a whole number of powers of ten. Its nearest double is the exact value rounded
once.
-/

set_option autoImplicit false

namespace Polyline

/-- The number `digits * 10 ^ exponent`, negated if `negative`. -/
structure Decimal where
  negative : Bool
  digits : Nat
  exponent : Int
  deriving DecidableEq

namespace Decimal

/-- Every magnitude of so many powers of ten is past the largest double. -/
def overflowExponent : Int := 310

/-- Every magnitude below so many powers of ten is nearer to zero than to any other double. -/
def underflowExponent : Int := -330

/-- The double nearest to a decimal number. Exponents far out of range are settled first, so that no
power of ten larger than the digits themselves is ever formed for them. -/
def toBinary64 (decimal : Decimal) : Binary64 :=
  if decimal.digits = 0 then Binary64.zero decimal.negative
  else if overflowExponent ≤ decimal.exponent then .infinite decimal.negative
  else if decimal.exponent + (decimal.digits.log2 + 1) ≤ underflowExponent then
    Binary64.zero decimal.negative
  else
    Binary64.ofQuotient decimal.negative
      (decimal.digits * Nat.pow 10 decimal.exponent.toNat * Binary64.grainsPerUnit)
      (Nat.pow 10 (-decimal.exponent).toNat)

end Decimal

end Polyline
