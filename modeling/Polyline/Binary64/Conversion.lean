import Polyline.Binary64.Arithmetic

/-!
# Conversions

Between doubles and their 64-bit patterns, and between doubles and whole numbers.
-/

set_option autoImplicit false

namespace Polyline.Binary64

/-! ## Bit patterns -/

/-- The magnitude bits of a finite double: exponent field and fraction field side by side. Counting
in the spacing around it, a normal number has its leading bit at `2^52`, which adds one to the
exponent field; a subnormal number has not. -/
def Finite.magnitudeBits (number : Finite) : Nat :=
  (number.grains.log2 - 52) * 0x10000000000000 + number.grains / spacing number.grains

/-- The 64-bit pattern of a double. NaN has the pattern of the quiet NaN without payload. -/
def toBits : Binary64 → UInt64
  | .nan => 0x7ff8000000000000
  | .infinite negative => if negative then 0xfff0000000000000 else 0x7ff0000000000000
  | .finite number =>
    .ofNat ((if number.negative then 0x8000000000000000 else 0) + number.magnitudeBits)

def ofBits (bits : UInt64) : Binary64 :=
  let negative := decide (0x8000000000000000 ≤ bits.toNat)
  let exponent := bits.toNat / 0x10000000000000 % 2048
  let fraction := bits.toNat % 0x10000000000000
  if exponent = 2047 then if fraction = 0 then .infinite negative else .nan
  else if exponent = 0 then ofQuotient negative fraction 1
  else ofQuotient negative ((0x10000000000000 + fraction) * Nat.pow 2 (exponent - 1)) 1

/-! ## Whole numbers -/

def ofInt (number : Int) : Binary64 := ofGrains (number * grainsPerUnit)

/-- Every 32-bit integer is a double. -/
def ofInt32 (number : Int32) : Binary64 := ofInt number.toInt

/-- The whole number nearest to a finite double; a half goes away from zero. -/
def Finite.nearestInt (number : Finite) : Int :=
  let magnitude := (2 * number.grains + grainsPerUnit) / (2 * grainsPerUnit)
  if number.negative then -(magnitude : Int) else magnitude

def clampInt32 (number : Int) : Int32 :=
  .ofInt (max Int32.minValue.toInt (min Int32.maxValue.toInt number))

/-- The 32-bit integer nearest to a double; a half goes away from zero, what is out of range goes
to the end of the range, and NaN to zero. -/
def toInt32 : Binary64 → Int32
  | .nan => 0
  | .infinite negative => if negative then Int32.minValue else Int32.maxValue
  | .finite number => clampInt32 number.nearestInt

end Polyline.Binary64
