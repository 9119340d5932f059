import Polyline.Binary64.Conversion

/-!
# Precision

How many decimal places of a coordinate are kept. Encoding multiplies by a power of ten, and
decoding by the double nearest to its reciprocal.
-/

set_option autoImplicit false

namespace Polyline

/-- A number of decimal places whose power of ten is a 32-bit integer. -/
structure Precision where
  digits : Nat
  digits_le : digits ≤ 9
  deriving DecidableEq

namespace Precision

def maxDigits : Nat := 9

def ofDigits? (digits : Nat) : Option Precision :=
  if inRange : digits ≤ maxDigits then some ⟨digits, inRange⟩ else none

/-- Six places, the precision that is used where none is asked for. -/
def standard : Precision := ⟨6, by decide⟩

/-- Five places, the precision of classic polylines. -/
def polyline5 : Precision := ⟨5, by decide⟩

def high : Precision := ⟨7, by decide⟩

instance : Inhabited Precision := ⟨standard⟩

/-- What a coordinate is multiplied by before it is rounded to a sample. -/
def encodeFactor (precision : Precision) : Int32 := .ofNat (Nat.pow 10 precision.digits)

/-- What a sample is multiplied by to give a coordinate. -/
def decodeFactor (precision : Precision) : Binary64 :=
  .ofInt 1 / .ofInt32 precision.encodeFactor

end Precision

end Polyline
