/-!
# Words that do not wrap around

Two operations on 32-bit words as a bounded reader needs them: shifting by any distance, and a sum
that stays at the largest word.
-/

set_option autoImplicit false

namespace Polyline.Word

/-- The word moved up by a number of bits, with nothing left of it from thirty-two bits on. -/
def shiftUp (word distance : UInt32) : UInt32 := if distance < 32 then word <<< distance else 0

/-- The sum of two words, or the largest word where the sum is larger still. -/
def addSaturating (left right : UInt32) : UInt32 :=
  if left ≤ 0xffffffff - right then left + right else 0xffffffff

end Polyline.Word
