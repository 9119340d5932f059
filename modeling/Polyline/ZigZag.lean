/-!
# Zig-zag numbering

Signed numbers numbered `0, -1, 1, -2, 2, …`, so that numbers of small magnitude get small codes.
-/

set_option autoImplicit false

namespace Polyline.ZigZag

/-- The code of a number: twice the number, with all bits flipped below zero. -/
def encode (number : Int32) : UInt32 :=
  if number < 0 then ~~~(number.toUInt32 <<< 1) else number.toUInt32 <<< 1

/-- The number of a code: half the code, with all bits flipped for an odd code. -/
def decode (code : UInt32) : Int32 := ((code >>> 1) ^^^ (0 - (code &&& 1))).toInt32

end Polyline.ZigZag
