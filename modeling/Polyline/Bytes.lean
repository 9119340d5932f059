/-!
# Byte strings

Encoded data is a list of bytes. Its hexadecimal form has two lowercase digits for each byte.
-/

set_option autoImplicit false

namespace Polyline

abbrev Bytes : Type := List UInt8

namespace Bytes

def hexDigits (byte : UInt8) : List Char :=
  [Nat.digitChar (byte.toNat / 16), Nat.digitChar (byte.toNat % 16)]

def toHex (bytes : Bytes) : String := String.ofList (bytes.flatMap hexDigits)

end Bytes

end Polyline
