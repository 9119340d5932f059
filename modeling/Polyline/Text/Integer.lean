/-!
# Whole numbers as text
-/

set_option autoImplicit false

namespace Polyline.Text

def natural (number : Nat) : List Char := Nat.toDigits 10 number

def integer (number : Int) : List Char :=
  (if number < 0 then ['-'] else []) ++ natural number.natAbs

end Polyline.Text
