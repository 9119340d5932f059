import Polyline.Binary64.Conversion

/-!
# JSON values

Numbers come in two kinds, which are spelled differently: whole numbers without fraction and
exponent, and doubles.
-/

set_option autoImplicit false

namespace Polyline

inductive Json where
  | null
  | bool (value : Bool)
  | integer (value : Int)
  | real (value : Binary64)
  | string (value : String)
  | array (items : List Json)
  /-- Members are kept in the order in which they are written, repeated names included. -/
  | object (members : List (String × Json))

namespace Json

def toBinary64? : Json → Option Binary64
  | .integer value => some (.ofInt value)
  | .real value => some value
  | _ => none

end Json

end Polyline
