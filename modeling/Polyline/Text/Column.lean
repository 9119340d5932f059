/-!
# Columns

Text filled up with blanks to the width of a column. Longer text stays whole.
-/

set_option autoImplicit false

namespace Polyline.Text

def alignRight (width : Nat) (text : List Char) : List Char :=
  List.replicate (width - text.length) ' ' ++ text

def alignLeft (width : Nat) (text : List Char) : List Char :=
  text ++ List.replicate (width - text.length) ' '

end Polyline.Text
