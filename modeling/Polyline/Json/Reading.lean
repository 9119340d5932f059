import Polyline.Json.Token

/-!
# Reading JSON

The reader takes one token at a time and keeps a stack of the arrays and objects that are open. A
text is one value, and at most `maxDepth` arrays and objects may be open at a time.
-/

set_option autoImplicit false

namespace Polyline.Json

inductive Frame where
  | array (items : List Json)
  | object (members : List (String × Json)) (name : String)

inductive Expectation where
  | value (stack : List Frame)
  | firstItem (stack : List Frame)
  | afterItem (items : List Json) (stack : List Frame)
  | firstMember (stack : List Frame)
  | name (members : List (String × Json)) (stack : List Frame)
  | colon (members : List (String × Json)) (name : String) (stack : List Frame)
  | afterMember (members : List (String × Json)) (stack : List Frame)
  | nothing (read : Json)

/-- The most arrays and objects that may be open at a time. -/
def maxDepth : Nat := 127

namespace Expectation

def after (read : Json) : List Frame → Expectation
  | [] => .nothing read
  | .array items :: stack => .afterItem (read :: items) stack
  | .object members key :: stack => .afterMember ((key, read) :: members) stack

def begin? (stack : List Frame) : Token → Option Expectation
  | .scalar read => some (after read stack)
  | .openArray => if stack.length < maxDepth then some (.firstItem stack) else none
  | .openObject => if stack.length < maxDepth then some (.firstMember stack) else none
  | _ => none

def step? : Expectation → Token → Option Expectation
  | .value stack, token => begin? stack token
  | .firstItem stack, .closeArray => some (after (.array []) stack)
  | .firstItem stack, token => begin? (.array [] :: stack) token
  | .afterItem items stack, .comma => some (.value (.array items :: stack))
  | .afterItem items stack, .closeArray => some (after (.array items.reverse) stack)
  | .firstMember stack, .closeObject => some (after (.object []) stack)
  | .firstMember stack, .scalar (.string key) => some (.colon [] key stack)
  | .name members stack, .scalar (.string key) => some (.colon members key stack)
  | .colon members key stack, .colon => some (.value (.object members key :: stack))
  | .afterMember members stack, .comma => some (.name members stack)
  | .afterMember members stack, .closeObject => some (after (.object members.reverse) stack)
  | _, _ => none

def result? : Expectation → Option Json
  | .nothing read => some read
  | _ => none

end Expectation

def read? (text : String) : Option Json := do
  let tokens ← tokens? text.toList
  let final ← tokens.foldlM Expectation.step? (.value [])
  final.result?

end Polyline.Json
