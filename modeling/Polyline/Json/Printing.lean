import Polyline.Decimal.Text
import Polyline.Json.Basic
import Polyline.Text.Integer

/-!
# Printing JSON

One printer for all layouts: a layout says which blanks stand in front of items and behind names.
-/

set_option autoImplicit false

namespace Polyline.Json

structure Layout where
  /-- What stands in front of an item, and of the bracket behind the last one, so many levels
  deep. -/
  gap : Nat → List Char
  afterColon : List Char

def compact : Layout := ⟨fun _ => [], []⟩

/-- Each item on a line of its own, two blanks further in than what is around it. -/
def pretty : Layout := ⟨fun depth => '\n' :: List.replicate (2 * depth) ' ', [' ']⟩

/-- Numbers are spelled with an exponent from `1e16` on and below `1e-5`. Without one they always
have a fraction. -/
def numberStyle : Decimal.Style :=
  ⟨fun exponent => -5 ≤ exponent && exponent ≤ 15, ['.', '0'], .even⟩

def realText : Binary64 → List Char
  | .finite number => number.text numberStyle
  | .infinite _ | .nan => ['n', 'u', 'l', 'l']

/-- A character of a string. Quotes, backslashes and control characters are escaped. -/
def escape (char : Char) : List Char :=
  if char = '"' then ['\\', '"']
  else if char = '\\' then ['\\', '\\']
  else if char = '\x08' then ['\\', 'b']
  else if char = '\x0c' then ['\\', 'f']
  else if char = '\n' then ['\\', 'n']
  else if char = '\r' then ['\\', 'r']
  else if char = '\t' then ['\\', 't']
  else if char < ' ' then
    ['\\', 'u', '0', '0', Nat.digitChar (char.toNat / 16), Nat.digitChar (char.toNat % 16)]
  else [char]

def stringText (value : String) : List Char := '"' :: value.toList.flatMap escape ++ ['"']

mutual

def chars (layout : Layout) (depth : Nat) : Json → List Char
  | .null => ['n', 'u', 'l', 'l']
  | .bool true => ['t', 'r', 'u', 'e']
  | .bool false => ['f', 'a', 'l', 's', 'e']
  | .integer value => Text.integer value
  | .real value => realText value
  | .string value => stringText value
  | .array [] => ['[', ']']
  | .array (first :: rest) =>
    '[' :: layout.gap (depth + 1) ++ chars layout (depth + 1) first ++
      restItems layout (depth + 1) rest ++ layout.gap depth ++ [']']
  | .object [] => ['{', '}']
  | .object ((name, first) :: rest) =>
    '{' :: layout.gap (depth + 1) ++ stringText name ++ ':' :: layout.afterColon ++
      chars layout (depth + 1) first ++ restMembers layout (depth + 1) rest ++
      layout.gap depth ++ ['}']

def restItems (layout : Layout) (depth : Nat) : List Json → List Char
  | [] => []
  | next :: rest =>
    ',' :: layout.gap depth ++ chars layout depth next ++ restItems layout depth rest

def restMembers (layout : Layout) (depth : Nat) : List (String × Json) → List Char
  | [] => []
  | (name, next) :: rest =>
    ',' :: layout.gap depth ++ stringText name ++ ':' :: layout.afterColon ++
      chars layout depth next ++ restMembers layout depth rest

end

def print (layout : Layout) (value : Json) : String := String.ofList (chars layout 0 value)

end Polyline.Json
