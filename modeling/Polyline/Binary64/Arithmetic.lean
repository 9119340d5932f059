import Polyline.Binary64.Rounding

/-!
# Arithmetic and comparison

Each operation is the exact result rounded once. Undefined results are NaN, and a NaN operand
makes the result NaN.
-/

set_option autoImplicit false

namespace Polyline.Binary64

/-- The double nearest to a whole number of grains. Zero comes out positive. -/
def ofGrains (grains : Int) : Binary64 := ofQuotient (decide (grains < 0)) grains.natAbs 1

def neg : Binary64 → Binary64
  | .nan => .nan
  | .infinite negative => .infinite (!negative)
  | .finite number => .finite { number with negative := !number.negative }

/-- The sum of opposite numbers is positive zero; the sum of two negative zeros stays negative. -/
def add : Binary64 → Binary64 → Binary64
  | .nan, _ | _, .nan => .nan
  | .infinite left, .infinite right => if left = right then .infinite left else .nan
  | .infinite left, .finite _ => .infinite left
  | .finite _, .infinite right => .infinite right
  | .finite left, .finite right =>
    if left.negative && right.negative then ofQuotient true (left.grains + right.grains) 1
    else ofGrains (left.toInt + right.toInt)

def sub (left right : Binary64) : Binary64 := left.add right.neg

def mul : Binary64 → Binary64 → Binary64
  | .nan, _ | _, .nan => .nan
  | .infinite left, .infinite right => .infinite (left != right)
  | .infinite left, .finite right =>
    if right.grains = 0 then .nan else .infinite (left != right.negative)
  | .finite left, .infinite right =>
    if left.grains = 0 then .nan else .infinite (left.negative != right)
  | .finite left, .finite right =>
    ofQuotient (left.negative != right.negative) (left.grains * right.grains) grainsPerUnit

def div : Binary64 → Binary64 → Binary64
  | .nan, _ | _, .nan => .nan
  | .infinite _, .infinite _ => .nan
  | .infinite left, .finite right => .infinite (left != right.negative)
  | .finite left, .infinite right => zero (left.negative != right)
  | .finite left, .finite right =>
    if right.grains = 0 then
      if left.grains = 0 then .nan else .infinite (left.negative != right.negative)
    else ofQuotient (left.negative != right.negative) (left.grains * grainsPerUnit) right.grains

instance : Neg Binary64 := ⟨neg⟩
instance : Add Binary64 := ⟨add⟩
instance : Sub Binary64 := ⟨sub⟩
instance : Mul Binary64 := ⟨mul⟩
instance : Div Binary64 := ⟨div⟩

def abs : Binary64 → Binary64
  | .nan => .nan
  | .infinite _ => .infinite false
  | .finite number => .finite { number with negative := false }

/-- Numeric order. Zeros of both signs are equal, and NaN is in no order with anything. -/
def compare? : Binary64 → Binary64 → Option Ordering
  | .nan, _ | _, .nan => none
  | .infinite left, .infinite right =>
    some (if left = right then .eq else if left then .lt else .gt)
  | .infinite left, .finite _ => some (if left then .lt else .gt)
  | .finite _, .infinite right => some (if right then .gt else .lt)
  | .finite left, .finite right => some (compare left.toInt right.toInt)

/-- At most; false as soon as one side is NaN. -/
def atMost (left right : Binary64) : Bool :=
  match left.compare? right with
  | some .lt | some .eq => true
  | some .gt | none => false

/-- Equal as numbers, which differs from identity on zeros and on NaN. -/
def numEq (left right : Binary64) : Bool := left.compare? right == some .eq

end Polyline.Binary64
