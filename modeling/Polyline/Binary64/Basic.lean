/-!
# Double-precision numbers

The 64-bit binary floating-point numbers as exact values. The smallest positive double is `2^-1074`,
and every finite double is a whole number of these *grains*, so a finite double is a sign and a
natural number of grains. All NaNs are one value, since nothing here tells them apart.
-/

set_option autoImplicit false

namespace Polyline

namespace Binary64

@[irreducible] def grainsPerUnit : Nat := Nat.pow 2 1074

/-- Finite magnitudes stay below this many grains, which is `2^1024`. -/
@[irreducible] def grainLimit : Nat := Nat.pow 2 2098

/-- The distance between neighbouring doubles around a magnitude of so many grains: 53 bits are
kept, and the grid never becomes finer than one grain. -/
def spacing (grains : Nat) : Nat := Nat.pow 2 (grains.log2 - 52)

/-- A magnitude that a double holds exactly. -/
def Representable (grains : Nat) : Prop := spacing grains ∣ grains ∧ grains < grainLimit

instance (grains : Nat) : Decidable (Representable grains) :=
  inferInstanceAs (Decidable (_ ∧ _))

/-- A finite double. Zero carries a sign as well. -/
structure Finite where
  negative : Bool
  grains : Nat
  representable : Representable grains
  deriving DecidableEq

def Finite.toInt (number : Finite) : Int :=
  if number.negative then -(number.grains : Int) else number.grains

theorem grainLimit_pos : 0 < grainLimit := by decide +kernel

theorem representable_zero : Representable 0 :=
  ⟨Nat.dvd_zero _, grainLimit_pos⟩

end Binary64

inductive Binary64 where
  | nan
  | infinite (negative : Bool)
  | finite (number : Binary64.Finite)
  deriving DecidableEq

namespace Binary64

def zero (negative : Bool) : Binary64 := .finite ⟨negative, 0, representable_zero⟩

instance : Inhabited Binary64 := ⟨zero false⟩

def isFinite : Binary64 → Bool
  | .finite _ => true
  | .infinite _ | .nan => false

end Binary64

end Polyline
