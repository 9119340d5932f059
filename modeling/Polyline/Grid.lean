import Polyline.Point

/-!
# Grid points

Encoding rounds coordinates to a grid and works on whole grid steps, the *samples*, from then on. A
grid point has its latitude first, as encoded data has.
-/

set_option autoImplicit false

namespace Polyline

/-- The sample of a coordinate: the nearest whole number to its product with the factor. -/
def quantize (factor : Int32) (coordinate : Binary64) : Int32 :=
  (coordinate * Binary64.ofInt32 factor).toInt32

def restore (precision : Binary64) (sample : Int32) : Binary64 :=
  Binary64.ofInt32 sample * precision

inductive Axis where
  | lat
  | lon
  deriving DecidableEq, Repr

namespace Axis

def other : Axis → Axis
  | .lat => .lon
  | .lon => .lat

end Axis

structure GridPoint where
  lat : Int32
  lon : Int32
  deriving DecidableEq

namespace GridPoint

def origin : GridPoint := ⟨0, 0⟩

def ofPoint {point : Type} [LonLat point] (factor : Int32) (source : point) : GridPoint :=
  ⟨quantize factor (LonLat.lat source), quantize factor (LonLat.lon source)⟩

def toPoint {point : Type} [OfLonLat point] (precision : Binary64) (source : GridPoint) : point :=
  OfLonLat.ofLonLat (restore precision source.lon) (restore precision source.lat)

def get (source : GridPoint) : Axis → Int32
  | .lat => source.lat
  | .lon => source.lon

def set (source : GridPoint) (value : Int32) : Axis → GridPoint
  | .lat => { source with lat := value }
  | .lon => { source with lon := value }

end GridPoint

end Polyline
