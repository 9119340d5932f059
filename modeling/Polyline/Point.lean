import Polyline.Binary64.Conversion

/-!
# Points

A point is a longitude and a latitude in degrees, in that order.
-/

set_option autoImplicit false

namespace Polyline

structure Point where
  lon : Binary64
  lat : Binary64
  deriving DecidableEq, Inhabited

/-- Types whose values can be made from a longitude and a latitude. -/
class OfLonLat (point : Type) where
  ofLonLat : Binary64 → Binary64 → point

class LonLat (point : Type) extends OfLonLat point where
  lon : point → Binary64
  lat : point → Binary64
  lon_ofLonLat : ∀ x y, lon (ofLonLat x y) = x
  lat_ofLonLat : ∀ x y, lat (ofLonLat x y) = y

instance : LonLat Point where
  lon := Point.lon
  lat := Point.lat
  ofLonLat := Point.mk
  lon_ofLonLat _ _ := rfl
  lat_ofLonLat _ _ := rfl

instance : LonLat (Binary64 × Binary64) where
  lon := Prod.fst
  lat := Prod.snd
  ofLonLat := Prod.mk
  lon_ofLonLat _ _ := rfl
  lat_ofLonLat _ _ := rfl

instance : LonLat (Vector Binary64 2) where
  lon point := point[0]
  lat point := point[1]
  ofLonLat lon lat := #v[lon, lat]
  lon_ofLonLat _ _ := rfl
  lat_ofLonLat _ _ := rfl

namespace Point

def numEq (left right : Point) : Bool := left.lon.numEq right.lon && left.lat.numEq right.lat

def isNear (tolerance : Binary64) (left right : Point) : Bool :=
  (left.lon - right.lon).abs.atMost tolerance && (left.lat - right.lat).abs.atMost tolerance

end Point

/-- Types of sequences that grow at the end. Reserving space for more points changes none of those
held. -/
class PointSequence (sequence : Type) (point : outParam Type) where
  empty : sequence
  push : sequence → point → sequence
  reserve : sequence → Nat → sequence := fun points _ => points
  toList : sequence → List point
  toList_empty : toList empty = []
  toList_push : ∀ points last, toList (push points last) = toList points ++ [last]
  toList_reserve : ∀ points count, toList (reserve points count) = toList points := by
    exact fun _ _ => rfl

instance (point : Type) : PointSequence (List point) point where
  empty := []
  push points last := points ++ [last]
  toList := id
  toList_empty := rfl
  toList_push _ _ := rfl

instance (point : Type) : PointSequence (Array point) point where
  empty := #[]
  push := Array.push
  toList := Array.toList
  toList_empty := rfl
  toList_push _ _ := Array.toList_push

end Polyline
