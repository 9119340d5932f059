import Polyline.PointList
import Polyline.Proofs.Json.Printed

/-! Printed lists of points read again. Coordinates come back as the numbers they are, except that
those that are no number come back as null. -/

set_option autoImplicit false

namespace Polyline

open Json Json.Scanner

namespace Point

/-- What a printed point is for a reader. -/
def readJson (point : Point) : Json :=
  .object [("lon", realRead point.lon), ("lat", realRead point.lat)]

theorem reread_toJson (point : Point) : point.toJson.reread = point.readJson := by
  simp [toJson, readJson, reread]

theorem depth_toJson (point : Point) : point.toJson.depth = 1 := by
  simp [toJson, depth]

theorem isInRange_toJson (point : Point) : point.toJson.IsInRange := by
  refine .object ?_
  intro member inside
  simp only [List.mem_cons, List.not_mem_nil, or_false] at inside
  rcases inside with rfl | rfl <;> exact .real

end Point

namespace PointList

variable {layout : Layout}

theorem reread_toJson (points : List Point) :
    (toJson points).reread = .array (points.map Point.readJson) := by
  rw [toJson, reread, List.map_map]
  exact congrArg Json.array (List.map_congr_left fun point _ => point.reread_toJson)

/-- A list of points is open while one of them is, and nothing inside a point is. -/
theorem depth_toJson_le (points : List Point) : (toJson points).depth ≤ maxDepth := by
  have shallow : (toJson points).depth ≤ 2 :=
    depth_array_le (List.forall_mem_map.2 fun point _ => point.depth_toJson.le)
  exact shallow.trans (by decide)

/-- In whatever layout points are printed, a reader finds one item for each of them, in order. -/
theorem read?_chars_toJson (blank : layout.IsBlank) (points : List Point) {trailing : List Char}
    (blanks : ∀ char ∈ trailing, isBlank char = true) :
    Json.read? (String.ofList (chars layout 0 (toJson points) ++ trailing)) =
      some (.array (points.map Point.readJson)) := by
  have inRange : (toJson points).IsInRange :=
    .array (List.forall_mem_map.2 fun point _ => point.isInRange_toJson)
  rw [read?_chars blank inRange (depth_toJson_le points) blanks, reread_toJson]

end PointList

/-! ## Finite coordinates -/

namespace Point

def IsFinite (point : Point) : Prop := point.lon.isFinite = true ∧ point.lat.isFinite = true

theorem readJson_of_isFinite {point : Point} (finite : point.IsFinite) :
    point.readJson = point.toJson := by
  rw [readJson, realRead_of_isFinite finite.1, realRead_of_isFinite finite.2, toJson]

theorem ofJson?_toJson (point : Point) : ofJson? point.toJson = some point := rfl

end Point

namespace PointList

theorem map_readJson_of_isFinite {points : List Point}
    (finite : ∀ point ∈ points, point.IsFinite) :
    Json.array (points.map Point.readJson) = toJson points :=
  congrArg Json.array
    (List.map_congr_left fun point member => Point.readJson_of_isFinite (finite point member))

theorem ofJson?_toJson (points : List Point) : ofJson? (toJson points) = some points := by
  change (points.map Point.toJson).mapM Point.ofJson? = some points
  induction points with
  | nil => rfl
  | cons first points ih => simp [List.mapM_cons, Point.ofJson?_toJson, ih]

end PointList

end Polyline
