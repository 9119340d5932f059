import Polyline.Grid
import Polyline.Sample.Format

/-!
# Encoding shapes

A shape is a sequence of points. Each point is written as the differences of its samples from those
of the point before it, latitude first. Differences wrap around, so no jump is too large.
-/

set_option autoImplicit false

namespace Polyline.Shape

def encodeGrid (format : SampleFormat) (last : GridPoint) : List GridPoint → Bytes
  | [] => []
  | next :: rest =>
    format.encode (next.lat - last.lat) ++ format.encode (next.lon - last.lon) ++
      encodeGrid format next rest

/-- The bytes of a shape, whose coordinates are multiplied by the factor and rounded. -/
def encode {point : Type} [LonLat point] (format : SampleFormat) (factor : Int32)
    (points : List point) : Bytes :=
  encodeGrid format .origin (points.map (GridPoint.ofPoint factor))

def encodeText {point : Type} [LonLat point] (factor : Int32) (points : List point) : String :=
  String.ofList ((encode .varint5 factor points).map Char.ofUInt8)

end Polyline.Shape
