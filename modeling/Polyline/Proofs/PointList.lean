import Polyline.PointList
import Polyline.Proofs.Grid
import Polyline.Proofs.Transport

/-! Lists of points on the way to bytes and back. A decoded list is on the grid, and lists on the
grid are encoded by the differences of their grid points alone. -/

set_option autoImplicit false

namespace Polyline

open SampleFormat

theorem GridPoint.ofPoint_toPoint {point : Type} [LonLat point] (precision : Precision)
    (source : GridPoint) :
    ofPoint precision.encodeFactor (toPoint precision.decodeFactor source : point) = source := by
  rw [ofPoint, toPoint, LonLat.lat_ofLonLat, LonLat.lon_ofLonLat, quantize_restore,
    quantize_restore]

namespace PointList

theorem decode_eq_map (format : SampleFormat) (precision : Precision) (bytes : Bytes) :
    decode format precision bytes =
      (Shape.decodeInto format precision.decodeFactor (format.trim bytes) :
        Except MalformedStream (Array Point)).map PointSequence.toList := rfl

theorem decode_eq_ok_iff {format : SampleFormat} {precision : Precision} {bytes : Bytes}
    {points : List Point} :
    decode format precision bytes = .ok points ↔
      (format.remnant (format.trim bytes) = [] ∧
        (format.samples (format.trim bytes)).length % 2 = 0) ∧
      points = (GridPoint.trace .origin ((format.samples (format.trim bytes)).map format.delta)).map
        (GridPoint.toPoint precision.decodeFactor) := by
  rw [decode_eq_map, Shape.map_toList_decodeInto]
  split
  next whole =>
    constructor
    · intro equal
      exact ⟨whole, (Except.ok.inj equal).symm⟩
    · rintro ⟨_, rfl⟩
      rfl
  next broken =>
    constructor
    · intro equal
      cases equal
    · rintro ⟨whole, _⟩
      exact absurd whole broken

theorem trim_encode (format : SampleFormat) (precision : Precision) (points : List Point) :
    format.trim (encode format precision points) = encode format precision points := by
  rw [encode, Shape.encode, GridPoint.encodeGrid_eq_flatMap, trim_flatMap_encode]

/-- Encoding and decoding puts every point on the grid. -/
theorem decode_encode (format : SampleFormat) (precision : Precision) (points : List Point) :
    decode format precision (encode format precision points) =
      .ok (points.map fun point =>
        GridPoint.toPoint precision.decodeFactor
          (GridPoint.ofPoint precision.encodeFactor point)) := by
  rw [decode_eq_map, trim_encode, encode, Shape.encode, Shape.map_toList_decodeInto_encodeGrid,
    List.map_map]
  rfl

theorem encode_map_toPoint (format : SampleFormat) (precision : Precision)
    (grid : List GridPoint) :
    encode format precision (grid.map (GridPoint.toPoint precision.decodeFactor)) =
      (GridPoint.steps .origin grid).flatMap format.encode := by
  have gridded : (grid.map (GridPoint.toPoint precision.decodeFactor : GridPoint → Point)).map
      (GridPoint.ofPoint precision.encodeFactor) = grid := by
    rw [List.map_map]
    exact List.map_id'' (GridPoint.ofPoint_toPoint precision) grid
  rw [encode, Shape.encode, gridded, GridPoint.encodeGrid_eq_flatMap]

/-- What was decoded is encoded by the differences it was decoded from. -/
theorem encode_of_decode_eq_ok {format : SampleFormat} {precision : Precision} {bytes : Bytes}
    {points : List Point} (decoded : decode format precision bytes = .ok points) :
    encode format precision points =
      ((format.samples (format.trim bytes)).map format.delta).flatMap format.encode := by
  obtain ⟨⟨_, even⟩, rfl⟩ := decode_eq_ok_iff.1 decoded
  rw [encode_map_toPoint, GridPoint.steps_trace]
  rwa [List.length_map]

end PointList

end Polyline
