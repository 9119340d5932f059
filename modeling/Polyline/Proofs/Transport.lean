import Polyline.Proofs.Shape.Decoding

/-! Encoding and decoding again restores every sample. No two points are too far apart for that,
since differences wrap around, and no point depends on the coordinates of another one. -/

set_option autoImplicit false

namespace Polyline

open SampleFormat

theorem Shape.map_toList_decodeInto_encodeGrid {point sequence : Type} [OfLonLat point]
    [PointSequence sequence point] (format : SampleFormat) (precision : Binary64)
    (grid : List GridPoint) :
    (decodeInto format precision (encodeGrid format .origin grid) :
        Except MalformedStream sequence).map PointSequence.toList =
      .ok (grid.map (GridPoint.toPoint precision)) := by
  rw [map_toList_decodeInto, GridPoint.encodeGrid_eq_flatMap, remnant_flatMap_encode,
    samples_flatMap_encode, map_delta_map_encode, GridPoint.trace_steps, List.length_map,
    GridPoint.length_steps, Nat.mul_mod_right]
  exact if_pos ⟨rfl, rfl⟩

theorem Series.decodeSamples_encodeSamples (format : SampleFormat) (samples : List Int32) :
    decodeSamples format 0 (.start (encodeSamples format 0 samples)) = .ok samples := by
  rw [decodeSamples_start, encodeSamples_eq_flatMap, remnant_flatMap_encode,
    samples_flatMap_encode, map_delta_map_encode, trace_steps]
  exact if_pos rfl

theorem exists_decodeInto_encode_eq_ok {source target sequence : Type} [LonLat source]
    [OfLonLat target] [PointSequence sequence target] (format : SampleFormat) (factor : Int32)
    (precision : Binary64) (points : List source) (values : List Binary64) :
    (∃ decoded : sequence,
      Shape.decodeInto format precision (Shape.encode format factor points) = .ok decoded ∧
        PointSequence.toList decoded =
          points.map fun point =>
            OfLonLat.ofLonLat
              (Binary64.ofInt32 (quantize factor (LonLat.lon point)) * precision)
              (Binary64.ofInt32 (quantize factor (LonLat.lat point)) * precision)) ∧
      Series.decode format precision (Series.encode format factor values) =
        .ok (values.map fun value => Binary64.ofInt32 (quantize factor value) * precision) := by
  constructor
  · have restored :
        (Shape.decodeInto format precision (Shape.encode format factor points) :
          Except MalformedStream sequence).map PointSequence.toList =
          .ok ((points.map (GridPoint.ofPoint factor)).map (GridPoint.toPoint precision)) :=
      Shape.map_toList_decodeInto_encodeGrid format precision _
    rw [List.map_map] at restored
    cases outcome :
        (Shape.decodeInto format precision (Shape.encode format factor points) :
          Except MalformedStream sequence) with
    | error error =>
      rw [outcome] at restored
      cases restored
    | ok decoded =>
      rw [outcome] at restored
      exact ⟨decoded, rfl, Except.ok.inj restored⟩
  · rw [Series.decode, Series.encode, Series.decodeSamples_encodeSamples, Except.map, List.map_map]
    rfl

end Polyline
