import Polyline.Precision
import Polyline.Proofs.Shape.Decoding

/-! The two axes of a shape. Its samples at even places are a series of latitudes, those at odd
places a series of longitudes, and neither series knows of the other one. -/

set_option autoImplicit false

namespace Polyline

open SampleFormat

/-- The items of an axis where the axes take turns, beginning with the latitude. -/
def Axis.pieces {α : Type} : Axis → List α → List α
  | _, [] => []
  | .lat, piece :: rest => piece :: Axis.lon.pieces rest
  | .lon, _ :: rest => Axis.lat.pieces rest

def LonLat.coordinate {point : Type} [LonLat point] (source : point) : Axis → Binary64
  | .lat => LonLat.lat source
  | .lon => LonLat.lon source

theorem Axis.pieces_map {α β : Type} (axis : Axis) (convert : α → β) (items : List α) :
    axis.pieces (items.map convert) = (axis.pieces items).map convert := by
  induction items generalizing axis with
  | nil => cases axis <;> rfl
  | cons item items ih => cases axis <;> simp [pieces, ih]

theorem Axis.mem_of_mem_pieces {α : Type} {axis : Axis} {piece : α} {items : List α}
    (member : piece ∈ axis.pieces items) : piece ∈ items := by
  induction items generalizing axis with
  | nil => cases axis <;> exact member
  | cons item items ih =>
    cases axis with
    | lat =>
      rcases List.mem_cons.1 member with rfl | later
      · exact List.mem_cons_self
      · exact List.mem_cons_of_mem item (ih later)
    | lon => exact List.mem_cons_of_mem item (ih member)

namespace GridPoint

theorem get_ofPoint {point : Type} [LonLat point] (factor : Int32) (source : point) (axis : Axis) :
    (ofPoint factor source).get axis = quantize factor (LonLat.coordinate source axis) := by
  cases axis <;> rfl

theorem coordinate_toPoint {point : Type} [LonLat point] (precision : Binary64)
    (source : GridPoint) (axis : Axis) :
    LonLat.coordinate (toPoint precision source : point) axis =
      restore precision (source.get axis) := by
  cases axis with
  | lat => exact LonLat.lat_ofLonLat _ _
  | lon => exact LonLat.lon_ofLonLat _ _

/-- The differences along an axis are those of its own samples. -/
theorem pieces_steps (axis : Axis) (last : GridPoint) (grid : List GridPoint) :
    axis.pieces (steps last grid) = Series.steps (last.get axis) (grid.map (·.get axis)) := by
  induction grid generalizing last with
  | nil => cases axis <;> rfl
  | cons next grid ih =>
    cases axis with
    | lat =>
      have further := ih next
      simpa [steps, Axis.pieces, Series.steps, get] using further
    | lon =>
      have further := ih next
      simpa [steps, Axis.pieces, Series.steps, get] using further

theorem map_get_trace (axis : Axis) (last : GridPoint) {differences : List Int32}
    (even : differences.length % 2 = 0) :
    (trace last differences).map (·.get axis) =
      Series.trace (last.get axis) (axis.pieces differences) := by
  induction last, differences using trace.induct with
  | case1 => cases axis <;> rfl
  | case2 => cases even
  | case3 last lat lon rest ih =>
    have evenRest : rest.length % 2 = 0 := by
      simpa [Nat.add_assoc] using even
    cases axis with
    | lat => simpa [trace, Axis.pieces, Series.trace, get] using ih evenRest
    | lon => simpa [trace, Axis.pieces, Series.trace, get] using ih evenRest

end GridPoint

namespace Shape

variable {source target sequence : Type} [LonLat source] [LonLat target]
  [PointSequence sequence target]

theorem samples_encode (format : SampleFormat) (factor : Int32) (points : List source) :
    format.samples (encode format factor points) =
      (GridPoint.steps .origin (points.map (GridPoint.ofPoint factor))).map format.encode := by
  rw [encode, GridPoint.encodeGrid_eq_flatMap, samples_flatMap_encode]

theorem flatten_samples_encode (format : SampleFormat) (factor : Int32) (points : List source) :
    (format.samples (encode format factor points)).flatten = encode format factor points := by
  rw [samples_encode, ← List.flatMap_def, ← GridPoint.encodeGrid_eq_flatMap, encode]

/-- The samples of an axis are written as the series of its coordinates is. -/
theorem flatten_pieces_samples_encode (format : SampleFormat) (factor : Int32)
    (points : List source) (axis : Axis) :
    (axis.pieces (format.samples (encode format factor points))).flatten =
      Series.encode format factor (points.map (LonLat.coordinate · axis)) := by
  have samples : (points.map (GridPoint.ofPoint factor)).map (·.get axis) =
      (points.map (LonLat.coordinate · axis)).map (quantize factor) := by
    simp [GridPoint.get_ofPoint]
  have start : GridPoint.origin.get axis = 0 := by
    cases axis <;> rfl
  rw [samples_encode, Axis.pieces_map, GridPoint.pieces_steps, samples, start, Series.encode,
    Series.encodeSamples_eq_flatMap, List.flatMap_def]

theorem decode_pieces_samples {format : SampleFormat} {precision : Binary64} {bytes : Bytes}
    {decoded : sequence} (accepted : decodeInto format precision bytes = .ok decoded)
    (axis : Axis) :
    Series.decode format precision (axis.pieces (format.samples bytes)).flatten =
      .ok ((PointSequence.toList decoded).map (LonLat.coordinate · axis)) := by
  obtain ⟨intact, points⟩ := decodeInto_eq_ok accepted
  obtain ⟨_, even⟩ := failure?_eq_none_iff.1 intact
  have complete : ∀ piece ∈ axis.pieces (format.samples bytes), format.IsSample piece :=
    fun piece member => isSample_of_mem_samples format bytes piece (Axis.mem_of_mem_pieces member)
  have pairs : ((format.samples bytes).map format.delta).length % 2 = 0 := by
    rwa [List.length_map]
  have traced : (grid format bytes).map (·.get axis) =
      Series.trace 0 ((axis.pieces (format.samples bytes)).map format.delta) := by
    rw [grid, GridPoint.map_get_trace axis .origin pairs, Axis.pieces_map]
    cases axis <;> rfl
  have restored : (PointSequence.toList decoded).map (LonLat.coordinate · axis) =
      ((grid format bytes).map (·.get axis)).map (restore precision) := by
    simp [points, GridPoint.coordinate_toPoint]
  rw [Series.decode, Series.decodeSamples_start, samples_flatten complete,
    remnant_flatten complete, if_pos rfl, restored, traced]
  rfl

/-- Splitting what is written for points gives two samples for each of them, and those of an axis
make up the series of its coordinates alone. A buffer that decodes splits in the same way into two
series that decode to the coordinates of its points. So whatever is done to one axis, the bytes and
the coordinates of the other one stay as they are. -/
theorem axes_are_series (format : SampleFormat) (axis : Axis) :
    (∀ (factor : Int32) (points : List source),
      let samples := format.samples (encode format factor points)
      samples.length = 2 * points.length ∧
      samples.flatten = encode format factor points ∧
      (axis.pieces samples).flatten =
        Series.encode format factor (points.map (LonLat.coordinate · axis))) ∧
    (∀ (precision : Binary64) (bytes : Bytes) (decoded : sequence),
      decodeInto format precision bytes = .ok decoded →
        Series.decode format precision (axis.pieces (format.samples bytes)).flatten =
          .ok ((PointSequence.toList decoded).map (LonLat.coordinate · axis))) ∧
    (∀ (factor : Int32) (points others : List source),
      points.map (LonLat.coordinate · axis) = others.map (LonLat.coordinate · axis) →
        axis.pieces (format.samples (encode format factor points)) =
          axis.pieces (format.samples (encode format factor others))) ∧
    ∀ (precision : Binary64) (bytes others : Bytes) (decoded further : sequence),
      decodeInto format precision bytes = .ok decoded →
      decodeInto format precision others = .ok further →
      axis.pieces (format.samples bytes) = axis.pieces (format.samples others) →
        (PointSequence.toList decoded).map (LonLat.coordinate · axis) =
          (PointSequence.toList further).map (LonLat.coordinate · axis) := by
  refine ⟨?_, ?_, ?_, ?_⟩
  · intro factor points samples
    refine ⟨?_, flatten_samples_encode format factor points,
      flatten_pieces_samples_encode format factor points axis⟩
    simp [samples, samples_encode]
  · intro precision bytes decoded accepted
    exact decode_pieces_samples accepted axis
  · intro factor points others same
    have complete : ∀ (list : List source),
        ∀ piece ∈ axis.pieces (format.samples (encode format factor list)), format.IsSample piece :=
      fun list piece member =>
        isSample_of_mem_samples format _ piece (Axis.mem_of_mem_pieces member)
    -- Bytes that are the same split into the same samples.
    rw [← samples_flatten (complete points), ← samples_flatten (complete others),
      flatten_pieces_samples_encode, flatten_pieces_samples_encode, same]
  · intro precision bytes others decoded further accepted furtherAccepted same
    have first := decode_pieces_samples accepted axis
    have second := decode_pieces_samples furtherAccepted axis
    rw [same, second] at first
    exact (Except.ok.inj first).symm

/-- The same latitude with two longitudes, one of them written with a group more than it needs. -/
theorem axes_are_series_overlong :
    let precision := Precision.polyline5.decodeFactor
    let near : Point := ⟨.ofInt32 7, .ofInt32 3⟩
    let far : Point := ⟨.ofInt32 9, .ofInt32 3⟩
    (∃ decoded further : List Point,
      decodeInto .varint5 precision [65, 67] = .ok decoded ∧
      decodeInto .varint5 precision [65, 95, 63] = .ok further ∧
      Series.decode .varint5 precision [65] = .ok (decoded.map Point.lat) ∧
      decoded.map Point.lat = further.map Point.lat) ∧
    Axis.lat.pieces (samples .varint5 (encode .varint5 100000 [near])) =
      Axis.lat.pieces (samples .varint5 (encode .varint5 100000 [far])) := by
  intro precision near far
  obtain ⟨_, decodes, writesAxis, decodesAxis⟩ :=
    @axes_are_series Point Point (List Point) _ _ _ .varint5 .lat
  obtain ⟨decoded, accepted, _⟩ : ∃ decoded : List Point,
      decodeInto .varint5 precision [65, 67] = .ok decoded ∧ _ :=
    exists_decodeInto_eq_ok (by decide) precision
  obtain ⟨further, furtherAccepted, _⟩ : ∃ further : List Point,
      decodeInto .varint5 precision [65, 95, 63] = .ok further ∧ _ :=
    exists_decodeInto_eq_ok (by decide) precision
  refine ⟨⟨decoded, further, accepted, furtherAccepted, ?_, ?_⟩, ?_⟩
  · exact decodes precision [65, 67] decoded accepted
  · exact decodesAxis precision [65, 67] [65, 95, 63] decoded further accepted furtherAccepted
      (by decide)
  · exact writesAxis 100000 [near] [far] rfl

end Shape

end Polyline
