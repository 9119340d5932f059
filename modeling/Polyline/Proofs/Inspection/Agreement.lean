import Polyline.PointList
import Polyline.Proofs.Inspection.Entries
import Polyline.Proofs.Shape.Routes

/-! Inspecting a buffer and decoding it agree on the points, and on what is wrong with the buffer,
though an inspection keeps count of the axes by itself and learns only from the number of samples
that a longitude is missing. -/

set_option autoImplicit false

namespace Polyline

namespace Inspection

/-- The entries of two samples are the coordinates of a point, latitude first. -/
theorem take_listing_lat (format : SampleFormat) (scale : Binary64) (last : GridPoint)
    (position : Nat) (parts : List Bytes) :
    ((listing format scale .lat last position parts).take (2 * (parts.length / 2))).map
        (fun entry => (entry.axis, entry.coordinate)) =
      (GridPoint.trace last (parts.map format.delta)).flatMap fun source =>
        [(Axis.lat, restore scale source.lat), (Axis.lon, restore scale source.lon)] := by
  have taken := congrArg (List.map fun entry : Axis × Int32 × Binary64 => (entry.1, entry.2.2))
    (take_listing format scale last position parts)
  rw [List.map_map, List.map_flatMap] at taken
  exact taken

theorem pointCount_ofBytes (format : SampleFormat) (precision : Precision) (bytes : Bytes) :
    (ofBytes format precision bytes).pointCount =
      (format.samples (format.trim bytes)).length / 2 := by
  rw [pointCount, samples_ofBytes, length_listing]

/-- An inspection counts the points that a decoder gives, lists their coordinates first, and reports
the failure that ends them. A sample more is one that this failure cut off from its point. -/
theorem agrees_with_decode (format : SampleFormat) (precision : Precision) (bytes : Bytes) :
    let report := ofBytes format precision bytes
    let decoded := PointList.decode format precision bytes
    let decoder := Decoder.start format precision.decodeFactor (format.trim bytes)
    ∃ points : List Point,
      decoder.drain.1 = points.map .ok ++ (report.error.map .error).toList ∧
      decoded = report.error.elim (.ok points) .error ∧
      (report.error.map MalformedStream.message =
        match decoded with
        | .ok _ => none
        | .error error => some error.message) ∧
      report.pointCount = points.length ∧
      ((report.samples.take (2 * report.pointCount)).map fun entry =>
          (entry.axis, entry.coordinate)) =
        points.flatMap (fun point => [(.lat, point.lat), (.lon, point.lon)]) ∧
      (report.samples.length = 2 * report.pointCount ∨
        report.samples.length = 2 * report.pointCount + 1 ∧ report.error.isSome = true) := by
  intro report decoded decoder
  let parts := format.samples (format.trim bytes)
  have failure : report.error = Shape.failure? format (format.trim bytes) :=
    error_ofBytes format precision bytes
  have counted : report.pointCount = parts.length / 2 := pointCount_ofBytes format precision bytes
  have listed : report.samples = listing format precision.decodeFactor .lat .origin 0 parts :=
    samples_ofBytes format precision bytes
  have outcome : decoded =
      report.error.elim (.ok (Shape.points format precision.decodeFactor (format.trim bytes)))
        .error := by
    rw [failure]
    exact Shape.decode_eq_elim format precision.decodeFactor (format.trim bytes)
  refine ⟨Shape.points format precision.decodeFactor (format.trim bytes), ?_, outcome, ?_, ?_, ?_,
    ?_⟩
  · rw [failure]
    have drained : (decoder.drain : List (Except MalformedStream Point) × Decoder).1 = _ :=
      Decoder.drain_eq_popEach rfl
    rw [drained, Shape.popEach_start]
  · rw [outcome]
    cases report.error <;> rfl
  · rw [counted, Shape.points, Shape.grid, List.length_map, GridPoint.length_trace,
      List.length_map]
  · rw [counted, listed, take_listing_lat, Shape.points, List.flatMap_map]
    rfl
  · rw [counted, listed, length_listing]
    rcases Nat.mod_two_eq_zero_or_one parts.length with even | odd
    · exact .inl (by omega)
    · refine .inr ⟨by omega, ?_⟩
      have broken : ¬ (format.remnant (format.trim bytes) = [] ∧ parts.length % 2 = 0) := by
        omega
      rw [failure, Shape.failure?, if_neg broken]
      rfl

end Inspection

end Polyline
