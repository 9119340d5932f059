import Polyline.Precision
import Polyline.Proofs.Shape.Decoding

/-! One shape behind another. A buffer that ends behind a point leaves nothing but that point to the
bytes behind it, so these decode as they do alone, moved by the last point. Encoding is split the
same way: only the first point behind the seam is written anew. -/

set_option autoImplicit false

namespace Polyline

open SampleFormat

/-! ## Moved grid points -/

namespace GridPoint

/-- A grid point moved along both axes, which wraps around. -/
def add (offset source : GridPoint) : GridPoint :=
  ⟨offset.lat + source.lat, offset.lon + source.lon⟩

@[simp] theorem add_origin (offset : GridPoint) : offset.add origin = offset := by
  simp [add, origin]

theorem trace_add (offset last : GridPoint) (differences : List Int32) :
    trace (offset.add last) differences = (trace last differences).map offset.add := by
  induction last, differences using trace.induct with
  | case1 => rfl
  | case2 => rfl
  | case3 last lat lon rest ih =>
    have moved : (⟨(offset.add last).lat + lat, (offset.add last).lon + lon⟩ : GridPoint) =
        offset.add ⟨last.lat + lat, last.lon + lon⟩ := by
      simp [add, Int32.add_assoc]
    simp only [trace, List.map_cons, moved, ih]

theorem trace_eq_map_add (offset : GridPoint) (differences : List Int32) :
    trace offset differences = (trace origin differences).map offset.add := by
  simpa using trace_add offset origin differences

theorem encodeGrid_append (format : SampleFormat) (last : GridPoint)
    (first further : List GridPoint) :
    Shape.encodeGrid format last (first ++ further) =
      Shape.encodeGrid format last first ++
        Shape.encodeGrid format (first.getLastD last) further := by
  induction first generalizing last with
  | nil => rfl
  | cons next first ih =>
    simp only [List.cons_append, Shape.encodeGrid, ih, List.getLastD_cons, List.append_assoc]

end GridPoint

namespace Shape

variable {format : SampleFormat} {front : Bytes}

theorem failure?_append (accepted : failure? format front = none) (back : Bytes) :
    failure? format (front ++ back) =
      (failure? format back).map fun error => ⟨front.length + error.position, error.consumed⟩ := by
  obtain ⟨closed, even⟩ := failure?_eq_none_iff.1 accepted
  have parity : (format.samples (front ++ back)).length % 2 = 0 ↔
      (format.samples back).length % 2 = 0 := by
    rw [samples_append_of_remnant_eq_nil closed, List.length_append]
    omega
  have covered : (format.samples (front ++ back)).flatten.length =
      front.length + (format.samples back).flatten.length := by
    rw [samples_append_of_remnant_eq_nil closed, List.flatten_append, List.length_append,
      flatten_samples_of_remnant_eq_nil closed]
  unfold failure?
  rw [remnant_append_of_remnant_eq_nil closed, covered,
    if_congr (and_congr_right' parity) rfl rfl]
  split <;> rfl

theorem grid_append (accepted : failure? format front = none) (back : Bytes) :
    grid format (front ++ back) =
      grid format front ++
        (grid format back).map ((grid format front).getLastD .origin).add := by
  obtain ⟨closed, even⟩ := failure?_eq_none_iff.1 accepted
  have pairs : ((format.samples front).map format.delta).length % 2 = 0 := by
    rwa [List.length_map]
  unfold grid
  rw [samples_append_of_remnant_eq_nil closed, List.map_append,
    GridPoint.trace_append .origin pairs,
    GridPoint.trace_eq_map_add (List.getLastD _ _)]

/-! ## Written points -/

theorem encode_append {source : Type} [LonLat source] (format : SampleFormat) (factor : Int32)
    (first further : List source) :
    encode format factor (first ++ further) =
      encode format factor first ++
        encodeGrid format ((first.map (GridPoint.ofPoint factor)).getLastD .origin)
          (further.map (GridPoint.ofPoint factor)) := by
  simp only [encode, List.map_append, GridPoint.encodeGrid_append]

/-- The samples of written points behind the two of the first point do not depend on where that
point was counted from. -/
theorem exists_samples_encodeGrid_cons (format : SampleFormat) (next : GridPoint)
    (rest : List GridPoint) :
    ∃ others : List Bytes, ∀ last : GridPoint,
      encodeGrid format last (next :: rest) =
          (format.encode (next.lat - last.lat) ::
            format.encode (next.lon - last.lon) :: others).flatten ∧
        format.samples (encodeGrid format last (next :: rest)) =
          format.encode (next.lat - last.lat) ::
            format.encode (next.lon - last.lon) :: others := by
  refine ⟨(GridPoint.steps next rest).map format.encode, fun last => ⟨?_, ?_⟩⟩
  · simp [GridPoint.encodeGrid_eq_flatMap, GridPoint.steps, List.flatMap_def]
  · rw [GridPoint.encodeGrid_eq_flatMap, samples_flatMap_encode]
    simp [GridPoint.steps]

/-- A buffer behind one that decodes decodes if it does so alone, to the points it has alone moved
by the last one in front of it, and otherwise fails where it does alone, counted from the front.
What is written for points behind others is what is written for them alone, but for the first two
samples. -/
theorem decode_and_encode_append {source point sequence : Type} [LonLat source] [OfLonLat point]
    [PointSequence sequence point] (format : SampleFormat) :
    (∀ (precision : Binary64) (front back : Bytes) (decoded : sequence),
      decodeInto format precision front = .ok decoded →
        let last := (grid format front).getLastD .origin
        PointSequence.toList decoded = (grid format front).map (GridPoint.toPoint precision) ∧
        match (decodeInto format precision back : Except MalformedStream sequence) with
        | .ok further =>
          PointSequence.toList further = (grid format back).map (GridPoint.toPoint precision) ∧
          grid format (front ++ back) = grid format front ++ (grid format back).map last.add ∧
          ∃ whole : sequence, decodeInto format precision (front ++ back) = .ok whole ∧
            PointSequence.toList whole =
              (grid format (front ++ back)).map (GridPoint.toPoint precision)
        | .error error =>
          (decodeInto format precision (front ++ back) : Except MalformedStream sequence) =
            .error ⟨front.length + error.position, error.consumed⟩) ∧
    ∀ (factor : Int32) (first : List source),
      (∀ further, encode format factor first <+: encode format factor (first ++ further)) ∧
      ∀ (next : source) (rest : List source),
        let last := (first.map (GridPoint.ofPoint factor)).getLastD .origin
        let start := GridPoint.ofPoint factor next
        ∃ others : List Bytes,
          format.samples (encode format factor (next :: rest)) =
            format.encode start.lat :: format.encode start.lon :: others ∧
          encode format factor (next :: rest) =
            (format.encode start.lat :: format.encode start.lon :: others).flatten ∧
          encode format factor (first ++ next :: rest) = encode format factor first ++
            (format.encode (start.lat - last.lat) ::
              format.encode (start.lon - last.lon) :: others).flatten := by
  constructor
  · intro precision front back decoded accepted last
    obtain ⟨intact, points⟩ := decodeInto_eq_ok accepted
    refine ⟨points, ?_⟩
    cases outcome : (decodeInto format precision back : Except MalformedStream sequence) with
    | ok further =>
      obtain ⟨behind, furtherPoints⟩ := decodeInto_eq_ok outcome
      have whole : failure? format (front ++ back) = none := by
        rw [failure?_append intact, behind]
        rfl
      exact ⟨furtherPoints, grid_append intact back, exists_decodeInto_eq_ok whole precision⟩
    | error error =>
      have behind := decodeInto_eq_error_iff.1 outcome
      apply decodeInto_eq_error_iff.2
      rw [failure?_append intact, behind]
      rfl
  · intro factor first
    constructor
    · intro further
      rw [encode_append]
      exact List.prefix_append _ _
    · intro next rest last start
      obtain ⟨others, written⟩ :=
        exists_samples_encodeGrid_cons format start (rest.map (GridPoint.ofPoint factor))
      obtain ⟨alone, samples⟩ := written .origin
      simp only [GridPoint.origin, Int32.sub_zero] at alone samples
      refine ⟨others, samples, alone, ?_⟩
      rw [encode_append]
      exact congrArg (encode format factor first ++ ·) (written last).1

/-- The point (1, 2) and behind it the differences (-1, -2), which lead back to the origin. -/
theorem decode_and_encode_append_return :
    let precision := Precision.polyline5.decodeFactor
    ∃ decoded whole : List Point,
      decodeInto .varint5 precision [65, 67] = .ok decoded ∧
      decodeInto .varint5 precision ([65, 67] ++ [64, 66]) = .ok whole ∧
      whole = [⟨1, 2⟩, ⟨0, 0⟩].map (GridPoint.toPoint precision) := by
  intro precision
  obtain ⟨decoded, accepted, _⟩ : ∃ decoded : List Point,
      decodeInto .varint5 precision [65, 67] = .ok decoded ∧ _ :=
    exists_decodeInto_eq_ok (by decide) precision
  obtain ⟨further, behind, _⟩ : ∃ further : List Point,
      decodeInto .varint5 precision [64, 66] = .ok further ∧ _ :=
    exists_decodeInto_eq_ok (by decide) precision
  have joined := (@decode_and_encode_append Point Point (List Point) _ _ _ .varint5).1 precision
    [65, 67] [64, 66] decoded accepted
  rw [behind] at joined
  obtain ⟨_, _, _, whole, together, points⟩ := joined
  have grid : grid .varint5 ([65, 67] ++ [64, 66]) = [⟨1, 2⟩, ⟨0, 0⟩] := by decide
  rw [grid] at points
  exact ⟨decoded, whole, accepted, together, points⟩

end Shape

end Polyline
