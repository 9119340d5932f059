import Polyline.Proofs.PointList

/-! Encoding decoded points brings a buffer to a normal form. Blanks behind it, groups without bits
and bits beyond a word are lost on the way, and no point is moved. -/

set_option autoImplicit false

namespace Polyline

open SampleFormat

/-- A byte string that is the written form of the difference that reading it gives. -/
def SampleFormat.IsCanonical (format : SampleFormat) (sample : Bytes) : Prop :=
  ∃ delta, (Cursor.start sample).readSample format 0 = (.ok delta, ⟨sample.length, []⟩) ∧
    sample = format.encode delta

theorem SampleFormat.IsSample.isCanonical_iff {format : SampleFormat} {sample : Bytes}
    (complete : format.IsSample sample) :
    format.IsCanonical sample ↔ format.encode (format.delta sample) = sample := by
  have read := Cursor.readSample_start_zero complete
  constructor
  · rintro ⟨delta, taken, written⟩
    rw [read] at taken
    cases taken
    exact written.symm
  · intro written
    exact ⟨format.delta sample, read, written.symm⟩

theorem isFinite_restore (precision : Precision) (sample : Int32) :
    (restore precision.decodeFactor sample).isFinite = true := by
  obtain ⟨coordinate, restored, _, _⟩ := restore_near precision sample
  rw [restored]
  rfl

namespace PointList

variable {format : SampleFormat} {precision : Precision} {bytes : Bytes} {points : List Point}

theorem isFinite_of_decode_eq_ok (decoded : decode format precision bytes = .ok points) :
    ∀ point ∈ points, point.lon.isFinite = true ∧ point.lat.isFinite = true := by
  obtain ⟨_, rfl⟩ := decode_eq_ok_iff.1 decoded
  intro point member
  obtain ⟨source, _, rfl⟩ := List.mem_map.1 member
  exact ⟨isFinite_restore precision source.lon, isFinite_restore precision source.lat⟩

theorem decode_encode_of_decode_eq_ok (decoded : decode format precision bytes = .ok points) :
    decode format precision (encode format precision points) = .ok points := by
  obtain ⟨_, rfl⟩ := decode_eq_ok_iff.1 decoded
  have same : ∀ source : GridPoint,
      (GridPoint.toPoint precision.decodeFactor (GridPoint.ofPoint precision.encodeFactor
        (GridPoint.toPoint precision.decodeFactor source : Point)) : Point) =
      GridPoint.toPoint precision.decodeFactor source := by
    intro source
    rw [GridPoint.ofPoint_toPoint]
  rw [decode_encode, List.map_map]
  exact congrArg Except.ok (List.map_congr_left fun source _ => same source)

theorem flatten_samples_of_decode_eq_ok (decoded : decode format precision bytes = .ok points) :
    (format.samples (format.trim bytes)).flatten = format.trim bytes := by
  obtain ⟨⟨complete, _⟩, _⟩ := decode_eq_ok_iff.1 decoded
  exact flatten_samples_of_remnant_eq_nil complete

theorem length_encode_le_of_decode_eq_ok (decoded : decode format precision bytes = .ok points) :
    (encode format precision points).length ≤ bytes.length := by
  have shorter :=
    length_flatMap_encode_delta_le (isSample_of_mem_samples format (format.trim bytes))
  rw [← encode_of_decode_eq_ok decoded, flatten_samples_of_decode_eq_ok decoded] at shorter
  exact shorter.trans (length_trim_le format bytes)

theorem encode_eq_trim_iff (decoded : decode format precision bytes = .ok points) :
    encode format precision points = format.trim bytes ↔
      ∀ sample ∈ format.samples (format.trim bytes), format.IsCanonical sample := by
  have complete := isSample_of_mem_samples format (format.trim bytes)
  have same := flatMap_encode_delta_eq_iff complete
  rw [← encode_of_decode_eq_ok decoded, flatten_samples_of_decode_eq_ok decoded] at same
  rw [same]
  constructor
  · intro written sample member
    exact (complete sample member).isCanonical_iff.2 (written sample member)
  · intro canonical sample member
    exact (complete sample member).isCanonical_iff.1 (canonical sample member)

/-- Encoding what was decoded gives a buffer of the same points, which is no longer, is its own
normal form, and differs from the trimmed one in samples that are not canonical alone. -/
theorem encode_normalizes (decoded : decode format precision bytes = .ok points) :
    let normal := encode format precision points
    decode format precision normal = .ok points ∧
    (∀ point ∈ points, point.lon.isFinite = true ∧ point.lat.isFinite = true) ∧
    normal.length ≤ bytes.length ∧
    (∀ again, decode format precision normal = .ok again →
      encode format precision again = normal) ∧
    (format.samples (format.trim bytes)).flatten = format.trim bytes ∧
    (normal = format.trim bytes ↔
      ∀ sample ∈ format.samples (format.trim bytes), format.IsCanonical sample) ∧
    ∀ sample, quantize precision.encodeFactor (restore precision.decodeFactor sample) = sample := by
  have restored := decode_encode_of_decode_eq_ok decoded
  refine ⟨restored, isFinite_of_decode_eq_ok decoded, length_encode_le_of_decode_eq_ok decoded, ?_,
    flatten_samples_of_decode_eq_ok decoded, encode_eq_trim_iff decoded,
    quantize_restore precision⟩
  intro again repeated
  rw [restored] at repeated
  cases repeated
  rfl

theorem encode_normalizes_overlong :
    let points : List Point := [GridPoint.toPoint Precision.polyline5.decodeFactor ⟨0, 1⟩]
    decode .varint5 .polyline5 [95, 63, 65, 10] = .ok points ∧
      decode .varint5 .polyline5 (encode .varint5 .polyline5 points) = .ok points ∧
      (encode .varint5 .polyline5 points).length ≤ 4 ∧
      encode .varint5 .polyline5 points = [63, 65] := by
  -- The first sample has a group without bits, and behind the second one there is a blank.
  have differences : (samples .varint5 (trim .varint5 [95, 63, 65, 10])).map (delta .varint5) =
      [0, 1] := by decide
  have traced : GridPoint.trace .origin [0, 1] = [⟨0, 1⟩] := by decide
  have decoded : decode .varint5 .polyline5 [95, 63, 65, 10] =
      .ok [GridPoint.toPoint Precision.polyline5.decodeFactor ⟨0, 1⟩] := by
    rw [decode_eq_ok_iff, differences, traced]
    exact ⟨by decide, rfl⟩
  have latitude : SampleFormat.encode .varint5 0 = [63] := encodeCode_of_not_hasMore (by decide)
  have longitude : SampleFormat.encode .varint5 1 = [65] := encodeCode_of_not_hasMore (by decide)
  obtain ⟨restored, _, shorter, _⟩ := encode_normalizes decoded
  refine ⟨decoded, restored, shorter, ?_⟩
  rw [encode_of_decode_eq_ok decoded, differences, List.flatMap_cons, List.flatMap_cons, latitude,
    longitude]
  rfl

end PointList

end Polyline
