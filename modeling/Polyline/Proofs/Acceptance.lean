import Polyline.Proofs.Shape.Decoding

/-! Which buffers decode, and what is wrong with the others. The places of terminators decide both:
neither payloads nor the precision have a part in it. -/

set_option autoImplicit false

namespace Polyline

namespace SampleFormat

/-- For each byte of a buffer whether it is a terminator. -/
def marks (format : SampleFormat) (bytes : Bytes) : List Bool :=
  bytes.map fun byte => byte.toNat < format.firstFlagged

/-- The number of items up to the last mark, which is none without any mark. -/
def closedLength (marks : List Bool) : Nat := (marks.reverse.dropWhile (!·)).length

theorem marks_eq_map_isTerminator (format : SampleFormat) (bytes : Bytes) :
    format.marks bytes = bytes.map format.isTerminator := by
  apply List.map_congr_left
  intro byte _
  rw [Bool.eq_iff_iff, decide_eq_true_iff]
  exact isTerminator_iff.symm

theorem IsSample.count_map_isTerminator {format : SampleFormat} {sample : Bytes}
    (complete : format.IsSample sample) : (sample.map format.isTerminator).count true = 1 := by
  induction complete with
  | last terminates => simp [terminates]
  | more continues _ ih => simpa [continues] using ih

theorem IsOpen.count_map_isTerminator {format : SampleFormat} {bytes : Bytes}
    (opened : format.IsOpen bytes) : (bytes.map format.isTerminator).count true = 0 := by
  rw [List.count_eq_zero]
  intro member
  obtain ⟨byte, inside, terminates⟩ := List.mem_map.1 member
  rw [opened byte inside] at terminates
  cases terminates

theorem length_samples (format : SampleFormat) (bytes : Bytes) :
    (format.samples bytes).length = (format.marks bytes).count true := by
  rw [marks_eq_map_isTerminator]
  induction bytes using framing_induction format with
  | opened bytes opened => rw [samples_of_isOpen opened, opened.count_map_isTerminator]; rfl
  | append sample rest complete ih =>
    rw [samples_append complete, List.length_cons, ih, List.map_append, List.count_append,
      complete.count_map_isTerminator, Nat.add_comm]

theorem closedLength_add_length_remnant (format : SampleFormat) (bytes : Bytes) :
    closedLength (format.marks bytes) + (format.remnant bytes).length = bytes.length := by
  have divided : (bytes.reverse.takeWhile (fun byte => !format.isTerminator byte) ++
      bytes.reverse.dropWhile fun byte => !format.isTerminator byte).length = bytes.length := by
    rw [List.takeWhile_append_dropWhile, List.length_reverse]
  rw [List.length_append] at divided
  rw [marks_eq_map_isTerminator, closedLength, ← List.map_reverse, List.dropWhile_map,
    List.length_map, remnant, List.length_reverse, Nat.add_comm]
  exact divided

theorem length_flatten_samples (format : SampleFormat) (bytes : Bytes) :
    (format.samples bytes).flatten.length = closedLength (format.marks bytes) := by
  have divided := congrArg List.length (flatten_samples_append_remnant format bytes)
  have closed := closedLength_add_length_remnant format bytes
  rw [List.length_append] at divided
  omega

theorem length_remnant (format : SampleFormat) (bytes : Bytes) :
    (format.remnant bytes).length = bytes.length - closedLength (format.marks bytes) := by
  have closed := closedLength_add_length_remnant format bytes
  omega

theorem remnant_eq_nil_iff (format : SampleFormat) (bytes : Bytes) :
    format.remnant bytes = [] ↔ closedLength (format.marks bytes) = bytes.length := by
  have closed := closedLength_add_length_remnant format bytes
  rw [← List.length_eq_zero_iff]
  omega

end SampleFormat

theorem Shape.map_length_decodeInto {point sequence : Type} [OfLonLat point]
    [PointSequence sequence point] (format : SampleFormat) (precision : Binary64) (bytes : Bytes) :
    (decodeInto format precision bytes : Except MalformedStream sequence).map
        (fun decoded => (PointSequence.toList decoded).length) =
      if SampleFormat.closedLength (format.marks bytes) = bytes.length ∧
          (format.marks bytes).count true % 2 = 0 then
        .ok ((format.marks bytes).count true / 2)
      else
        .error ⟨SampleFormat.closedLength (format.marks bytes),
          bytes.length - SampleFormat.closedLength (format.marks bytes)⟩ := by
  have split : ∀ result : Except MalformedStream sequence,
      result.map (fun decoded => (PointSequence.toList decoded).length) =
        (result.map PointSequence.toList).map List.length := by
    intro result
    cases result <;> rfl
  rw [split, map_toList_decodeInto, SampleFormat.length_samples,
    SampleFormat.length_flatten_samples, SampleFormat.length_remnant,
    if_congr (and_congr_left' (SampleFormat.remnant_eq_nil_iff format bytes)) rfl rfl]
  split
  · simp [Except.map, SampleFormat.length_samples]
  · rfl

theorem Series.map_length_decode (format : SampleFormat) (precision : Binary64) (bytes : Bytes) :
    (decode format precision bytes).map List.length =
      if SampleFormat.closedLength (format.marks bytes) = bytes.length then
        .ok ((format.marks bytes).count true)
      else
        .error ⟨SampleFormat.closedLength (format.marks bytes),
          bytes.length - SampleFormat.closedLength (format.marks bytes)⟩ := by
  rw [decode, decodeSamples_start, SampleFormat.length_flatten_samples,
    SampleFormat.length_remnant,
    if_congr (SampleFormat.remnant_eq_nil_iff format bytes) rfl rfl]
  split
  · simp [Except.map, SampleFormat.length_samples]
  · rfl

/-- A buffer decodes if its last byte is a terminator, and to points if it has an even number of
them. Otherwise the failure is at the byte behind the last terminator and reaches to the end. Both
outcomes are computed from the marks, so nothing else in the bytes has a part in them, nor has the
precision. -/
theorem decoding_outcome_of_marks {point sequence : Type} [OfLonLat point]
    [PointSequence sequence point] (format : SampleFormat) (precision : Binary64) (bytes : Bytes) :
    let count := (format.marks bytes).count true
    let closed := SampleFormat.closedLength (format.marks bytes)
    (Shape.decodeInto format precision bytes : Except MalformedStream sequence).map
        (fun decoded => (PointSequence.toList decoded).length) =
      (if closed = bytes.length ∧ count % 2 = 0 then .ok (count / 2)
        else .error ⟨closed, bytes.length - closed⟩) ∧
    (Series.decode format precision bytes).map List.length =
      if closed = bytes.length then .ok count else .error ⟨closed, bytes.length - closed⟩ :=
  ⟨Shape.map_length_decodeInto format precision bytes,
    Series.map_length_decode format precision bytes⟩

end Polyline
