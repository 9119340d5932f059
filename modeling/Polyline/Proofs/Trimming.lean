import Polyline.Proofs.Inspection.Entries
import Polyline.Proofs.PointList

/-! Blanks behind encoded points. A text format leaves them out before anything is read, and writes
no byte that could be taken for one. A binary format reads every byte it is given. -/

set_option autoImplicit false

namespace Polyline

namespace SampleFormat

/-- Tab, line feed, form feed, carriage return and space. -/
def blankBytes : Bytes := [0x09, 0x0a, 0x0c, 0x0d, 0x20]

theorem isBlank_iff_mem_blankBytes {byte : UInt8} : isBlank byte = true ↔ byte ∈ blankBytes := by
  simp [isBlank, blankBytes, or_assoc]

theorem trim_append_of_blanks {format : SampleFormat} (textual : format.isText = true)
    (bytes : Bytes) {blanks : Bytes} (blank : ∀ byte ∈ blanks, byte ∈ blankBytes) :
    format.trim (bytes ++ blanks) = format.trim bytes := by
  have all : ∀ byte ∈ blanks.reverse, isBlank byte = true := by
    intro byte member
    exact isBlank_iff_mem_blankBytes.2 (blank byte (List.mem_reverse.1 member))
  rw [trim, trim, if_pos textual, if_pos textual, List.reverse_append,
    List.dropWhile_append_of_pos all]

theorem trim_of_getLast?_not_mem {format : SampleFormat} {bytes : Bytes}
    (inked : ∀ last ∈ bytes.getLast?, last ∉ blankBytes) : format.trim bytes = bytes := by
  unfold trim
  split
  · cases reversed : bytes.reverse with
    | nil => simpa using reversed.symm
    | cons last others =>
      have final : last ∈ bytes.getLast? := by
        rw [← List.head?_reverse, reversed]
        rfl
      have kept : ¬ isBlank last = true := mt isBlank_iff_mem_blankBytes.1 (inked last final)
      rw [List.dropWhile_cons_of_neg kept, ← reversed, List.reverse_reverse]
  · rfl

theorem trim_of_not_isText {format : SampleFormat} (binary : format.isText = false)
    (bytes : Bytes) : format.trim bytes = bytes := by
  rw [trim, binary, if_neg Bool.false_ne_true]

end SampleFormat

open SampleFormat

theorem Inspection.ofBytes_congr_trim (format : SampleFormat) (precision : Precision)
    {bytes others : Bytes} (same : format.trim bytes = format.trim others) :
    ofBytes format precision bytes = ofBytes format precision others := by
  simp only [ofBytes, same]

namespace PointList

theorem decode_congr_trim (format : SampleFormat) (precision : Precision) {bytes others : Bytes}
    (same : format.trim bytes = format.trim others) :
    decode format precision bytes = decode format precision others := by
  simp only [decode, same]

theorem decode_of_trim_eq {format : SampleFormat} {bytes : Bytes}
    (untouched : format.trim bytes = bytes) (precision : Precision) :
    decode format precision bytes = Shape.decode format precision.decodeFactor bytes := by
  rw [decode, untouched]

/-- Blanks behind text change neither what it decodes to nor a report of it, nothing else is left
out, and nothing at all of a binary buffer. So all points that were encoded come back, with blanks
behind the text and also where the last bytes of a binary shape look like blanks. -/
theorem decode_append_blanks (precision : Precision) {blanks : Bytes}
    (blank : ∀ byte ∈ blanks, byte ∈ blankBytes) :
    (∀ bytes,
      decode .varint5 precision (bytes ++ blanks) = decode .varint5 precision bytes ∧
      Inspection.ofBytes .varint5 precision (bytes ++ blanks) =
        Inspection.ofBytes .varint5 precision bytes ∧
      ((∀ last ∈ bytes.getLast?, last ∉ blankBytes) →
        decode .varint5 precision bytes = Shape.decode .varint5 precision.decodeFactor bytes)) ∧
    (∀ bytes,
      decode .varint7 precision bytes = Shape.decode .varint7 precision.decodeFactor bytes) ∧
    ∀ points : List Point,
      let decoded := points.map fun point =>
        GridPoint.toPoint precision.decodeFactor (GridPoint.ofPoint precision.encodeFactor point)
      decode .varint5 precision (encode .varint5 precision points ++ blanks) =
        Shape.decode .varint5 precision.decodeFactor (encode .varint5 precision points) ∧
      Shape.decode .varint5 precision.decodeFactor (encode .varint5 precision points) =
        .ok decoded ∧
      decode .varint7 precision (encode .varint7 precision points) = .ok decoded ∧
      decoded.length = points.length := by
  refine ⟨?_, ?_, ?_⟩
  · intro bytes
    have same : trim .varint5 (bytes ++ blanks) = trim .varint5 bytes :=
      trim_append_of_blanks rfl bytes blank
    refine ⟨decode_congr_trim .varint5 precision same,
      Inspection.ofBytes_congr_trim .varint5 precision same, ?_⟩
    intro inked
    exact decode_of_trim_eq (trim_of_getLast?_not_mem inked) precision
  · intro bytes
    exact decode_of_trim_eq (trim_of_not_isText rfl bytes) precision
  · intro points decoded
    have bare : Shape.decode .varint5 precision.decodeFactor (encode .varint5 precision points) =
        .ok decoded := by
      rw [← decode_of_trim_eq (trim_encode .varint5 precision points)]
      exact decode_encode .varint5 precision points
    refine ⟨?_, bare, decode_encode .varint7 precision points, List.length_map _⟩
    rw [decode_congr_trim .varint5 precision (trim_append_of_blanks rfl _ blank),
      decode_of_trim_eq (trim_encode .varint5 precision points)]

/-- Two line feeds behind a text, and a binary shape whose only bytes are line feeds. -/
theorem decode_append_blanks_lineFeeds :
    let points : List Point := [GridPoint.toPoint Precision.polyline5.decodeFactor ⟨5, 5⟩]
    encode .varint5 .polyline5 points = [73, 73] ∧
      decode .varint5 .polyline5 ([73, 73] ++ [10, 10]) = decode .varint5 .polyline5 [73, 73] ∧
      decode .varint5 .polyline5 [73, 73] =
        Shape.decode .varint5 Precision.polyline5.decodeFactor [73, 73] ∧
      encode .varint7 .polyline5 points = [10, 10] ∧
      decode .varint7 .polyline5 [10, 10] = .ok points := by
  intro points
  have steps : GridPoint.steps .origin [⟨5, 5⟩] = [5, 5] := by decide
  have text : SampleFormat.encode .varint5 5 = [73] := encodeCode_of_not_hasMore (by decide)
  have binary : SampleFormat.encode .varint7 5 = [10] := encodeCode_of_not_hasMore (by decide)
  have written : ∀ format, encode format .polyline5 points =
      format.encode 5 ++ format.encode 5 := by
    intro format
    have gridded := encode_map_toPoint format .polyline5 [⟨5, 5⟩]
    rw [steps] at gridded
    simpa using gridded
  have textual : encode .varint5 .polyline5 points = [73, 73] := by
    rw [written, text]
    rfl
  have binaries : encode .varint7 .polyline5 points = [10, 10] := by
    rw [written, binary]
    rfl
  obtain ⟨blanksBehind, _, restored⟩ := decode_append_blanks .polyline5
    (show ∀ byte ∈ [10, 10], byte ∈ blankBytes by simp [blankBytes])
  obtain ⟨trimmed, _, untouched⟩ := blanksBehind [73, 73]
  obtain ⟨_, _, kept, _⟩ := restored points
  rw [binaries] at kept
  refine ⟨textual, trimmed, untouched (by simp [blankBytes]), binaries, kept.trans ?_⟩
  simp [points, GridPoint.ofPoint_toPoint]

end PointList

end Polyline
