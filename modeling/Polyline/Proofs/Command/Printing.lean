import Polyline.Command.Run
import Polyline.Proofs.Json.Points
import Polyline.Proofs.PointList
import Polyline.Proofs.Text.Utf8

/-! What is printed of shapes and points. A shape in a text format is printed as it is, and a reader
of JSON finds the points that were printed. -/

set_option autoImplicit false

namespace Polyline.PointList

variable {points : List Point} {format : SampleFormat} {precision : Precision}

theorem toNat_lt_of_mem_encode (textual : format.isText = true) {byte : UInt8}
    (member : byte ∈ encode format precision points) : byte.toNat < 0x80 := by
  rw [encode, Shape.encode, GridPoint.encodeGrid_eq_flatMap] at member
  have written := (SampleFormat.toNat_mem_flatMap_encode member).2
  cases format with
  | varint5 => exact Nat.lt_of_lt_of_le written (by decide)
  | varint7 => cases textual

/-- What is printed for a shape in a text format is its bytes and a line feed. -/
theorem encode_shapeLine (textual : format.isText = true) (precision : Precision)
    (points : List Point) :
    Utf8.encode (Command.shapeLine format (encode format precision points)) =
      encode format precision points ++ [0x0a] := by
  have feed : Utf8.encode "\n" = [0x0a] := rfl
  rw [Command.shapeLine, if_pos textual, Utf8.encode_append, feed,
    Utf8.encode_decodeLenient_of_ascii fun _ member => toNat_lt_of_mem_encode textual member]

theorem pointsText_json (precision : Precision) (points : List Point) :
    Command.pointsText precision .json points =
      String.ofList (Json.chars Json.pretty 0 (toJson points) ++ ['\n']) := by
  rw [String.ofList_append]
  rfl

theorem read?_pointsText (precision : Precision) (finite : ∀ point ∈ points, point.IsFinite) :
    Json.read? (Command.pointsText precision .json points) = some (toJson points) := by
  rw [pointsText_json, read?_chars_toJson Json.isBlank_pretty points (List.all_eq_true.1 rfl),
    map_readJson_of_isFinite finite]

end Polyline.PointList
