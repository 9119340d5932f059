import Polyline.Inspection.Basic
import Polyline.Json.Printing
import Polyline.Text.Column
import Polyline.Text.Integer

/-!
# Reports of inspections

An inspection is shown as a JSON value or as lines of text.
-/

set_option autoImplicit false

namespace Polyline

namespace Axis

def name : Axis → String
  | .lat => "lat"
  | .lon => "lon"

def label : Axis → String
  | .lat => "Lat"
  | .lon => "Lon"

end Axis

namespace SampleEntry

def toJson (entry : SampleEntry) : Json :=
  .object
    [("offset", .integer entry.offset),
      ("len", .integer entry.length),
      ("axis", .string entry.axis.name),
      ("delta", .integer entry.delta.toInt),
      ("value", .integer entry.value.toInt),
      ("coordinate", .real entry.coordinate)]

def line (entry : SampleEntry) : List Char :=
  "  @".toList ++ Text.alignLeft 6 (Text.natural entry.offset) ++ [' '] ++
    Text.alignRight 2 (Text.natural entry.length) ++ "B ".toList ++ entry.axis.label.toList ++
    " delta ".toList ++ Text.alignRight 11 (Text.integer entry.delta.toInt) ++
    " value ".toList ++ Text.alignRight 11 (Text.integer entry.value.toInt) ++
    " (".toList ++ entry.coordinate.plainText ++ ")\n".toList

end SampleEntry

namespace Inspection

def toJson (inspection : Inspection) : Json :=
  .object
    [("format", .string inspection.format.name),
      ("digits", .integer inspection.precision.digits),
      ("byte_len", .integer inspection.byteLength),
      ("point_count", .integer inspection.pointCount),
      ("samples", .array (inspection.samples.map SampleEntry.toJson)),
      ("error", match inspection.error with
        | some error => .string error.message
        | none => .null)]

def text (inspection : Inspection) : String :=
  let totals := s!"format: {inspection.format.name} digits: {inspection.precision.digits} " ++
    s!"bytes: {inspection.byteLength} points: {inspection.pointCount}\n"
  let average := match inspection.bytesPerPoint? with
    | some average => "bytes/point: " ++ String.ofList (average.fixedText 2) ++ "\n"
    | none => ""
  let samples := "samples:\n" ++ String.ofList (inspection.samples.flatMap SampleEntry.line)
  let error := match inspection.error with
    | some error => s!"error: {error.message}\n"
    | none => ""
  totals ++ average ++ samples ++ error

end Inspection

end Polyline
