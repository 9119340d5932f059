import Polyline.Json.Printing
import Polyline.Json.Reading
import Polyline.Precision
import Polyline.Shape.Decoder
import Polyline.Shape.Encoding
import Polyline.Text.Column
import Polyline.Text.Integer

/-!
# Lists of points

Points are exchanged as JSON, as encoded shapes at a number of decimal places, and as a table to
look at.
-/

set_option autoImplicit false

namespace Polyline

namespace Point

def toJson (point : Point) : Json := .object [("lon", .real point.lon), ("lat", .real point.lat)]

/-- The value of a name that occurs once. -/
def member? (members : List (String × Json)) (name : String) : Option Json :=
  match members.filter (·.1 = name) with
  | [(_, value)] => some value
  | _ => none

/-- A point is a pair of numbers, longitude first, or an object in which `lon` and `lat` occur once
each and are numbers. What else the object holds does not matter. -/
def ofJson? : Json → Option Point
  | .array [lon, lat] => do return ⟨← lon.toBinary64?, ← lat.toBinary64?⟩
  | .object members => do
    let lon ← member? members "lon"
    let lat ← member? members "lat"
    return ⟨← lon.toBinary64?, ← lat.toBinary64?⟩
  | _ => none

end Point

namespace PointList

def toJson (points : List Point) : Json := .array (points.map Point.toJson)

/-- All points or none: a single item that is no point fails the list. -/
def ofJson? : Json → Option (List Point)
  | .array items => items.mapM Point.ofJson?
  | _ => none

def read? (text : String) : Option (List Point) := (Json.read? text).bind ofJson?

def encode (format : SampleFormat) (precision : Precision) (points : List Point) : Bytes :=
  Shape.encode format precision.encodeFactor points

/-- The points of an encoded shape, which may have blanks at its end if it is text. -/
def decode (format : SampleFormat) (precision : Precision) (bytes : Bytes) :
    Except MalformedStream (List Point) :=
  Shape.decode format precision.decodeFactor (format.trim bytes)

/-- A coordinate in a column that has room for three whole digits and a sign. -/
def coordinateText (precision : Precision) (coordinate : Binary64) : List Char :=
  Text.alignRight (precision.digits + 5) (coordinate.fixedText precision.digits)

def line (precision : Precision) (index : Nat) (point : Point) : List Char :=
  Text.alignRight 6 (Text.natural index) ++ ": lon ".toList ++
    coordinateText precision point.lon ++ " lat ".toList ++ coordinateText precision point.lat ++
    ['\n']

def table (precision : Precision) (points : List Point) : String :=
  String.ofList (points.zipIdx.flatMap fun (point, index) => line precision index point)

end PointList

end Polyline
