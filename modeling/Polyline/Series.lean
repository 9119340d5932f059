import Polyline.Grid
import Polyline.Sample.Cursor

/-!
# Series

A series is a sequence of values along one axis, such as the elevations along a track. Each value is
written as the difference of its sample from the one before it.
-/

set_option autoImplicit false

namespace Polyline.Series

def encodeSamples (format : SampleFormat) (last : Int32) : List Int32 → Bytes
  | [] => []
  | next :: rest => format.encode (next - last) ++ encodeSamples format next rest

/-- The bytes of a series, whose values are multiplied by the factor and rounded. -/
def encode (format : SampleFormat) (factor : Int32) (values : List Binary64) : Bytes :=
  encodeSamples format 0 (values.map (quantize factor))

/-- The samples from a place in a buffer to its end, given the one before the first of them. -/
def decodeSamples (format : SampleFormat) (last : Int32) (cursor : Cursor) :
    Except MalformedStream (List Int32) :=
  if _ : cursor.isEmpty then .ok []
  else
    match (cursor.readSample format last).1 with
    | .error error => .error error
    | .ok next =>
      (decodeSamples format next (cursor.readSample format last).2).map (next :: ·)
  termination_by cursor.remaining
  decreasing_by exact Cursor.readSample_remaining_lt _ _ (Bool.eq_false_iff.2 (by assumption))

def decode (format : SampleFormat) (precision : Binary64) (bytes : Bytes) :
    Except MalformedStream (List Binary64) :=
  (decodeSamples format 0 (.start bytes)).map (List.map (restore precision))

end Polyline.Series
