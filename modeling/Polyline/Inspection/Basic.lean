import Polyline.Grid
import Polyline.Precision
import Polyline.Sample.Cursor

/-!
# Inspecting encoded shapes

An inspection lists the samples that make up a buffer, one entry for each, with its place in the
buffer. It never fails: what stops it short is part of its result.
-/

set_option autoImplicit false

namespace Polyline

/-- One sample of a buffer: where it stands, the difference it holds, and the value that results. -/
structure SampleEntry where
  offset : Nat
  length : Nat
  axis : Axis
  delta : Int32
  value : Int32
  coordinate : Binary64
  deriving DecidableEq

structure Inspection where
  format : SampleFormat
  precision : Precision
  byteLength : Nat
  samples : List SampleEntry
  /-- Present if the buffer does not end behind a complete point. -/
  error : Option MalformedStream
  deriving DecidableEq

namespace Inspection

/-- The entries from a place in a buffer on, with the axis of the next sample and the last value
along each axis, and the failure that ends them. -/
def entries (format : SampleFormat) (scale : Binary64) (axis : Axis) (last : GridPoint)
    (cursor : Cursor) : List SampleEntry × Option MalformedStream :=
  if _ : cursor.isEmpty then ([], none)
  else
    let taken := cursor.readSample format (last.get axis)
    match taken.1 with
    | .error error => ([], some error)
    | .ok value =>
      let entry : SampleEntry :=
        { offset := cursor.position
          length := taken.2.position - cursor.position
          axis := axis
          delta := value - last.get axis
          value := value
          coordinate := restore scale value }
      let further := entries format scale axis.other (last.set value axis) taken.2
      (entry :: further.1, further.2)
  termination_by cursor.remaining
  decreasing_by exact Cursor.readSample_remaining_lt _ _ (Bool.eq_false_iff.2 (by assumption))

/-- The inspection of a buffer. A latitude without longitude leaves it cut off at its end. -/
def ofBytes (format : SampleFormat) (precision : Precision) (bytes : Bytes) : Inspection :=
  let encoded := format.trim bytes
  let found := entries format precision.decodeFactor .lat .origin (.start encoded)
  let missing := if found.1.length % 2 = 1 then some ⟨encoded.length, 0⟩ else none
  { format := format
    precision := precision
    byteLength := encoded.length
    samples := found.1
    error := found.2.or missing }

def pointCount (inspection : Inspection) : Nat := inspection.samples.length / 2

def bytesPerPoint? (inspection : Inspection) : Option Binary64 :=
  if inspection.pointCount = 0 then none
  else some (.ofInt inspection.byteLength / .ofInt inspection.pointCount)

end Inspection

end Polyline
