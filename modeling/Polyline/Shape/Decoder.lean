import Polyline.Grid
import Polyline.Sample.Cursor

/-!
# Decoding shapes

A decoder takes points off a buffer one at a time. A point counts only once both of its samples are
read, so a buffer that ends between two points decodes completely, and any other one fails with the
sample that was cut off. A failing read uses up the buffer; nothing is read after it.
-/

set_option autoImplicit false

namespace Polyline

/-- A decoder in the middle of a buffer, with the last complete point. Iteration is over once it has
`failed`. -/
structure Decoder where
  format : SampleFormat
  precision : Binary64
  cursor : Cursor
  last : GridPoint
  failed : Bool
  deriving DecidableEq

namespace Decoder

def start (format : SampleFormat) (precision : Binary64) (bytes : Bytes) : Decoder :=
  ⟨format, precision, .start bytes, .origin, false⟩

def isEmpty (decoder : Decoder) : Bool := decoder.cursor.isEmpty

def remaining (decoder : Decoder) : Nat := decoder.cursor.remaining

def position (decoder : Decoder) : Nat := decoder.cursor.position

def popGrid (decoder : Decoder) : Except MalformedStream GridPoint × Decoder :=
  match decoder.cursor.readSample decoder.format decoder.last.lat with
  | (.error error, cursor) => (.error error, { decoder with cursor := cursor })
  | (.ok lat, cursor) =>
    match cursor.readSample decoder.format decoder.last.lon with
    | (.error error, cursor) => (.error error, { decoder with cursor := cursor })
    | (.ok lon, cursor) => (.ok ⟨lat, lon⟩, { decoder with cursor := cursor, last := ⟨lat, lon⟩ })

theorem popGrid_remaining_lt {decoder : Decoder} (unread : decoder.isEmpty = false) :
    decoder.popGrid.2.remaining < decoder.remaining := by
  have first := Cursor.readSample_remaining_lt decoder.format decoder.last.lat unread
  unfold popGrid
  split
  next equal =>
    rw [equal] at first
    exact first
  next cursor equal =>
    have second := Cursor.readSample_remaining_le decoder.format decoder.last.lon cursor
    rw [equal] at first
    split
    next inner =>
      rw [inner] at second
      exact Nat.lt_of_le_of_lt second first
    next inner =>
      rw [inner] at second
      exact Nat.lt_of_le_of_lt second first

variable {point : Type} [OfLonLat point]

/-- Takes the next point off the buffer, which fails at the end of the buffer as well. -/
def pop (decoder : Decoder) : Except MalformedStream point × Decoder :=
  (decoder.popGrid.1.map (GridPoint.toPoint decoder.precision), decoder.popGrid.2)

theorem pop_remaining_lt {decoder : Decoder} (unread : decoder.isEmpty = false) :
    (decoder.pop : Except MalformedStream point × Decoder).2.remaining < decoder.remaining :=
  popGrid_remaining_lt unread

/-- The next point or the failure to read one, and nothing at the end of the buffer or behind a
failure. -/
def next? (decoder : Decoder) : Option (Except MalformedStream point × Decoder) :=
  if decoder.failed || decoder.isEmpty then none
  else
    let popped : Except MalformedStream point × Decoder := decoder.pop
    some (popped.1, { popped.2 with failed := !popped.1.isOk })

theorem next?_remaining_lt {decoder after : Decoder} {item : Except MalformedStream point}
    (taken : decoder.next? = some (item, after)) : after.remaining < decoder.remaining := by
  unfold next? at taken
  split at taken
  next => cases taken
  next proceeds =>
    cases taken
    have unread : decoder.isEmpty = false := by simp_all
    exact popGrid_remaining_lt unread

def drain (decoder : Decoder) : List (Except MalformedStream point) × Decoder :=
  match _ : (decoder.next? : Option (Except MalformedStream point × Decoder)) with
  | none => ([], decoder)
  | some (item, after) => (item :: after.drain.1, after.drain.2)
  termination_by decoder.remaining
  decreasing_by all_goals exact next?_remaining_lt (by assumption)

def gather (items : List (Except MalformedStream point)) : Except MalformedStream (List point) :=
  items.mapM id

variable {sequence : Type} [PointSequence sequence point]

def popAll (decoder : Decoder) (points : sequence) : Except MalformedStream sequence :=
  if _ : decoder.isEmpty then .ok points
  else
    let popped : Except MalformedStream point × Decoder := decoder.pop
    match popped.1 with
    | .error error => .error error
    | .ok last => popped.2.popAll (PointSequence.push points last)
  termination_by decoder.remaining
  decreasing_by exact pop_remaining_lt (Bool.eq_false_iff.2 (by assumption))

end Decoder

namespace Shape

/-- The number of bytes that a point takes on average, by which space for decoded points is
reserved. -/
def bytesPerPointEstimate : Nat := 4

variable {point : Type} [OfLonLat point] {sequence : Type} [PointSequence sequence point]

def decodeInto (format : SampleFormat) (precision : Binary64) (bytes : Bytes) :
    Except MalformedStream sequence :=
  (Decoder.start format precision bytes).popAll
    (PointSequence.reserve PointSequence.empty (bytes.length / bytesPerPointEstimate))

def decode (format : SampleFormat) (precision : Binary64) (bytes : Bytes) :
    Except MalformedStream (List point) :=
  (decodeInto format precision bytes : Except MalformedStream (Array point)).map Array.toList

def decodeText (precision : Binary64) (text : String) : Except MalformedStream (List point) :=
  decode .varint5 precision text.toUTF8.data.toList

end Shape

end Polyline
