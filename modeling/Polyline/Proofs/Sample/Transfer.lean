import Polyline.Proofs.Sample.Writing
import Polyline.Sample.Writer

/-! Samples that are written one after another, each in a format of its own, are read back in the
same formats. A sample ends by its own bytes, so it does not matter what stands behind it. -/

set_option autoImplicit false

namespace Polyline

/-- A difference on its way from a writer to a reader: the format both use for it, and the value
that the reader adds it to. -/
structure Transfer where
  format : SampleFormat
  delta : Int32
  previous : Int32
  deriving DecidableEq

namespace Writer

/-- Writes differences in turn. With the writer at the end come the numbers of bytes that were
written after each of them. -/
def writeAll (writer : Writer) : List (SampleFormat × Int32) → List Nat × Writer
  | [] => ([], writer)
  | (format, delta) :: rest =>
    let after := writer.writeSample format delta
    let further := after.writeAll rest
    (after.bytesWritten :: further.1, further.2)

theorem bytes_writeAll (writer : Writer) (writes : List (SampleFormat × Int32)) :
    (writer.writeAll writes).2.bytes =
      writer.bytes ++ writes.flatMap fun write => write.1.encode write.2 := by
  induction writes generalizing writer with
  | nil => exact (List.append_nil _).symm
  | cons write writes ih =>
    obtain ⟨format, delta⟩ := write
    simp only [writeAll, ih, writeSample, List.flatMap_cons, List.append_assoc]

end Writer

namespace Cursor

/-- Reads samples in turn, each in a format and onto a previous value. With the cursor at the end
come the results and the positions behind each of them. -/
def readAll (cursor : Cursor) :
    List (SampleFormat × Int32) → List (Except MalformedStream Int32 × Nat) × Cursor
  | [] => ([], cursor)
  | (format, previous) :: rest =>
    let taken := cursor.readSample format previous
    let further := taken.2.readAll rest
    ((taken.1, taken.2.position) :: further.1, further.2)

theorem readSample_encode_append (format : SampleFormat) (delta previous : Int32) (rest : Bytes)
    (position : Nat) :
    readSample format previous ⟨position, format.encode delta ++ rest⟩ =
      (.ok (previous + delta), ⟨position + (format.encode delta).length, rest⟩) := by
  rw [readSample_append (SampleFormat.isSample_encode format delta), SampleFormat.delta_encode]

end Cursor

namespace Transfer

/-- What a writer is given of transfers. -/
def writes (transfers : List Transfer) : List (SampleFormat × Int32) :=
  transfers.map fun transfer => (transfer.format, transfer.delta)

/-- What a reader is given of transfers. -/
def reads (transfers : List Transfer) : List (SampleFormat × Int32) :=
  transfers.map fun transfer => (transfer.format, transfer.previous)

/-- A reader that stands where a writer began stops behind each sample where the writer did. -/
theorem readAll_flatMap_encode_append (transfers : List Transfer) (writer : Writer)
    (suffix : Bytes) :
    let written := (writes transfers).flatMap fun write => write.1.encode write.2
    let reading := (Cursor.mk writer.bytesWritten (written ++ suffix)).readAll (reads transfers)
    reading.1.map Prod.fst =
        transfers.map (fun transfer => .ok (transfer.previous + transfer.delta)) ∧
      reading.1.map Prod.snd = (writer.writeAll (writes transfers)).1 ∧
      reading.2.rest = suffix := by
  induction transfers generalizing writer with
  | nil => exact ⟨rfl, rfl, rfl⟩
  | cons transfer transfers ih =>
    obtain ⟨format, delta, previous⟩ := transfer
    obtain ⟨values, positions, rest⟩ := ih (writer.writeSample format delta)
    have advanced : (writer.writeSample format delta).bytesWritten =
        writer.bytesWritten + (format.encode delta).length := List.length_append
    rw [advanced] at values positions rest
    simp only [writes, reads, List.map_cons, List.flatMap_cons, List.append_assoc, Cursor.readAll,
      Cursor.readSample_encode_append, Writer.writeAll, advanced] at values positions rest ⊢
    exact ⟨congrArg _ values, congrArg _ positions, rest⟩

end Transfer

/-- A buffer keeps what it held, and whoever reads on from there in the formats of the writer gets
every difference, on top of whatever values it is added to. After each sample the reader is as far
as the writer was, and after the last one exactly the bytes behind the writer's are left. -/
theorem Writer.readAll_finishInto (transfers : List Transfer) (buffer suffix : Bytes) :
    let writing := empty.writeAll (Transfer.writes transfers)
    let filled := writing.2.finishInto buffer
    let reading := (Cursor.start ((filled ++ suffix).drop buffer.length)).readAll
      (Transfer.reads transfers)
    filled = buffer ++ writing.2.finish ∧
      reading.1.map Prod.fst =
        transfers.map (fun transfer => .ok (transfer.previous + transfer.delta)) ∧
      reading.1.map Prod.snd = writing.1 ∧
      reading.2.rest = suffix := by
  intro writing filled reading
  have written : writing.2.bytes =
      (Transfer.writes transfers).flatMap fun write => write.1.encode write.2 :=
    bytes_writeAll empty (Transfer.writes transfers)
  have behind : (filled ++ suffix).drop buffer.length = writing.2.bytes ++ suffix := by
    change (buffer ++ writing.2.bytes ++ suffix).drop buffer.length = _
    rw [List.append_assoc, List.drop_left]
  have opened : reading = (Cursor.mk empty.bytesWritten
      (((Transfer.writes transfers).flatMap fun write => write.1.encode write.2) ++ suffix)).readAll
        (Transfer.reads transfers) := by
    rw [← written, ← behind]
    rfl
  rw [opened]
  exact ⟨rfl, Transfer.readAll_flatMap_encode_append transfers empty suffix⟩

end Polyline
