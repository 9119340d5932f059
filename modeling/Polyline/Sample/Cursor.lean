import Polyline.Sample.Format
import Polyline.Word

/-!
# Reading samples one after another

A cursor stands between the bytes of a buffer. Reads move it forward only. A sample that is cut off
by the end of the buffer is the one thing that can go wrong; the cursor is at the end afterwards.
-/

set_option autoImplicit false

namespace Polyline

/-- The buffer ended inside the sample that starts at `position`, `consumed` bytes into it. -/
structure MalformedStream where
  position : Nat
  consumed : Nat
  deriving DecidableEq, Repr

namespace MalformedStream

def message (error : MalformedStream) : String :=
  s!"malformed stream: sample at byte {error.position} ended after {error.consumed} bytes " ++
    "without a terminating byte"

def record (error : MalformedStream) : String :=
  s!"MalformedStream \x7b position: {error.position}, consumed: {error.consumed} \x7d"

end MalformedStream

/-- A place in a buffer: how many bytes were read, and those that were not. -/
structure Cursor where
  position : Nat
  rest : Bytes
  deriving DecidableEq

namespace Cursor

def start (bytes : Bytes) : Cursor := ⟨0, bytes⟩

def remaining (cursor : Cursor) : Nat := cursor.rest.length

def isEmpty (cursor : Cursor) : Bool := cursor.rest.isEmpty

def readByte (cursor : Cursor) : Option UInt8 × Cursor :=
  match cursor.rest with
  | [] => (none, cursor)
  | byte :: rest => (some byte, ⟨cursor.position + 1, rest⟩)

theorem readByte_remaining {cursor after : Cursor} {byte : UInt8}
    (read : cursor.readByte = (some byte, after)) : after.remaining + 1 = cursor.remaining := by
  unfold readByte at read
  split at read
  next => cases read
  next equal =>
    cases read
    simp [remaining, equal]

def truncated (cursor : Cursor) (start : Nat) : MalformedStream := ⟨start, cursor.position - start⟩

/-- The code of the sample that began at byte `start`, and the place behind it. The groups read so
far are in `code`, and the next one goes `shift` bits up, where groups past the thirty-second bit
are lost. -/
def readGroups (format : SampleFormat) (start : Nat) (code shift : UInt32) (cursor : Cursor) :
    Except MalformedStream UInt32 × Cursor :=
  match _ : cursor.readByte with
  | (none, after) => (.error (after.truncated start), after)
  | (some byte, after) =>
    let gathered := code ||| Word.shiftUp (format.payload byte) shift
    if format.isTerminator byte then (.ok gathered, after)
    else after.readGroups format start gathered (Word.addSaturating shift format.groupBits)
  termination_by cursor.remaining
  decreasing_by
    have counted := readByte_remaining (by assumption)
    omega

/-- The value of the next sample, which is its difference added to the previous value, and the place
behind it. -/
def readSample (format : SampleFormat) (previous : Int32) (cursor : Cursor) :
    Except MalformedStream Int32 × Cursor :=
  match cursor.readGroups format cursor.position 0 0 with
  | (.ok code, after) => (.ok (previous + ZigZag.decode code), after)
  | (.error error, after) => (.error error, after)

theorem readGroups_remaining_le (format : SampleFormat) (start : Nat) (code shift : UInt32)
    (cursor : Cursor) :
    (cursor.readGroups format start code shift).2.remaining ≤ cursor.remaining := by
  fun_induction readGroups format start code shift cursor with
  | case1 code shift cursor after read =>
    unfold readByte at read
    split at read <;> cases read
    exact Nat.le_refl _
  | case2 code shift cursor byte after read =>
    have counted := readByte_remaining read
    dsimp only
    omega
  | case3 code shift cursor byte after read gathered _ ih =>
    have counted := readByte_remaining read
    omega

theorem readSample_remaining_le (format : SampleFormat) (previous : Int32) (cursor : Cursor) :
    (cursor.readSample format previous).2.remaining ≤ cursor.remaining := by
  have gathered := readGroups_remaining_le format cursor.position 0 0 cursor
  unfold readSample
  split
  next equal => simpa [equal] using gathered
  next equal => simpa [equal] using gathered

/-- Every read at a place in front of a byte moves the cursor, also a failing one. -/
theorem readSample_remaining_lt (format : SampleFormat) (previous : Int32) {cursor : Cursor}
    (unread : cursor.isEmpty = false) :
    (cursor.readSample format previous).2.remaining < cursor.remaining := by
  obtain ⟨position, bytes⟩ := cursor
  cases bytes with
  | nil => cases unread
  | cons byte rest =>
    have advanced : (Cursor.readGroups format position 0 0 ⟨position, byte :: rest⟩).2.remaining ≤
        rest.length := by
      rw [readGroups]
      simp only [readByte]
      split
      next => exact Nat.le_refl _
      next => exact readGroups_remaining_le _ _ _ _ _
    unfold readSample
    split
    next equal => simpa [equal, remaining, Nat.lt_succ_iff] using advanced
    next equal => simpa [equal, remaining, Nat.lt_succ_iff] using advanced

end Cursor

end Polyline
