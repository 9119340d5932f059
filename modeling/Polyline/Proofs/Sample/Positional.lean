import Mathlib.Data.Nat.Digits.Defs
import Polyline.Proofs.Sample.Reading

/-! What one read does to any buffer, told by the numbers that the bytes are: which of them it takes,
and the number whose digits their payloads are. A word keeps the low bits of that number, however
many digits it has. -/

set_option autoImplicit false

namespace Polyline

namespace SampleFormat

variable {format : SampleFormat}

/-- The payload of a byte, as a digit of the number that its sample spells. -/
def digit : SampleFormat → UInt8 → Nat
  | .varint5, byte => (byte.toNat + 1) % 32
  | .varint7, byte => byte.toNat % 128

theorem toNat_payload_eq_digit (format : SampleFormat) (byte : UInt8) :
    (format.payload byte).toNat = format.digit byte := by
  rw [toNat_payload]
  cases format <;> rfl

theorem value_eq_ofDigits (format : SampleFormat) (bytes : Bytes) :
    format.value bytes = Nat.ofDigits format.radix (bytes.map format.digit) := by
  induction bytes with
  | nil => rfl
  | cons byte rest ih =>
    rw [value, ih, toNat_payload_eq_digit, List.map_cons, Nat.ofDigits_cons]

/-- The number of bytes in front of the first terminator. -/
def leading? (format : SampleFormat) (bytes : Bytes) : Option Nat :=
  bytes.findIdx? fun byte => byte.toNat < format.firstFlagged

theorem IsOpen.leading?_eq_none {bytes : Bytes} (opened : format.IsOpen bytes) :
    format.leading? bytes = none := by
  rw [leading?, List.findIdx?_eq_none_iff]
  intro byte member
  have continues := opened byte member
  rw [← Bool.not_eq_true, isTerminator_iff] at continues
  exact decide_eq_false continues

theorem IsSample.exists_leading?_append {sample : Bytes} (complete : format.IsSample sample)
    (rest : Bytes) :
    ∃ count, sample.length = count + 1 ∧ format.leading? (sample ++ rest) = some count := by
  induction complete with
  | last terminates =>
    have first := isTerminator_iff.1 terminates
    exact ⟨0, rfl, by simp [leading?, List.findIdx?_cons, first]⟩
  | @more byte sample continues _ ih =>
    obtain ⟨count, length, found⟩ := ih
    have passed : ¬ byte.toNat < format.firstFlagged := by
      rw [← isTerminator_iff, continues]
      exact Bool.false_ne_true
    refine ⟨count + 1, congrArg Nat.succ length, ?_⟩
    rw [leading?] at found ⊢
    rw [List.cons_append, List.findIdx?_cons, found]
    simp [passed]

end SampleFormat

namespace Cursor

/-- The ways to move a cursor. -/
inductive Read where
  | byte
  | sample (format : SampleFormat) (previous : Int32)
  deriving DecidableEq

/-- The place that reads lead to, whether they succeed or not. -/
def after (cursor : Cursor) : List Read → Cursor
  | [] => cursor
  | .byte :: reads => cursor.readByte.2.after reads
  | .sample format previous :: reads => (cursor.readSample format previous).2.after reads

theorem readByte_leadsTo (cursor : Cursor) : cursor.LeadsTo cursor.readByte.2 := by
  obtain ⟨position, bytes⟩ := cursor
  cases bytes with
  | nil => exact .refl _
  | cons byte rest => exact ⟨[byte], rfl, rfl⟩

theorem leadsTo_after (cursor : Cursor) (reads : List Read) :
    cursor.LeadsTo (cursor.after reads) := by
  induction reads generalizing cursor with
  | nil => exact .refl cursor
  | cons read reads ih =>
    cases read with
    | byte => exact (readByte_leadsTo cursor).trans (ih _)
    | sample format previous => exact (readSample_leadsTo format previous cursor).trans (ih _)

/-- Wherever a cursor stands, the bytes that were not read are those of the buffer behind its
position. -/
theorem LeadsTo.rest_eq_drop {buffer : Bytes} {cursor : Cursor}
    (moved : (start buffer).LeadsTo cursor) : cursor.rest = buffer.drop cursor.position := by
  obtain ⟨taken, whole, position⟩ := moved
  have front : cursor.position = taken.length := position.trans (Nat.zero_add _)
  have divided : buffer = taken ++ cursor.rest := whole
  rw [divided, front, List.drop_left]

/-- From wherever earlier reads have led, a read takes the bytes up to the first terminator that was
not read. What it adds to the previous value is the number of these bytes, as far as a word holds
it. Without any terminator it fails with all the bytes that were left. -/
theorem readSample_after_reads (buffer : Bytes) (reads : List Read) (format : SampleFormat) :
    let cursor := (start buffer).after reads
    let unread := buffer.drop cursor.position
    match format.leading? unread with
    | some count =>
      ∃ code : UInt32,
        code.toNat =
          Nat.ofDigits format.radix ((unread.take (count + 1)).map format.digit) % 2 ^ 32 ∧
        ∀ previous, cursor.readSample format previous =
          (.ok (previous + ZigZag.decode code),
            ⟨cursor.position + (count + 1), unread.drop (count + 1)⟩)
    | none =>
      ∀ previous, cursor.readSample format previous =
        (.error ⟨cursor.position, unread.length⟩, ⟨buffer.length, []⟩) := by
  intro cursor unread
  have moved : (start buffer).LeadsTo cursor := leadsTo_after (start buffer) reads
  have left : cursor = ⟨cursor.position, unread⟩ := by
    rw [← show cursor.rest = unread from moved.rest_eq_drop]
  have whole : cursor.position + unread.length = buffer.length := by
    have counted := moved.position_add_remaining
    rw [left] at counted
    simpa [remaining, start] using counted
  generalize cursor.position = position at left whole ⊢
  generalize unread = bytes at left whole ⊢
  obtain opened | ⟨sample, rest, complete, rfl⟩ :=
    SampleFormat.isOpen_or_exists_isSample format bytes
  · rw [opened.leading?_eq_none]
    intro previous
    rw [left, readSample_of_isOpen opened, whole]
  · obtain ⟨count, length, found⟩ := complete.exists_leading?_append rest
    rw [found]
    refine ⟨.ofNat (format.value sample), ?_, ?_⟩
    · rw [← length, List.take_left, ← SampleFormat.value_eq_ofDigits, UInt32.toNat_ofNat']
    · intro previous
      rw [left, readSample_append complete, ← length, List.drop_left]
      rfl

end Cursor

end Polyline
