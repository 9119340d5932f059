import Polyline.Proofs.Sample.Byte
import Polyline.Proofs.Sample.Framing
import Polyline.Sample.Cursor

/-! Reading takes one sample at a time off a buffer. The code of a sample is the number that its
payloads spell, of which a word keeps thirty-two bits. -/

set_option autoImplicit false

namespace Polyline

namespace SampleFormat

/-- The number that the payloads of a byte string spell, lowest group first. -/
def value (format : SampleFormat) : Bytes → Nat
  | [] => 0
  | byte :: rest => (format.payload byte).toNat + format.radix * format.value rest

/-- The difference that a sample holds. -/
def delta (format : SampleFormat) (sample : Bytes) : Int32 :=
  ZigZag.decode (.ofNat (format.value sample))

theorem value_lt (format : SampleFormat) (bytes : Bytes) :
    format.value bytes < format.radix ^ bytes.length := by
  induction bytes with
  | nil => exact Nat.one_pos
  | cons byte rest ih =>
    have group := toNat_payload_lt format byte
    have others := Nat.mul_le_mul_left format.radix (Nat.succ_le_of_lt ih)
    rw [value, List.length_cons, Nat.pow_succ, Nat.mul_comm _ format.radix]
    rw [Nat.mul_succ] at others
    omega

end SampleFormat

namespace Cursor

variable {format : SampleFormat}

theorem readGroups_nil (start : Nat) (code shift : UInt32) (position : Nat) :
    readGroups format start code shift ⟨position, []⟩ =
      (.error ⟨start, position - start⟩, ⟨position, []⟩) := by
  rw [readGroups]
  rfl

theorem readGroups_cons (start : Nat) (code shift : UInt32) (position : Nat) (byte : UInt8)
    (rest : Bytes) :
    readGroups format start code shift ⟨position, byte :: rest⟩ =
      if format.isTerminator byte then
        (.ok (code ||| Word.shiftUp (format.payload byte) shift), ⟨position + 1, rest⟩)
      else
        readGroups format start (code ||| Word.shiftUp (format.payload byte) shift)
          (Word.addSaturating shift format.groupBits) ⟨position + 1, rest⟩ := by
  rw [readGroups]
  rfl

theorem readGroups_of_isOpen {bytes : Bytes} (opened : format.IsOpen bytes) (start : Nat)
    (code shift : UInt32) (position : Nat) :
    readGroups format start code shift ⟨position, bytes⟩ =
      (.error ⟨start, position + bytes.length - start⟩, ⟨position + bytes.length, []⟩) := by
  induction bytes generalizing code shift position with
  | nil => exact readGroups_nil start code shift position
  | cons byte bytes ih =>
    obtain ⟨continues, others⟩ := List.forall_mem_cons.1 opened
    rw [readGroups_cons, continues, if_neg Bool.false_ne_true, ih others, List.length_cons,
      Nat.add_assoc position, Nat.add_comm 1]

/-- The groups read so far stay below the place of the next one, also where that place has moved out
of the word. -/
private theorem gathered_lt {code shift : UInt32} (below : code.toNat < 2 ^ shift.toNat)
    (byte : UInt8) :
    (code ||| Word.shiftUp (format.payload byte) shift).toNat <
      2 ^ (Word.addSaturating shift format.groupBits).toNat := by
  apply Word.lt_two_pow_addSaturating
  have group := SampleFormat.toNat_payload_lt format byte
  have moved := Nat.mul_le_mul_right (2 ^ shift.toNat) (Nat.succ_le_of_lt group)
  rw [Nat.succ_mul, SampleFormat.radix_eq_two_pow, ← Nat.pow_add,
    Nat.add_comm format.groupBits.toNat]
    at moved
  rw [Word.toNat_or_shiftUp _ below]
  exact Nat.lt_of_le_of_lt (Nat.mod_le _ _) (by omega)

theorem readGroups_append {sample : Bytes} (complete : format.IsSample sample) (rest : Bytes)
    (start : Nat) {code shift : UInt32} (below : code.toNat < 2 ^ shift.toNat) (position : Nat) :
    readGroups format start code shift ⟨position, sample ++ rest⟩ =
      (.ok (.ofNat (code.toNat + format.value sample * 2 ^ shift.toNat)),
        ⟨position + sample.length, rest⟩) := by
  induction complete generalizing code shift position with
  | @last byte terminates =>
    have gathered := Word.toNat_or_shiftUp (format.payload byte) below
    rw [List.cons_append, readGroups_cons, terminates, if_pos rfl]
    refine Prod.ext (congrArg Except.ok (UInt32.toNat_inj.1 ?_)) rfl
    simpa [SampleFormat.value] using gathered
  | @more byte sample continues _ ih =>
    have gathered := Word.toNat_or_shiftUp (format.payload byte) below
    rw [List.cons_append, readGroups_cons, continues, if_neg Bool.false_ne_true,
      ih (gathered_lt below byte), List.length_cons, Nat.add_assoc position, Nat.add_comm 1]
    refine Prod.ext (congrArg Except.ok (UInt32.toNat_inj.1 ?_)) rfl
    -- The value of the rest moves up by one group, which is the weight it has behind this byte.
    have moved : format.value sample * 2 ^ (shift.toNat + format.groupBits.toNat) =
        format.radix * format.value sample * 2 ^ shift.toNat := by
      rw [Nat.pow_add, SampleFormat.radix_eq_two_pow]
      ac_rfl
    rw [UInt32.toNat_ofNat', UInt32.toNat_ofNat', Nat.add_mod,
      Word.mul_two_pow_addSaturating_mod, moved, gathered, Nat.mod_mod, ← Nat.add_mod,
      SampleFormat.value, Nat.add_mul, Nat.add_assoc]

/-- Reading in front of a sample takes all of its bytes and none behind them. -/
theorem readSample_append {sample : Bytes} (complete : format.IsSample sample) (rest : Bytes)
    (previous : Int32) (position : Nat) :
    readSample format previous ⟨position, sample ++ rest⟩ =
      (.ok (previous + format.delta sample), ⟨position + sample.length, rest⟩) := by
  have zero : (0 : UInt32).toNat < 2 ^ (0 : UInt32).toNat := by decide
  rw [readSample, readGroups_append complete rest position zero]
  simp [SampleFormat.delta]

theorem readSample_start {sample : Bytes} (complete : format.IsSample sample) (previous : Int32) :
    readSample format previous (.start sample) =
      (.ok (previous + format.delta sample), ⟨sample.length, []⟩) := by
  have taken := readSample_append complete [] previous 0
  rwa [List.append_nil, Nat.zero_add] at taken

theorem readSample_start_zero {sample : Bytes} (complete : format.IsSample sample) :
    readSample format 0 (.start sample) = (.ok (format.delta sample), ⟨sample.length, []⟩) := by
  rw [readSample_start complete, Int32.zero_add]

/-- Where no terminator is left, reading fails with all the bytes that are left. -/
theorem readSample_of_isOpen {bytes : Bytes} (opened : format.IsOpen bytes) (previous : Int32)
    (position : Nat) :
    readSample format previous ⟨position, bytes⟩ =
      (.error ⟨position, bytes.length⟩, ⟨position + bytes.length, []⟩) := by
  rw [readSample, readGroups_of_isOpen opened]
  simp

/-! ## Moving forward -/

/-- One place in a buffer is another one or behind it. -/
def LeadsTo (before after : Cursor) : Prop :=
  ∃ taken, before.rest = taken ++ after.rest ∧ after.position = before.position + taken.length

theorem LeadsTo.refl (cursor : Cursor) : cursor.LeadsTo cursor := ⟨[], rfl, rfl⟩

theorem LeadsTo.trans {first second third : Cursor} (front : first.LeadsTo second)
    (back : second.LeadsTo third) : first.LeadsTo third := by
  obtain ⟨taken, rest, position⟩ := front
  obtain ⟨further, furtherRest, furtherPosition⟩ := back
  refine ⟨taken ++ further, ?_, ?_⟩
  · rw [rest, furtherRest, List.append_assoc]
  · rw [furtherPosition, position, List.length_append, Nat.add_assoc]

theorem LeadsTo.position_le {before after : Cursor} (moved : before.LeadsTo after) :
    before.position ≤ after.position := by
  obtain ⟨taken, _, position⟩ := moved
  omega

theorem LeadsTo.position_add_remaining {before after : Cursor} (moved : before.LeadsTo after) :
    after.position + after.remaining = before.position + before.remaining := by
  obtain ⟨taken, rest, position⟩ := moved
  rw [remaining, remaining, rest, position, List.length_append, Nat.add_assoc]

theorem readSample_leadsTo (format : SampleFormat) (previous : Int32) (cursor : Cursor) :
    cursor.LeadsTo (cursor.readSample format previous).2 := by
  obtain ⟨position, bytes⟩ := cursor
  rcases SampleFormat.isOpen_or_exists_isSample format bytes with
    opened | ⟨sample, rest, complete, rfl⟩
  · rw [readSample_of_isOpen opened]
    exact ⟨bytes, (List.append_nil bytes).symm, rfl⟩
  · rw [readSample_append complete]
    exact ⟨sample, rfl, rfl⟩

end Cursor

end Polyline
