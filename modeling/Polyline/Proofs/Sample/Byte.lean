import Polyline.Proofs.Word
import Polyline.Sample.Format

/-! What single bytes of samples mean as numbers, both those that are written and those that are
only read. -/

set_option autoImplicit false

namespace Polyline.SampleFormat

/-- The number of payloads, which is also the weight of a group over the one before it. -/
def radix : SampleFormat → Nat
  | .varint5 => 32
  | .varint7 => 128

/-- The first of the bytes that have a continuation flag. All bytes below it are terminators. -/
def firstFlagged : SampleFormat → Nat
  | .varint5 => 95
  | .varint7 => 128

theorem radix_eq_two_pow (format : SampleFormat) : format.radix = 2 ^ format.groupBits.toNat := by
  cases format <;> rfl

theorem two_le_radix (format : SampleFormat) : 2 ≤ format.radix := by
  cases format <;> decide

theorem radix_pos (format : SampleFormat) : 0 < format.radix :=
  Nat.lt_of_lt_of_le Nat.two_pos (two_le_radix format)

theorem offset_add_radix (format : SampleFormat) :
    format.offset.toNat + format.radix = format.firstFlagged := by
  cases format <;> rfl

/-! ## Reading -/

theorem toInt_aboveOffset (byte : UInt8) : (aboveOffset byte).toInt = (byte.toNat : Int) - 63 := by
  have below := byte.toNat_lt
  have small : byte.toUInt32.toNat < 2 ^ 31 := by simp; omega
  have offsetSmall : (offset .varint5).toUInt32.toNat < 2 ^ 31 := by decide
  unfold aboveOffset
  rw [Int32.toInt_sub, Word.toInt_toInt32, Word.toInt_toInt32, if_pos small, if_pos offsetSmall]
  have exact : (byte.toUInt32.toNat : Int) - ((offset .varint5).toUInt32.toNat : Int) =
      (byte.toNat : Int) - 63 := rfl
  rw [exact]
  exact Int.bmod_eq_of_le (by omega) (by omega)

theorem isTerminator_iff {format : SampleFormat} {byte : UInt8} :
    format.isTerminator byte = true ↔ byte.toNat < format.firstFlagged := by
  cases format with
  | varint5 =>
    have above := toInt_aboveOffset byte
    simp [isTerminator, firstFlagged, Int32.lt_iff_toInt_lt]
    omega
  | varint7 =>
    have flag : ∀ value : Fin 256, value.val &&& 128 = 0 ↔ value.val < 128 := by decide +kernel
    simpa [isTerminator, firstFlagged, ← UInt8.toNat_inj] using flag ⟨byte.toNat, byte.toNat_lt⟩

/-- The distance of a byte from the offset, modulo the number of payloads. Below the offset of 63 it
is counted from the byte 31, which is 63 less 32. -/
theorem toNat_payload (format : SampleFormat) (byte : UInt8) :
    (format.payload byte).toNat =
      match format with
      | .varint5 => (byte.toNat + 1) % 32
      | .varint7 => byte.toNat % 128 := by
  have below := byte.toNat_lt
  cases format with
  | varint5 =>
    have above := toInt_aboveOffset byte
    have word := Word.toInt_toNat_toUInt32 (aboveOffset byte)
    have group : (payload .varint5 byte).toNat = (aboveOffset byte).toUInt32.toNat % 2 ^ 5 :=
      Nat.and_two_pow_sub_one_eq_mod _ 5
    rw [group]
    split at word <;> dsimp only <;> omega
  | varint7 => exact Nat.and_two_pow_sub_one_eq_mod _ 7

theorem toNat_payload_lt (format : SampleFormat) (byte : UInt8) :
    (format.payload byte).toNat < format.radix := by
  rw [toNat_payload]
  cases format
  · exact Nat.mod_lt _ (by decide)
  · exact Nat.mod_lt _ (by decide)

/-! ## Writing -/

theorem hasMore_iff {format : SampleFormat} {code : UInt32} :
    format.hasMore code = true ↔ format.radix ≤ code.toNat := by
  cases format with
  | varint5 => simp [hasMore, radix, UInt32.le_iff_toNat_le]
  | varint7 =>
    simp [hasMore, radix, UInt32.lt_iff_toNat_lt]
    omega

theorem toNat_shiftRight_groupBits (format : SampleFormat) (code : UInt32) :
    (code >>> format.groupBits).toNat = code.toNat / format.radix := by
  cases format <;> simp [groupBits, radix, Nat.shiftRight_eq_div_pow]

theorem toNat_flaggedGroup (code : UInt32) :
    (0x20 ||| (code &&& 0x1f)).toNat = 32 + code.toNat % 32 := by
  have masked : (code &&& 0x1f).toNat = code.toNat % 2 ^ 5 := Nat.and_two_pow_sub_one_eq_mod _ 5
  have marked : 2 ^ 5 * 1 + code.toNat % 2 ^ 5 = (2 ^ 5 * 1) ||| (code.toNat % 2 ^ 5) :=
    Nat.two_pow_add_eq_or_of_lt (Nat.mod_lt _ (by decide)) 1
  rw [UInt32.toNat_or, masked]
  exact marked.symm

theorem toNat_flaggedByte (format : SampleFormat) (code : UInt32) :
    (format.flaggedByte code).toNat = format.firstFlagged + code.toNat % format.radix := by
  cases format with
  | varint5 =>
    simp only [flaggedByte, firstFlagged, radix, offset]
    rw [UInt8.toNat_add, UInt32.toNat_toUInt8, toNat_flaggedGroup]
    simp
    omega
  | varint7 =>
    have masked : (code &&& 0x7f).toNat = code.toNat % 2 ^ 7 := Nat.and_two_pow_sub_one_eq_mod _ 7
    have marked : 2 ^ 7 * 1 + code.toNat % 2 ^ 7 = (2 ^ 7 * 1) ||| (code.toNat % 2 ^ 7) :=
      Nat.two_pow_add_eq_or_of_lt (Nat.mod_lt _ (by decide)) 1
    have group : (code &&& 0x7f).toUInt8.toNat = code.toNat % 2 ^ 7 := by
      rw [UInt32.toNat_toUInt8, masked]
      omega
    simp only [flaggedByte, firstFlagged, radix]
    rw [UInt8.toNat_or, group]
    exact marked.symm

theorem toNat_finalByte {format : SampleFormat} {code : UInt32}
    (single : format.hasMore code = false) :
    (format.finalByte code).toNat = format.offset.toNat + code.toNat := by
  have small : code.toNat < format.radix := by
    rw [← Nat.not_le, ← hasMore_iff, single]
    exact Bool.false_ne_true
  cases format with
  | varint5 =>
    simp only [radix] at small
    simp only [finalByte, offset]
    rw [UInt8.toNat_add, UInt32.toNat_toUInt8]
    simp
    omega
  | varint7 =>
    simp only [radix] at small
    have masked : (code &&& 0x7f).toNat = code.toNat % 2 ^ 7 := Nat.and_two_pow_sub_one_eq_mod _ 7
    simp only [finalByte, offset]
    rw [UInt32.toNat_toUInt8, masked]
    simp
    omega

/-! ## Written bytes read back -/

theorem isTerminator_flaggedByte (format : SampleFormat) (code : UInt32) :
    format.isTerminator (format.flaggedByte code) = false := by
  rw [Bool.eq_false_iff, Ne, isTerminator_iff, toNat_flaggedByte]
  omega

theorem toNat_payload_flaggedByte (format : SampleFormat) (code : UInt32) :
    (format.payload (format.flaggedByte code)).toNat = code.toNat % format.radix := by
  rw [toNat_payload, toNat_flaggedByte]
  cases format <;> simp only [firstFlagged, radix] <;> omega

theorem isTerminator_finalByte {format : SampleFormat} {code : UInt32}
    (single : format.hasMore code = false) :
    format.isTerminator (format.finalByte code) = true := by
  have small : ¬ format.radix ≤ code.toNat := by simp [← hasMore_iff, single]
  have sum := offset_add_radix format
  rw [isTerminator_iff, toNat_finalByte single]
  omega

theorem toNat_payload_finalByte {format : SampleFormat} {code : UInt32}
    (single : format.hasMore code = false) :
    (format.payload (format.finalByte code)).toNat = code.toNat := by
  have small : ¬ format.radix ≤ code.toNat := by simp [← hasMore_iff, single]
  rw [toNat_payload, toNat_finalByte single]
  cases format <;> simp only [radix, offset] at * <;> simp <;> omega

end Polyline.SampleFormat
