import Polyline.Proofs.Sample.Reading
import Polyline.Proofs.ZigZag

/-! Written samples: they read back as the difference they were made from, and no sample with that
difference is shorter. -/

set_option autoImplicit false

namespace Polyline.SampleFormat

theorem encodeCode_of_hasMore {format : SampleFormat} {code : UInt32}
    (more : format.hasMore code = true) :
    format.encodeCode code =
      format.flaggedByte code :: format.encodeCode (code >>> format.groupBits) := by
  rw [encodeCode, if_pos more]

theorem encodeCode_of_not_hasMore {format : SampleFormat} {code : UInt32}
    (single : format.hasMore code = false) : format.encodeCode code = [format.finalByte code] := by
  rw [encodeCode, if_neg (Bool.eq_false_iff.1 single)]

theorem isSample_encodeCode (format : SampleFormat) (code : UInt32) :
    format.IsSample (format.encodeCode code) := by
  induction code using encodeCode.induct format with
  | case1 code more ih =>
    rw [encodeCode_of_hasMore more]
    exact .more (isTerminator_flaggedByte format code) ih
  | case2 code single =>
    have single := Bool.eq_false_iff.2 single
    rw [encodeCode_of_not_hasMore single]
    exact .last (isTerminator_finalByte single)

theorem value_encodeCode (format : SampleFormat) (code : UInt32) :
    format.value (format.encodeCode code) = code.toNat := by
  induction code using encodeCode.induct format with
  | case1 code more ih =>
    rw [encodeCode_of_hasMore more, value, ih, toNat_payload_flaggedByte,
      toNat_shiftRight_groupBits, Nat.mod_add_div]
  | case2 code single =>
    have single := Bool.eq_false_iff.2 single
    rw [encodeCode_of_not_hasMore single, value, value, toNat_payload_finalByte single,
      Nat.mul_zero, Nat.add_zero]

/-- Every number of groups that holds the code is enough for its bytes. -/
theorem length_encodeCode_le {format : SampleFormat} {code : UInt32} {count : Nat}
    (positive : 0 < count) (below : code.toNat < format.radix ^ count) :
    (format.encodeCode code).length ≤ count := by
  induction count generalizing code with
  | zero => cases positive
  | succ count ih =>
    cases more : format.hasMore code with
    | false =>
      rw [encodeCode_of_not_hasMore more]
      exact Nat.succ_le_succ (Nat.zero_le count)
    | true =>
      have large := hasMore_iff.1 more
      have positive : 0 < count := by
        rcases Nat.eq_zero_or_pos count with rfl | positive
        · rw [Nat.zero_add, Nat.pow_one] at below
          omega
        · exact positive
      have shifted : (code >>> format.groupBits).toNat < format.radix ^ count := by
        rw [toNat_shiftRight_groupBits]
        rw [Nat.pow_succ] at below
        exact Nat.div_lt_of_lt_mul (Nat.mul_comm _ _ ▸ below)
      rw [encodeCode_of_hasMore more]
      exact Nat.succ_le_succ (ih positive shifted)

theorem isSample_encode (format : SampleFormat) (delta : Int32) :
    format.IsSample (format.encode delta) := isSample_encodeCode format _

@[simp] theorem delta_encode (format : SampleFormat) (difference : Int32) :
    format.delta (format.encode difference) = difference := by
  rw [delta, encode, value_encodeCode, UInt32.ofNat_toNat, ZigZag.decode_encode]

/-- The written form of a difference is as short as any other sample that holds it. -/
theorem length_encode_delta_le {format : SampleFormat} {sample : Bytes}
    (complete : format.IsSample sample) :
    (format.encode (format.delta sample)).length ≤ sample.length := by
  apply length_encodeCode_le complete.length_pos
  rw [delta, ZigZag.encode_decode, UInt32.toNat_ofNat']
  exact Nat.lt_of_le_of_lt (Nat.mod_le _ _) (value_lt format sample)

/-! ## Written bytes -/

theorem toNat_mem_encodeCode {format : SampleFormat} {code : UInt32} {byte : UInt8}
    (member : byte ∈ format.encodeCode code) :
    format.offset.toNat ≤ byte.toNat ∧
      byte.toNat < format.offset.toNat + 2 * format.radix := by
  have sum := offset_add_radix format
  induction code using encodeCode.induct format with
  | case1 code more ih =>
    have group := Nat.mod_lt code.toNat (radix_pos format)
    rw [encodeCode_of_hasMore more] at member
    rcases List.mem_cons.1 member with rfl | later
    · rw [toNat_flaggedByte]
      omega
    · exact ih later
  | case2 code single =>
    have single := Bool.eq_false_iff.2 single
    have small : ¬ format.radix ≤ code.toNat := by simp [← hasMore_iff, single]
    rw [encodeCode_of_not_hasMore single] at member
    rw [List.mem_singleton.1 member, toNat_finalByte single]
    omega

theorem toNat_mem_flatMap_encode {format : SampleFormat} {differences : List Int32} {byte : UInt8}
    (member : byte ∈ differences.flatMap format.encode) :
    format.offset.toNat ≤ byte.toNat ∧
      byte.toNat < format.offset.toNat + 2 * format.radix := by
  obtain ⟨difference, _, written⟩ := List.mem_flatMap.1 member
  exact toNat_mem_encodeCode written

/-- The bytes of a code in the text format as they are before the offset is added to them. -/
def summands (code : UInt32) : Bytes :=
  if hasMore .varint5 code then
    (0x20 ||| (code &&& 0x1f)).toUInt8 :: summands (code >>> groupBits .varint5)
  else [code.toUInt8]
  termination_by code.toNat
  decreasing_by exact shiftRight_lt_of_hasMore (by assumption)

theorem encodeCode_varint5 (code : UInt32) :
    encodeCode .varint5 code = (summands code).map (· + offset .varint5) := by
  induction code using encodeCode.induct .varint5 with
  | case1 code more ih =>
    rw [encodeCode_of_hasMore more, summands, if_pos more, List.map_cons, ih]
    rfl
  | case2 code single =>
    rw [encodeCode_of_not_hasMore (Bool.eq_false_iff.2 single), summands, if_neg single]
    rfl

/-- The sum of such a byte and the offset is far from wrapping around. -/
theorem toNat_lt_of_mem_summands {code : UInt32} {summand : UInt8}
    (member : summand ∈ summands code) : summand.toNat < 2 * radix .varint5 := by
  simp only [radix]
  induction code using encodeCode.induct .varint5 with
  | case1 code more ih =>
    rw [summands, if_pos more] at member
    rcases List.mem_cons.1 member with rfl | later
    · rw [UInt32.toNat_toUInt8, toNat_flaggedGroup]
      omega
    · exact ih later
  | case2 code single =>
    have small : ¬ radix .varint5 ≤ code.toNat := mt hasMore_iff.2 single
    simp only [radix] at small
    rw [summands, if_neg single] at member
    rw [List.mem_singleton.1 member, UInt32.toNat_toUInt8]
    omega

theorem isBlank_eq_false {byte : UInt8} (inked : 32 < byte.toNat) : isBlank byte = false := by
  simp [isBlank, ← UInt8.toNat_inj]
  omega

theorem trim_of_isText {format : SampleFormat} {bytes : Bytes} (textual : format.isText = true)
    (inked : ∀ byte ∈ bytes, isBlank byte = false) : format.trim bytes = bytes := by
  have kept : bytes.reverse.dropWhile isBlank = bytes.reverse := by
    cases reversed : bytes.reverse with
    | nil => rfl
    | cons last others =>
      have member : last ∈ bytes := by
        rw [← List.mem_reverse, reversed]
        exact List.mem_cons_self
      simp [inked last member]
  rw [trim, if_pos textual, kept, List.reverse_reverse]

theorem trim_flatMap_encode (format : SampleFormat) (differences : List Int32) :
    format.trim (differences.flatMap format.encode) = differences.flatMap format.encode := by
  cases format with
  | varint5 =>
    apply trim_of_isText rfl
    intro byte member
    have above : 63 ≤ byte.toNat := (toNat_mem_flatMap_encode member).1
    exact isBlank_eq_false (by omega)
  | varint7 => rfl

theorem length_trim_le (format : SampleFormat) (bytes : Bytes) :
    (format.trim bytes).length ≤ bytes.length := by
  unfold trim
  split
  · have shorter : (bytes.reverse.dropWhile isBlank).length ≤ bytes.reverse.length :=
      (List.dropWhile_sublist isBlank).length_le
    rwa [List.length_reverse] at shorter ⊢
  · exact Nat.le_refl _

end Polyline.SampleFormat
