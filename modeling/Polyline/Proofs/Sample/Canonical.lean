import Polyline.Proofs.Sample.Writing

/-! The samples that are written forms of the differences they hold. A sample is none if one of its
bytes is another spelling of a group, if its last group is there without need, or if it has bits
beyond a word. -/

set_option autoImplicit false

namespace Polyline.SampleFormat

variable {format : SampleFormat} {sample leading : Bytes} {byte final : UInt8}

/-! ## Bytes -/

/-- Bytes in the range of those that are written. -/
def IsInRange (format : SampleFormat) (byte : UInt8) : Prop :=
  format.offset.toNat ≤ byte.toNat ∧ byte.toNat < format.offset.toNat + 2 * format.radix

theorem toNat_eq_of_isTerminator (inRange : format.IsInRange byte)
    (terminates : format.isTerminator byte = true) :
    byte.toNat = format.offset.toNat + (format.payload byte).toNat := by
  obtain ⟨above, below⟩ := inRange
  have first := isTerminator_iff.1 terminates
  rw [toNat_payload]
  cases format <;> simp only [offset, radix, firstFlagged] at * <;> simp at * <;> omega

theorem toNat_eq_of_not_isTerminator (inRange : format.IsInRange byte)
    (continues : format.isTerminator byte = false) :
    byte.toNat = format.firstFlagged + (format.payload byte).toNat := by
  obtain ⟨above, below⟩ := inRange
  have behind : ¬ byte.toNat < format.firstFlagged := by
    rw [← isTerminator_iff, continues]
    exact Bool.false_ne_true
  rw [toNat_payload]
  cases format <;> simp only [offset, radix, firstFlagged] at * <;> simp at * <;> omega

/-! ## Values -/

theorem value_concat (format : SampleFormat) (leading : Bytes) (final : UInt8) :
    format.value (leading ++ [final]) =
      format.value leading + format.radix ^ leading.length * (format.payload final).toNat := by
  induction leading with
  | nil => simp [value]
  | cons byte leading ih =>
    rw [List.cons_append, value, value, ih, List.length_cons, Nat.pow_succ, Nat.mul_add,
      Nat.mul_comm _ format.radix, Nat.add_assoc, Nat.mul_assoc]

/-- How many groups a word has bits for, apart from its last one. -/
def wholeGroups : SampleFormat → Nat
  | .varint5 => 6
  | .varint7 => 4

/-- The number of payloads that the last group of a word can have. -/
def lastRadix : SampleFormat → Nat
  | .varint5 => 4
  | .varint7 => 16

theorem radix_pow_mul_lastRadix (format : SampleFormat) :
    format.radix ^ format.wholeGroups * format.lastRadix = 2 ^ 32 := by
  cases format <;> rfl

theorem lastRadix_le_radix (format : SampleFormat) : format.lastRadix ≤ format.radix := by
  cases format <;> decide

theorem radix_pow_wholeGroups_le (format : SampleFormat) :
    format.radix ^ format.wholeGroups ≤ 2 ^ 32 := by
  cases format <;> decide

/-- If the last group has bits, it has the weight of a word from some length on. -/
theorem two_pow_le_radix_pow_mul {length group : Nat} (longer : format.wholeGroups < length)
    (bits : 0 < group) : 2 ^ 32 ≤ format.radix ^ length * group :=
  calc 2 ^ 32 = format.radix ^ format.wholeGroups * format.lastRadix :=
        (radix_pow_mul_lastRadix format).symm
    _ ≤ format.radix ^ format.wholeGroups * format.radix :=
      Nat.mul_le_mul_left _ (lastRadix_le_radix format)
    _ = format.radix ^ (format.wholeGroups + 1) := (Nat.pow_succ ..).symm
    _ ≤ format.radix ^ length := Nat.pow_le_pow_right (radix_pos format) longer
    _ ≤ format.radix ^ length * group := Nat.le_mul_of_pos_right _ bits

/-- Unless its last group has no bits, the length of a sample and its last group tell whether a word
holds its value. -/
theorem value_concat_lt_iff (bits : leading ≠ [] → 0 < (format.payload final).toNat) :
    format.value (leading ++ [final]) < 2 ^ 32 ↔
      leading.length ≤ format.wholeGroups ∧
        (leading.length = format.wholeGroups →
          (format.payload final).toNat < format.lastRadix) := by
  have word := radix_pow_mul_lastRadix format
  have below := value_lt format leading
  have whole := value_concat format leading final
  obtain fewer | equal | more := Nat.lt_trichotomy leading.length format.wholeGroups
  · have bounded := value_lt format (leading ++ [final])
    have room : format.radix ^ (leading ++ [final]).length ≤ format.radix ^ format.wholeGroups :=
      Nat.pow_le_pow_right (radix_pos format) (by simpa [Nat.succ_le_iff] using fewer)
    have held := Nat.lt_of_lt_of_le bounded (Nat.le_trans room (radix_pow_wholeGroups_le format))
    exact iff_of_true held ⟨Nat.le_of_lt fewer, fun equal => absurd equal (Nat.ne_of_lt fewer)⟩
  · rw [equal] at below whole
    rw [whole, ← word]
    constructor
    · intro inside
      refine ⟨Nat.le_of_eq equal, fun _ => Nat.lt_of_not_le fun large => ?_⟩
      have beyond := Nat.mul_le_mul_left (format.radix ^ format.wholeGroups) large
      omega
    · rintro ⟨_, small⟩
      have moved := Nat.mul_le_mul_left (format.radix ^ format.wholeGroups)
        (Nat.succ_le_of_lt (small equal))
      rw [Nat.mul_succ] at moved
      omega
  · have filled : leading ≠ [] := by
      rintro rfl
      exact absurd more (Nat.not_lt_zero _)
    have beyond := two_pow_le_radix_pow_mul more (bits filled)
    refine iff_of_false ?_ fun few => absurd few.1 (Nat.not_le_of_lt more)
    omega

/-! ## Written forms -/

/-- A sample of more than one byte has bits in its last group. -/
def EndsInBits (format : SampleFormat) (sample : Bytes) : Prop :=
  sample.length ≠ 1 → sample.getLast? ≠ some format.offset

theorem endsInBits_concat :
    format.EndsInBits (leading ++ [final]) ↔ (leading ≠ [] → final ≠ format.offset) := by
  simp [EndsInBits]

theorem EndsInBits.payload_pos (ended : format.EndsInBits (leading ++ [final]))
    (inRange : format.IsInRange final) (terminates : format.isTerminator final = true)
    (longer : leading ≠ []) : 0 < (format.payload final).toNat := by
  have exact := toNat_eq_of_isTerminator inRange terminates
  have unlike := endsInBits_concat.1 ended longer
  apply Nat.pos_of_ne_zero
  intro empty
  rw [empty, Nat.add_zero] at exact
  exact unlike (UInt8.toNat_inj.1 exact)

theorem getLast?_encodeCode_ne {code : UInt32} (bits : 0 < code.toNat) :
    (format.encodeCode code).getLast? ≠ some format.offset := by
  induction code using encodeCode.induct format with
  | case1 code more ih =>
    have shifted : 0 < (code >>> format.groupBits).toNat := by
      rw [toNat_shiftRight_groupBits]
      exact Nat.div_pos (hasMore_iff.1 more) (radix_pos format)
    obtain ⟨leading, final, divided, _⟩ :=
      (isSample_encodeCode format (code >>> format.groupBits)).exists_eq_append
    have last := ih shifted
    rw [divided, List.getLast?_concat] at last
    rw [encodeCode_of_hasMore more, divided, ← List.cons_append, List.getLast?_concat]
    exact last
  | case2 code single =>
    have single := Bool.eq_false_iff.2 single
    rw [encodeCode_of_not_hasMore single, List.getLast?_singleton]
    intro same
    have number := toNat_finalByte single
    rw [Option.some.inj same] at number
    omega

theorem endsInBits_encodeCode (format : SampleFormat) (code : UInt32) :
    format.EndsInBits (format.encodeCode code) := by
  intro several
  apply getLast?_encodeCode_ne
  apply Nat.pos_of_ne_zero
  intro zero
  have single : format.hasMore code = false := by
    rw [Bool.eq_false_iff, Ne, hasMore_iff, zero]
    exact Nat.not_le_of_lt (radix_pos format)
  rw [encodeCode_of_not_hasMore single] at several
  exact several rfl

theorem encodeCode_payload (inRange : format.IsInRange byte)
    (terminates : format.isTerminator byte = true) :
    format.encodeCode (format.payload byte) = [byte] := by
  have single : format.hasMore (format.payload byte) = false := by
    rw [Bool.eq_false_iff, Ne, hasMore_iff]
    exact Nat.not_le_of_lt (toNat_payload_lt format byte)
  have same : format.finalByte (format.payload byte) = byte := by
    apply UInt8.toNat_inj.1
    rw [toNat_finalByte single, toNat_eq_of_isTerminator inRange terminates]
  rw [encodeCode_of_not_hasMore single, same]

/-- A code with more groups than its first one starts with the byte of that group. -/
theorem encodeCode_payload_add (inRange : format.IsInRange byte)
    (continues : format.isTerminator byte = false) {further : Nat} (bits : 0 < further)
    (held : (format.payload byte).toNat + format.radix * further < 2 ^ 32) :
    format.encodeCode (.ofNat ((format.payload byte).toNat + format.radix * further)) =
      byte :: format.encodeCode (.ofNat further) := by
  have group := toNat_payload_lt format byte
  have weight := Nat.le_mul_of_pos_right format.radix bits
  have smaller : further < 2 ^ 32 := by
    have least := Nat.le_mul_of_pos_left further (radix_pos format)
    omega
  have number := UInt32.toNat_ofNat_of_lt' held
  generalize UInt32.ofNat ((format.payload byte).toNat + format.radix * further) = code at number ⊢
  have more : format.hasMore code = true := by
    rw [hasMore_iff, number]
    omega
  have low : format.flaggedByte code = byte := by
    apply UInt8.toNat_inj.1
    rw [toNat_flaggedByte, number, Nat.add_mul_mod_self_left, Nat.mod_eq_of_lt group,
      toNat_eq_of_not_isTerminator inRange continues]
  have high : code >>> format.groupBits = .ofNat further := by
    apply UInt32.toNat_inj.1
    rw [toNat_shiftRight_groupBits, number, Nat.add_mul_div_left _ _ (radix_pos format),
      Nat.div_eq_of_lt group, Nat.zero_add, UInt32.toNat_ofNat_of_lt' smaller]
  rw [encodeCode_of_hasMore more, low, high]

/-- The code of a sample is written with the groups of the sample, if it needs all of them and a
word holds it. -/
theorem encodeCode_value (complete : format.IsSample sample)
    (inRange : ∀ byte ∈ sample, format.IsInRange byte) (ended : format.EndsInBits sample)
    (held : format.value sample < 2 ^ 32) :
    format.encodeCode (.ofNat (format.value sample)) = sample := by
  induction complete with
  | @last byte terminates =>
    have here := inRange byte (List.mem_singleton_self byte)
    have number : UInt32.ofNat (format.value [byte]) = format.payload byte := by
      rw [value, value, Nat.mul_zero, Nat.add_zero, UInt32.ofNat_toNat]
    rw [number, encodeCode_payload here terminates]
  | @more byte rest continues complete ih =>
    obtain ⟨here, others⟩ := List.forall_mem_cons.1 inRange
    obtain ⟨leading, final, rfl, _, terminates⟩ := complete.exists_eq_append
    have inside : format.IsInRange final := others final (by simp)
    rw [← List.cons_append] at ended
    have bits := ended.payload_pos inside terminates (List.cons_ne_nil byte leading)
    have further : 0 < format.value (leading ++ [final]) := by
      have weight := Nat.mul_pos (Nat.pow_pos (n := leading.length) (radix_pos format)) bits
      rw [value_concat]
      omega
    have endedRest : format.EndsInBits (leading ++ [final]) :=
      endsInBits_concat.2 fun _ => endsInBits_concat.1 ended (List.cons_ne_nil byte leading)
    rw [value] at held ⊢
    have smaller := Nat.le_mul_of_pos_left (format.value (leading ++ [final])) (radix_pos format)
    rw [encodeCode_payload_add here continues further held, ih others endedRest (by omega)]

theorem encode_delta_eq_iff (complete : format.IsSample sample) :
    format.encode (format.delta sample) = sample ↔
      (∀ byte ∈ sample, format.IsInRange byte) ∧ format.EndsInBits sample ∧
        format.value sample < 2 ^ 32 := by
  rw [encode, delta, ZigZag.encode_decode]
  constructor
  · intro written
    have held := (UInt32.ofNat (format.value sample)).toNat_lt
    have ended := endsInBits_encodeCode format (.ofNat (format.value sample))
    rw [← value_encodeCode format] at held
    rw [written] at held ended
    refine ⟨?_, ended, held⟩
    intro byte member
    rw [← written] at member
    exact toNat_mem_encodeCode member
  · rintro ⟨inRange, ended, held⟩
    exact encodeCode_value complete inRange ended held

/-- A word holds what a sample spells if the sample has no more groups than a word, and no more bits
in its last one. -/
theorem value_lt_iff (complete : format.IsSample sample)
    (inRange : ∀ byte ∈ sample, format.IsInRange byte) (ended : format.EndsInBits sample) :
    format.value sample < 2 ^ 32 ↔
      sample.length ≤ format.wholeGroups + 1 ∧
        (sample.length = format.wholeGroups + 1 →
          ∀ last ∈ sample.getLast?, last.toNat < format.offset.toNat + format.lastRadix) := by
  obtain ⟨leading, final, rfl, _, terminates⟩ := complete.exists_eq_append
  have inside : format.IsInRange final := inRange final (by simp)
  have exact := toNat_eq_of_isTerminator inside terminates
  rw [value_concat_lt_iff (ended.payload_pos inside terminates)]
  simp [exact]

/-- The form of the samples that are written: each byte in range, no empty group at the end, and a
last group that still fits into a word where a sample is as long as any. -/
def IsCompact : SampleFormat → Bytes → Prop
  | .varint5, sample =>
    (∀ byte ∈ sample, 63 ≤ byte.toNat ∧ byte.toNat ≤ 126) ∧
      (sample.length ≠ 1 → sample.getLast? ≠ some 63) ∧ sample.length ≤ 7 ∧
      (sample.length = 7 → ∀ last ∈ sample.getLast?, last.toNat ≤ 66)
  | .varint7, sample =>
    (sample.length ≠ 1 → sample.getLast? ≠ some 0) ∧ sample.length ≤ 5 ∧
      (sample.length = 5 → ∀ last ∈ sample.getLast?, last.toNat ≤ 15)

theorem isCompact_iff (format : SampleFormat) (sample : Bytes) :
    format.IsCompact sample ↔
      (∀ byte ∈ sample, format.IsInRange byte) ∧ format.EndsInBits sample ∧
        sample.length ≤ format.wholeGroups + 1 ∧
        (sample.length = format.wholeGroups + 1 →
          ∀ last ∈ sample.getLast?, last.toNat < format.offset.toNat + format.lastRadix) := by
  cases format with
  | varint5 =>
    refine and_congr (forall₂_congr fun byte _ => and_congr Iff.rfl Nat.lt_succ_iff.symm) ?_
    refine and_congr Iff.rfl (and_congr Iff.rfl (imp_congr Iff.rfl ?_))
    exact forall₂_congr fun last _ => Nat.lt_succ_iff.symm
  | varint7 =>
    have all : ∀ byte ∈ sample, IsInRange .varint7 byte := fun byte _ =>
      ⟨Nat.zero_le _, byte.toNat_lt⟩
    refine Iff.trans ?_ (and_iff_right all).symm
    refine and_congr Iff.rfl (and_congr Iff.rfl (imp_congr Iff.rfl ?_))
    exact forall₂_congr fun last _ => by simp [offset, lastRadix]; omega

theorem encode_delta_eq_iff_isCompact (complete : format.IsSample sample) :
    format.encode (format.delta sample) = sample ↔ format.IsCompact sample := by
  rw [encode_delta_eq_iff complete, isCompact_iff]
  exact and_congr_right fun inRange => and_congr_right fun ended =>
    value_lt_iff complete inRange ended

/-- A difference has one written form, which is a sample, reads back as the difference, and is as
short as any sample that does. The samples that are written again as they are, once they have been
read, are exactly the compact ones. -/
theorem encode_isCanonical (format : SampleFormat) :
    (∀ delta,
      format.IsSample (format.encode delta) ∧
      (Cursor.start (format.encode delta)).readSample format 0 =
        (.ok delta, ⟨(format.encode delta).length, []⟩) ∧
      ∀ sample, format.IsSample sample →
        ((Cursor.start sample).readSample format 0).1 = .ok delta →
          (format.encode delta).length ≤ sample.length) ∧
    ∀ sample, format.IsSample sample → ∃ delta,
      (Cursor.start sample).readSample format 0 = (.ok delta, ⟨sample.length, []⟩) ∧
        (format.encode delta = sample ↔ format.IsCompact sample) := by
  constructor
  · intro delta
    have complete := isSample_encode format delta
    have back := Cursor.readSample_start_zero complete
    rw [delta_encode] at back
    refine ⟨complete, back, ?_⟩
    intro sample other held
    rw [Cursor.readSample_start_zero other] at held
    cases held
    exact length_encode_delta_le other
  · intro sample complete
    exact ⟨format.delta sample, Cursor.readSample_start_zero complete,
      encode_delta_eq_iff_isCompact complete⟩

end Polyline.SampleFormat
