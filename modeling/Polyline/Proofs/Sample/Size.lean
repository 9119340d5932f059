import Mathlib.Algebra.Order.BigOperators.Group.List
import Mathlib.Algebra.Order.Floor.Div
import Mathlib.Data.Nat.Size
import Mathlib.GroupTheory.GroupAction.Ring
import Polyline.Proofs.Differences
import Polyline.Proofs.Sample.Canonical

/-! How many bytes written samples take. The groups of a sample are as few as the bits of its code
allow, so the size of a stream lies between one byte and a full word for each of its samples, and
wider groups never take more bytes than narrower ones. -/

set_option autoImplicit false

namespace Polyline

/-- Where a number stands in the zig-zag order, counted from zero. -/
def ZigZag.rank (number : Int32) : Nat :=
  (if 0 ≤ number.toInt then 2 * number.toInt else -2 * number.toInt - 1).toNat

theorem ZigZag.toNat_encode_eq_rank (number : Int32) : (encode number).toNat = rank number := by
  have written := toNat_encode number
  unfold rank
  split at written <;> split <;> omega

/-- Any number of larger magnitude stands behind, whatever the signs are. -/
theorem ZigZag.rank_lt_rank {smaller larger : Int32}
    (less : smaller.toInt.natAbs < larger.toInt.natAbs) : rank smaller < rank larger := by
  unfold rank
  split <;> split <;> omega

namespace SampleFormat

variable {format : SampleFormat}

/-! ## Single samples -/

/-- So many bytes are enough for a difference exactly if so many groups hold its rank. -/
theorem length_encode_le_iff {delta : Int32} {count : Nat} (positive : 0 < count) :
    (format.encode delta).length ≤ count ↔ ZigZag.rank delta < format.radix ^ count := by
  rw [← ZigZag.toNat_encode_eq_rank, encode]
  constructor
  · intro few
    have held := value_lt format (format.encodeCode (ZigZag.encode delta))
    rw [value_encodeCode] at held
    exact Nat.lt_of_lt_of_le held (Nat.pow_le_pow_right (radix_pos format) few)
  · exact length_encodeCode_le positive

theorem length_encode_pos (format : SampleFormat) (delta : Int32) :
    0 < (format.encode delta).length := (isSample_encode format delta).length_pos

theorem rank_lt_radix_pow_length (format : SampleFormat) (delta : Int32) :
    ZigZag.rank delta < format.radix ^ (format.encode delta).length :=
  (length_encode_le_iff (length_encode_pos format delta)).1 (Nat.le_refl _)

/-- The bits of a rank in whole groups. Zero has no bits and takes a byte all the same. -/
theorem length_encode (format : SampleFormat) (delta : Int32) :
    (format.encode delta).length =
      max 1 ((ZigZag.rank delta).size ⌈/⌉ format.groupBits.toNat) := by
  have wide : 0 < format.groupBits.toNat := by cases format <;> decide
  apply eq_of_forall_ge_iff
  intro count
  rcases Nat.eq_zero_or_pos count with rfl | positive
  · exact iff_of_false (Nat.not_le_of_lt (length_encode_pos format delta)) (by simp)
  · rw [length_encode_le_iff positive, max_le_iff, ceilDiv_le_iff_le_mul wide, Nat.size_le,
      radix_eq_two_pow, Nat.pow_mul]
    exact (and_iff_right positive).symm

theorem length_encode_le_of_natAbs_lt (format : SampleFormat) {smaller larger : Int32}
    (less : smaller.toInt.natAbs < larger.toInt.natAbs) :
    (format.encode smaller).length ≤ (format.encode larger).length :=
  (length_encode_le_iff (length_encode_pos format larger)).2
    ((ZigZag.rank_lt_rank less).trans (rank_lt_radix_pow_length format larger))

/-- No difference takes more groups than a word has. -/
theorem length_encode_le (format : SampleFormat) (delta : Int32) :
    (format.encode delta).length ≤ format.wholeGroups + 1 := by
  have word : 2 ^ 32 ≤ format.radix ^ (format.wholeGroups + 1) * 1 :=
    two_pow_le_radix_pow_mul (Nat.lt_succ_self _) Nat.one_pos
  have below := (ZigZag.encode delta).toNat_lt
  rw [ZigZag.toNat_encode_eq_rank] at below
  rw [Nat.mul_one] at word
  exact (length_encode_le_iff (Nat.succ_pos _)).2 (below.trans_le word)

theorem length_encode_varint7_le (delta : Int32) :
    (SampleFormat.encode .varint7 delta).length ≤ (SampleFormat.encode .varint5 delta).length := by
  have wider : radix .varint5 ≤ radix .varint7 := by decide
  exact (length_encode_le_iff (length_encode_pos .varint5 delta)).2
    ((rank_lt_radix_pow_length .varint5 delta).trans_le (Nat.pow_le_pow_left wider _))

/-! ## Streams -/

theorem length_le_length_flatMap_encode (format : SampleFormat) (differences : List Int32) :
    differences.length ≤ (differences.flatMap format.encode).length := by
  have summed := List.sum_le_sum fun difference (_ : difference ∈ differences) =>
    Nat.succ_le_of_lt (length_encode_pos format difference)
  rw [List.length_flatMap]
  simpa using summed

theorem length_flatMap_encode_le (format : SampleFormat) (differences : List Int32) :
    (differences.flatMap format.encode).length ≤
      differences.length * (format.wholeGroups + 1) := by
  have summed := List.sum_le_sum fun difference (_ : difference ∈ differences) =>
    length_encode_le format difference
  rw [List.length_flatMap]
  simpa using summed

theorem length_flatMap_encode_varint7_le (differences : List Int32) :
    (differences.flatMap (SampleFormat.encode .varint7)).length ≤
      (differences.flatMap (SampleFormat.encode .varint5)).length := by
  rw [List.length_flatMap, List.length_flatMap]
  exact List.sum_le_sum fun difference _ => length_encode_varint7_le difference

/-- A stream takes at least a byte for each difference, the text format never fewer than the binary
one, and neither more than the groups of full words. -/
theorem length_flatMap_encode_bounds (differences : List Int32) :
    let binary := (differences.flatMap (SampleFormat.encode .varint7)).length
    let text := (differences.flatMap (SampleFormat.encode .varint5)).length
    differences.length ≤ binary ∧ binary ≤ text ∧ text ≤ differences.length * 7 ∧
      binary ≤ differences.length * 5 :=
  ⟨length_le_length_flatMap_encode .varint7 differences,
    length_flatMap_encode_varint7_le differences, length_flatMap_encode_le .varint5 differences,
    length_flatMap_encode_le .varint7 differences⟩

end SampleFormat

open SampleFormat

/-- A sample is as long as the rank of its difference counted in groups of five or seven bits, so a
difference of larger magnitude never takes fewer bytes. Shapes and series take from one byte to a
full word for each sample, and never more in the binary format than in the text format. -/
theorem encoded_sizes {point : Type} [LonLat point] :
    (∀ delta,
      (SampleFormat.encode .varint5 delta).length = max 1 ((ZigZag.rank delta).size ⌈/⌉ 5) ∧
      (SampleFormat.encode .varint7 delta).length = max 1 ((ZigZag.rank delta).size ⌈/⌉ 7)) ∧
    (∀ format : SampleFormat, ∀ smaller larger : Int32,
      smaller.toInt.natAbs < larger.toInt.natAbs →
        (format.encode smaller).length ≤ (format.encode larger).length) ∧
    (∀ factor, ∀ points : List point,
      let binary := (Shape.encode .varint7 factor points).length
      let text := (Shape.encode .varint5 factor points).length
      2 * points.length ≤ binary ∧ binary ≤ text ∧ text ≤ 14 * points.length ∧
        binary ≤ 10 * points.length) ∧
    ∀ factor, ∀ values : List Binary64,
      let binary := (Series.encode .varint7 factor values).length
      let text := (Series.encode .varint5 factor values).length
      values.length ≤ binary ∧ binary ≤ text ∧ text ≤ 7 * values.length := by
  refine ⟨?_, ?_, ?_, ?_⟩
  · intro delta
    exact ⟨length_encode .varint5 delta, length_encode .varint7 delta⟩
  · intro format smaller larger less
    exact length_encode_le_of_natAbs_lt format less
  · intro factor points binary text
    obtain ⟨least, denser, longest, longestBinary⟩ := length_flatMap_encode_bounds
      (GridPoint.steps .origin (points.map (GridPoint.ofPoint factor)))
    simp only [← GridPoint.encodeGrid_eq_flatMap, GridPoint.length_steps, List.length_map]
      at least denser longest longestBinary
    refine ⟨least, denser, longest.trans ?_, longestBinary.trans ?_⟩ <;> omega
  · intro factor values binary text
    obtain ⟨least, denser, longest, _⟩ := length_flatMap_encode_bounds
      (Series.steps 0 (values.map (quantize factor)))
    simp only [← Series.encodeSamples_eq_flatMap, Series.length_steps, List.length_map]
      at least denser longest
    refine ⟨least, denser, longest.trans ?_⟩
    omega

/-- The difference of the largest magnitude takes the groups of a full word. -/
theorem encoded_sizes_least :
    Int32.maxValue.toInt.natAbs < Int32.minValue.toInt.natAbs ∧
      (∀ format : SampleFormat,
        (format.encode Int32.maxValue).length ≤ (format.encode Int32.minValue).length) ∧
      (SampleFormat.encode .varint5 Int32.minValue).length = 7 ∧
      (SampleFormat.encode .varint7 Int32.minValue).length = 5 := by
  have less : Int32.maxValue.toInt.natAbs < Int32.minValue.toInt.natAbs := by decide
  have rank : ZigZag.rank Int32.minValue = 2 ^ 32 - 1 := by decide
  have bits : (2 ^ 32 - 1 : Nat).size = 32 := by decide +kernel
  obtain ⟨sizes, grows, _⟩ := @encoded_sizes Point _
  obtain ⟨text, binary⟩ := sizes Int32.minValue
  rw [rank, bits] at text binary
  exact ⟨less, fun format => grows format _ _ less, text, binary⟩

end Polyline
