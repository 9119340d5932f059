import Polyline.Proofs.Word
import Polyline.ZigZag

/-! Zig-zag numbering is a bijection between signed and unsigned words. -/

set_option autoImplicit false

namespace Polyline.ZigZag

theorem toNat_encode (number : Int32) :
    ((encode number).toNat : Int) =
      if number.toInt < 0 then -2 * number.toInt - 1 else 2 * number.toInt := by
  have word := Word.toInt_toNat_toUInt32 number
  have low := number.le_toInt
  have high := number.toInt_lt
  unfold encode
  by_cases negative : number.toInt < 0
  · have below : number < 0 := Int32.lt_iff_toInt_lt.2 negative
    simp only [negative, below, if_true] at word ⊢
    simp only [UInt32.toNat_not, UInt32.toNat_shiftLeft, Nat.shiftLeft_eq]
    simp
    omega
  · have above : ¬ number < 0 := fun below => negative (Int32.lt_iff_toInt_lt.1 below)
    simp only [negative, above, if_false] at word ⊢
    simp only [UInt32.toNat_shiftLeft, Nat.shiftLeft_eq]
    simp
    omega

theorem toInt_decode (code : UInt32) :
    (decode code).toInt =
      if code.toNat % 2 = 0 then (code.toNat / 2 : Int) else -(code.toNat / 2 : Int) - 1 := by
  have below := code.toNat_lt
  have parity : (code &&& 1).toNat = code.toNat % 2 := by simp
  unfold decode
  rcases Nat.mod_two_eq_zero_or_one code.toNat with even | odd
  · have none : code &&& 1 = 0 := UInt32.toNat_inj.1 (by rw [parity, even]; rfl)
    rw [none, Word.toInt_toInt32]
    simp [even, Nat.shiftRight_eq_div_pow]
    omega
  · have one : code &&& 1 = 1 := UInt32.toNat_inj.1 (by rw [parity, odd]; rfl)
    have ones : (0 : UInt32) - 1 = -1 := rfl
    rw [one, ones, UInt32.xor_neg_one, Word.toInt_toInt32]
    simp [odd, Nat.shiftRight_eq_div_pow]
    omega

@[simp] theorem decode_encode (number : Int32) : decode (encode number) = number := by
  have written := toNat_encode number
  have read := toInt_decode (encode number)
  apply Int32.toInt_inj.1
  split at written <;> split at read <;> omega

@[simp] theorem encode_decode (code : UInt32) : encode (decode code) = code := by
  have read := toInt_decode code
  have written := toNat_encode (decode code)
  apply UInt32.toNat_inj.1
  split at read <;> split at written <;> omega

end Polyline.ZigZag
