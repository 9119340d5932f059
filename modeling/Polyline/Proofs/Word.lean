import Mathlib.Algebra.Ring.Int.Defs
import Mathlib.Algebra.Ring.Nat
import Polyline.Word

/-! Words as numbers: signed and unsigned readings, and the operations that do not wrap around. -/

set_option autoImplicit false

namespace Polyline.Word

theorem toInt_toNat_toUInt32 (number : Int32) :
    (number.toUInt32.toNat : Int) =
      if number.toInt < 0 then number.toInt + 2 ^ 32 else number.toInt := by
  have signed : number.toInt =
      if 2 * number.toBitVec.toNat < 2 ^ 32 then (number.toBitVec.toNat : Int)
      else (number.toBitVec.toNat : Int) - (2 ^ 32 : Nat) := BitVec.toInt_eq_toNat_cond _
  have below : number.toBitVec.toNat < 2 ^ 32 := number.toBitVec.isLt
  change (number.toBitVec.toNat : Int) = _
  split at signed <;> split <;> omega

theorem toInt_toInt32 (word : UInt32) :
    word.toInt32.toInt =
      if word.toNat < 2 ^ 31 then (word.toNat : Int) else word.toNat - 2 ^ 32 := by
  have signed : word.toInt32.toInt =
      if 2 * word.toNat < 2 ^ 32 then (word.toNat : Int) else (word.toNat : Int) - (2 ^ 32 : Nat) :=
    BitVec.toInt_eq_toNat_cond _
  split at signed <;> split <;> omega

private theorem two_pow_dvd_mul {shift : Nat} (outside : 32 ≤ shift) (number : Nat) :
    2 ^ 32 ∣ number * 2 ^ shift :=
  Nat.dvd_trans (Nat.pow_dvd_pow 2 outside) (Nat.dvd_mul_left _ _)

theorem toNat_shiftUp (word distance : UInt32) :
    (shiftUp word distance).toNat = word.toNat * 2 ^ distance.toNat % 2 ^ 32 := by
  unfold shiftUp
  split
  next inside =>
    have small : distance.toNat % 32 = distance.toNat :=
      Nat.mod_eq_of_lt (UInt32.lt_iff_toNat_lt.1 inside)
    rw [UInt32.toNat_shiftLeft, small, Nat.shiftLeft_eq]
  next outside =>
    have large : 32 ≤ distance.toNat := by simpa [UInt32.lt_iff_toNat_lt] using outside
    exact (Nat.mod_eq_zero_of_dvd (two_pow_dvd_mul large _)).symm

/-- A group put above all the bits of a word is added to it, as far as the word reaches. -/
theorem toNat_or_shiftUp {word distance : UInt32} (group : UInt32)
    (below : word.toNat < 2 ^ distance.toNat) :
    (word ||| shiftUp group distance).toNat =
      (word.toNat + group.toNat * 2 ^ distance.toNat) % 2 ^ 32 := by
  rw [UInt32.toNat_or, toNat_shiftUp]
  rcases Nat.lt_or_ge distance.toNat 32 with inside | outside
  · have split : (2 : Nat) ^ 32 = 2 ^ distance.toNat * 2 ^ (32 - distance.toNat) := by
      rw [← Nat.pow_add]
      congr 1
      omega
    have kept : group.toNat * 2 ^ distance.toNat % 2 ^ 32 =
        2 ^ distance.toNat * (group.toNat % 2 ^ (32 - distance.toNat)) := by
      rw [split, Nat.mul_comm, Nat.mul_mod_mul_left]
    -- The group has no bit in common with the word, so that the union of bits is a sum.
    rw [kept, Nat.or_comm, ← Nat.two_pow_add_eq_or_of_lt below, split, Nat.mod_mul,
      Nat.add_mul_mod_self_right, Nat.mod_eq_of_lt below,
      Nat.add_mul_div_right _ _ (Nat.two_pow_pos _), Nat.div_eq_of_lt below, Nat.zero_add,
      Nat.add_comm]
  · have lost := Nat.mod_eq_zero_of_dvd (two_pow_dvd_mul outside group.toNat)
    have small := word.toNat_lt
    rw [lost, Nat.or_zero, Nat.add_mod, lost, Nat.add_zero, Nat.mod_mod, Nat.mod_eq_of_lt small]

theorem toNat_addSaturating (left right : UInt32) :
    (addSaturating left right).toNat = min (left.toNat + right.toNat) (2 ^ 32 - 1) := by
  have leftBelow := left.toNat_lt
  have rightBelow := right.toNat_lt
  have room : (0xffffffff - right).toNat = 2 ^ 32 - 1 - right.toNat :=
    UInt32.toNat_sub_of_le _ _ (UInt32.le_iff_toNat_le.2 (Nat.le_of_lt_succ rightBelow))
  unfold addSaturating
  split
  next fits =>
    rw [UInt32.le_iff_toNat_le, room] at fits
    rw [UInt32.toNat_add]
    omega
  next exceeds =>
    rw [UInt32.le_iff_toNat_le, room] at exceeds
    change 2 ^ 32 - 1 = _
    omega

/-- A shift that saturates loses the whole word, as the true one would. -/
theorem mul_two_pow_addSaturating_mod (number : Nat) (left right : UInt32) :
    number * 2 ^ (addSaturating left right).toNat % 2 ^ 32 =
      number * 2 ^ (left.toNat + right.toNat) % 2 ^ 32 := by
  have sum := toNat_addSaturating left right
  rcases Nat.lt_or_ge (left.toNat + right.toNat) (2 ^ 32) with inside | outside
  · have exact : (addSaturating left right).toNat = left.toNat + right.toNat := by omega
    rw [exact]
  · have saturated : 32 ≤ (addSaturating left right).toNat := by omega
    have beyond : 32 ≤ left.toNat + right.toNat := by omega
    rw [Nat.mod_eq_zero_of_dvd (two_pow_dvd_mul saturated _),
      Nat.mod_eq_zero_of_dvd (two_pow_dvd_mul beyond _)]

theorem lt_two_pow_addSaturating (word : UInt32) {left right : UInt32}
    (below : word.toNat < 2 ^ (left.toNat + right.toNat)) :
    word.toNat < 2 ^ (addSaturating left right).toNat := by
  have sum := toNat_addSaturating left right
  rcases Nat.lt_or_ge (left.toNat + right.toNat) (2 ^ 32) with inside | outside
  · have exact : (addSaturating left right).toNat = left.toNat + right.toNat := by omega
    rwa [exact]
  · have saturated : 32 ≤ (addSaturating left right).toNat := by omega
    exact Nat.lt_of_lt_of_le word.toNat_lt (Nat.pow_le_pow_right (by decide) saturated)

end Polyline.Word
