import Mathlib.Data.Nat.Bitwise
import Mathlib.Data.UInt

/-! Words put together from bytes and taken apart again, as arithmetic. -/

set_option autoImplicit false

namespace ElseOS.Base.Bytes

theorem and_mask {value width low : Nat} (small : value < 2 ^ (width + low)) :
    value &&& (2 ^ width - 1) * 2 ^ low = value / 2 ^ low * 2 ^ low := by
  apply Nat.eq_of_testBit_eq
  intro i
  simp only [Nat.testBit_and, Nat.testBit_mul_two_pow, Nat.testBit_div_two_pow, Nat.testBit_two_pow_sub_one]
  by_cases inside : low ≤ i
  · have shift : i - low + low = i := Nat.sub_add_cancel inside
    simp only [inside, shift, decide_true, Bool.true_and]
    by_cases high : i - low < width
    · simp [high]
    · have zero : value.testBit i = false := by
        apply Nat.testBit_lt_two_pow
        calc value < 2 ^ (width + low) := small
          _ ≤ 2 ^ i := Nat.pow_le_pow_right (by omega) (by omega)
      simp [high, zero]
  · simp [inside]

theorem shift_or_eq (high : Nat) {low : Nat} (small : low < 256) : high <<< 8 ||| low = high * 256 + low := by
  rw [Nat.shiftLeft_eq, Nat.mul_comm]
  exact (Nat.two_pow_add_eq_or_of_lt (i := 8) small high).symm.trans (by omega)

theorem toNat_word16 (high low : UInt8) :
    (high.toUInt16 <<< 8 ||| low.toUInt16).toNat = high.toNat * 256 + low.toNat := by
  have highSmall := high.toNat_lt
  have shifted : (high.toUInt16 <<< 8).toNat = high.toNat <<< 8 := by
    rw [UInt16.toNat_shiftLeft, UInt8.toNat_toUInt16]
    refine Nat.mod_eq_of_lt ?_
    rw [Nat.shiftLeft_eq]
    show high.toNat * 256 < 65536
    omega
  rw [UInt16.toNat_or, shifted, UInt8.toNat_toUInt16, shift_or_eq _ low.toNat_lt]

theorem toNat_word32 (high low : UInt8) :
    (high.toUInt32 <<< 8 ||| low.toUInt32).toNat = high.toNat * 256 + low.toNat := by
  have highSmall := high.toNat_lt
  have shifted : (high.toUInt32 <<< 8).toNat = high.toNat <<< 8 := by
    rw [UInt32.toNat_shiftLeft, UInt8.toNat_toUInt32]
    refine Nat.mod_eq_of_lt ?_
    rw [Nat.shiftLeft_eq]
    show high.toNat * 256 < 4294967296
    omega
  rw [UInt32.toNat_or, shifted, UInt8.toNat_toUInt32, shift_or_eq _ low.toNat_lt]

theorem toNat_high16 (value : UInt16) : (value >>> 8).toUInt8.toNat = value.toNat / 256 := by
  have small := value.toNat_lt
  rw [UInt16.toNat_toUInt8, UInt16.toNat_shiftRight, Nat.shiftRight_eq_div_pow]
  show value.toNat / 256 % 256 = value.toNat / 256
  omega

theorem word16_split (value : UInt16) : ((value >>> 8).toUInt8.toUInt16 <<< 8 ||| value.toUInt8.toUInt16) = value := by
  apply UInt16.toNat_inj.mp
  rw [toNat_word16, toNat_high16, UInt16.toNat_toUInt8]
  omega

/-! ## Four bytes -/

theorem or_eq_add {k : Nat} (high : Nat) {low : Nat} (small : low < 2 ^ k) :
    2 ^ k * high ||| low = 2 ^ k * high + low :=
  (Nat.two_pow_add_eq_or_of_lt small high).symm

theorem toNat_shiftLeft_byte (byte : UInt8) {k : Nat} (inside : k ≤ 24) :
    (byte.toUInt32 <<< UInt32.ofNat k).toNat = 2 ^ k * byte.toNat := by
  have small := byte.toNat_lt
  have bound : 2 ^ k ≤ 2 ^ 24 := Nat.pow_le_pow_right (by decide) inside
  have amount : (UInt32.ofNat k).toNat % 32 = k := by
    rw [UInt32.toNat_ofNat']
    omega
  rw [UInt32.toNat_shiftLeft, UInt8.toNat_toUInt32, amount, Nat.shiftLeft_eq, Nat.mul_comm, Nat.mod_eq_of_lt]
  have shifted : 2 ^ k * byte.toNat ≤ 2 ^ 24 * byte.toNat := Nat.mul_le_mul_right _ bound
  omega

theorem toNat_join32 (top high mid low : UInt8) :
    (top.toUInt32 <<< 24 ||| high.toUInt32 <<< 16 ||| mid.toUInt32 <<< 8 ||| low.toUInt32).toNat =
      ((top.toNat * 256 + high.toNat) * 256 + mid.toNat) * 256 + low.toNat := by
  have lowSmall := low.toNat_lt
  have midSmall := mid.toNat_lt
  have highSmall := high.toNat_lt
  have topShift : (top.toUInt32 <<< 24).toNat = _ := toNat_shiftLeft_byte top (k := 24) (by decide)
  have highShift : (high.toUInt32 <<< 16).toNat = _ := toNat_shiftLeft_byte high (k := 16) (by decide)
  have midShift : (mid.toUInt32 <<< 8).toNat = _ := toNat_shiftLeft_byte mid (k := 8) (by decide)
  -- each byte lies below the ones put together before it
  have upper : 2 ^ 24 * top.toNat ||| 2 ^ 16 * high.toNat = 2 ^ 16 * (top.toNat * 256 + high.toNat) := by
    rw [or_eq_add _ (by omega)]
    omega
  have lower : 2 ^ 16 * (top.toNat * 256 + high.toNat) ||| 2 ^ 8 * mid.toNat =
      2 ^ 8 * ((top.toNat * 256 + high.toNat) * 256 + mid.toNat) := by
    rw [or_eq_add _ (by omega)]
    omega
  rw [UInt32.toNat_or, UInt32.toNat_or, UInt32.toNat_or, topShift, highShift, midShift, UInt8.toNat_toUInt32,
    upper, lower, or_eq_add _ (by omega)]
  omega

theorem toNat_low8 (value : UInt32) : (value &&& 0xFF).toUInt8.toNat = value.toNat % 256 := by
  rw [UInt32.toNat_toUInt8, UInt32.toNat_and]
  show (value.toNat &&& (2 ^ 8 - 1)) % 256 = value.toNat % 256
  rw [Nat.and_two_pow_sub_one_eq_mod, Nat.mod_mod]

end ElseOS.Base.Bytes
