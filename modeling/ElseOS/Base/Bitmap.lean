import Mathlib.Data.Nat.Bitwise
import Mathlib.Data.List.Basic
import Mathlib.Tactic.IntervalCases

/-! A bitmap kept in bytes, eight bits each.

Reading or writing past the last byte fails. Every result below is stated for the
bits, so that users of a bitmap never look at its bytes. -/

set_option autoImplicit false

namespace ElseOS.Base

abbrev Bitmap := List UInt8

namespace Bitmap

def mask (bit : Nat) : UInt8 := 1 <<< UInt8.ofNat bit

def getBit (bitmap : Bitmap) (index : Nat) : Option Bool :=
  bitmap[index / 8]?.map fun byte => byte &&& mask (index % 8) != 0

def write (byte : UInt8) (bit : Nat) (value : Bool) : UInt8 :=
  if value then byte ||| mask bit else byte &&& ~~~ mask bit

def setBit (bitmap : Bitmap) (index : Nat) (value : Bool) : Option Bitmap :=
  bitmap[index / 8]?.map fun byte => List.set bitmap (index / 8) (write byte (index % 8) value)

/-! ## Bits of one byte -/

theorem mask_toNat {bit : Nat} (small : bit < 8) : (mask bit).toNat = 2 ^ bit := by
  interval_cases bit <;> rfl

theorem and_mask (byte : UInt8) {bit : Nat} (small : bit < 8) :
    (byte &&& mask bit != 0) = byte.toNat.testBit bit := by
  have value : (byte &&& mask bit).toNat = (byte.toNat.testBit bit).toNat * 2 ^ bit := by
    rw [UInt8.toNat_and, mask_toNat small, Nat.and_two_pow]
  have zero : byte &&& mask bit = 0 ↔ byte.toNat.testBit bit = false := by
    rw [← UInt8.toNat_inj, value]
    cases byte.toNat.testBit bit <;> simp
  cases isSet : byte.toNat.testBit bit with
  | false => simp [zero.mpr isSet]
  | true =>
    have nonzero : byte &&& mask bit ≠ 0 := fun equal => by simp [zero.mp equal] at isSet
    simpa using nonzero

theorem testBit_write (byte : UInt8) {bit other : Nat} (value : Bool) (small : bit < 8) (otherSmall : other < 8) :
    (write byte bit value).toNat.testBit other = if other = bit then value else byte.toNat.testBit other := by
  cases value with
  | true =>
    simp only [write, if_true, UInt8.toNat_or, mask_toNat small, Nat.testBit_or, Nat.testBit_two_pow]
    by_cases same : other = bit
    · simp [same]
    · simp [same, Ne.symm same]
  | false =>
    have room : 2 ^ bit < 2 ^ 8 := Nat.pow_lt_pow_right (by decide) small
    have flipped : (~~~ mask bit).toNat = 2 ^ 8 - (2 ^ bit + 1) := by
      rw [UInt8.toNat_not, mask_toNat small]
      simp only [UInt8.size]
      omega
    simp only [write, Bool.false_eq_true, if_false, UInt8.toNat_and, flipped, Nat.testBit_and,
      Nat.testBit_two_pow_sub_succ room, otherSmall, decide_true, Bool.true_and, Nat.testBit_two_pow]
    by_cases same : other = bit
    · simp [same]
    · simp [same, Ne.symm same]

/-! ## Bits of the bitmap -/

theorem getBit_eq (bitmap : Bitmap) (index : Nat) :
    bitmap.getBit index = bitmap[index / 8]?.map fun byte => byte.toNat.testBit (index % 8) := by
  unfold getBit
  congr 1
  funext byte
  exact and_mask byte (Nat.mod_lt _ (by decide))

theorem getBit_setBit {bitmap after : Bitmap} {index : Nat} {value : Bool}
    (written : bitmap.setBit index value = some after)
    (other : Nat) : after.getBit other = if other = index then some value else bitmap.getBit other := by
  obtain ⟨byte, found, rfl⟩ := Option.map_eq_some_iff.mp written
  have inside : index / 8 < bitmap.length := (List.getElem?_eq_some_iff.mp found).1
  rw [getBit_eq, getBit_eq]
  by_cases block : other / 8 = index / 8
  · rw [block, List.getElem?_set_self inside, found, Option.map_some, Option.map_some,
      testBit_write byte value (Nat.mod_lt _ (by decide)) (Nat.mod_lt _ (by decide))]
    by_cases same : other = index
    · simp [same]
    · have bits : other % 8 ≠ index % 8 := by omega
      simp [same, bits]
  · have different : other ≠ index := fun same => block (same ▸ rfl)
    rw [List.getElem?_set_ne (Ne.symm block), if_neg different]

theorem length_setBit {bitmap after : Bitmap} {index : Nat} {value : Bool}
    (written : bitmap.setBit index value = some after) : after.length = bitmap.length := by
  obtain ⟨byte, _, rfl⟩ := Option.map_eq_some_iff.mp written
  exact List.length_set

theorem getBit_full (count index : Nat) :
    getBit (List.replicate count 0xFF) index = if index / 8 < count then some true else none := by
  rw [getBit_eq, List.getElem?_replicate]
  split
  · have small : index % 8 < 8 := Nat.mod_lt _ (by decide)
    generalize index % 8 = bit at small
    interval_cases bit <;> rfl
  · rfl

end Bitmap

end ElseOS.Base
