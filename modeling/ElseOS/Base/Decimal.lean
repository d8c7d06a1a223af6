import Mathlib.Algebra.Group.Nat.Defs
import Mathlib.Data.List.DropRight

/-! Decimal numbers as text, written into a buffer from its end.

A loop that divides by ten meets the digits in the order in which they stand from right to
left. Between two rounds the number has some digits ahead, those of what is left of it, and
the others are in the buffer. -/

set_option autoImplicit false

namespace ElseOS.Base.Decimal

/-- The decimal representation, without leading zeros. -/
def decimal (value : Nat) : List UInt8 := (Nat.toDigits 10 value).map Char.toUInt8

def digit (value : Nat) : UInt8 := 0x30 + UInt8.ofNat (value % 10)

/-- What a loop has still to write; zero is written already. -/
def ahead (value : Nat) : List UInt8 := if value = 0 then [] else decimal value

variable {value left start count : Nat} {buf : List UInt8}

theorem decimal_zero : decimal 0 = [0x30] := by
  rw [decimal, Nat.toDigits_zero]
  rfl

theorem ahead_zero : ahead 0 = [] := if_pos rfl

theorem ahead_of_ne_zero (nonzero : value ≠ 0) : ahead value = decimal value := if_neg nonzero

theorem length_decimal_le_iff (positive : 0 < count) : (decimal value).length ≤ count ↔ value < 10 ^ count := by
  rw [decimal, List.length_map]
  exact Nat.length_toDigits_le_iff (by decide) positive

theorem length_ahead_le (small : value < 10 ^ count) : (ahead value).length ≤ count := by
  unfold ahead
  split
  next => exact Nat.zero_le count
  next nonzero =>
    have positive : 0 < count := by
      apply Nat.pos_of_ne_zero
      rintro rfl
      exact nonzero (Nat.lt_one_iff.mp small)
    exact (length_decimal_le_iff positive).mpr small

theorem toUInt8_digitChar : ∀ value < 10, (Nat.digitChar value).toUInt8 = 0x30 + UInt8.ofNat value := by decide

theorem ahead_eq (nonzero : value ≠ 0) : ahead value = ahead (value / 10) ++ [digit value] := by
  have below : value % 10 < 10 := Nat.mod_lt value (by decide)
  rw [ahead_of_ne_zero nonzero, decimal, digit, ← toUInt8_digitChar _ below]
  by_cases last : value < 10
  · rw [Nat.toDigits_of_lt_base last, Nat.div_eq_of_lt last, Nat.mod_eq_of_lt last, ahead_zero]
    rfl
  · have more : value / 10 ≠ 0 := by omega
    rw [Nat.toDigits_of_base_le (by decide) (Nat.le_of_not_lt last), List.map_append, ahead_of_ne_zero more]
    rfl

theorem ascii_of_mem_decimal {byte : UInt8} (member : byte ∈ decimal value) : byte < 0x80 := by
  obtain ⟨char, among, rfl⟩ := List.mem_map.mp member
  have isDigit := Nat.isDigit_of_mem_toDigits (by decide) (by decide) among
  simp only [Char.isDigit, Bool.and_eq_true, decide_eq_true_eq] at isDigit
  have high : char.val.toNat ≤ 57 := UInt32.le_iff_toNat_le.mp isDigit.2
  have same : char.toUInt8.toNat = char.val.toNat % 256 := UInt32.toNat_toUInt8 char.val
  apply UInt8.lt_iff_toNat_lt.mpr
  rw [same]
  change char.val.toNat % 256 < 128
  omega

theorem ascii_of_mem_ahead {byte : UInt8} (member : byte ∈ ahead value) : byte < 0x80 := by
  unfold ahead at member
  split at member
  next => cases member
  next => exact ascii_of_mem_decimal member

/-! ## Filling a buffer -/

/-- The digits of the number are those ahead of what is left, and then those in the buffer. -/
def Filled (value left : Nat) (buf : List UInt8) (start : Nat) : Prop := ahead value = ahead left ++ buf.drop start

theorem filled_empty (value : Nat) (ends : buf.length ≤ start) : Filled value value buf start := by
  rw [Filled, List.drop_eq_nil_of_le ends, List.append_nil]

theorem Filled.next (filled : Filled value left buf (start + 1)) (nonzero : left ≠ 0) (inside : start < buf.length) :
    Filled value (left / 10) (buf.set start (digit left)) start := by
  have place : start < (buf.set start (digit left)).length := by rwa [List.length_set]
  rw [Filled, List.drop_eq_getElem_cons place, List.getElem_set_self, List.drop_set_of_lt (Nat.lt_succ_self start)]
  rw [Filled, ahead_eq nonzero] at filled
  rw [filled, List.append_assoc, List.singleton_append]

theorem Filled.length_le (filled : Filled value left buf start) (small : value < 10 ^ count) :
    (ahead left).length + (buf.length - start) ≤ count := by
  have length := congrArg List.length filled
  rw [List.length_append, List.length_drop] at length
  have bound := length_ahead_le small
  omega

end ElseOS.Base.Decimal
