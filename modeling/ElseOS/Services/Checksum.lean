import ElseOS.Base.Bytes
import ElseOS.Base.OnesComplement
import ElseOS.Services.Packets

/-! `compute_checksum` against the checksum of the internet protocols. -/

set_option autoImplicit false

namespace ElseOS.Network

open Base (OnesComplement.sum OnesComplement.residue)

/-- The words of a slice, the more significant byte first; a last odd byte is followed by a zero. -/
def beWords : List UInt8 → List Nat
  | [] => []
  | [last] => [last.toNat * 256]
  | high :: low :: rest => (high.toNat * 256 + low.toNat) :: beWords rest

theorem beWords_le (data : List UInt8) : ∀ word ∈ beWords data, word ≤ 65535 := by
  fun_induction beWords data with
  | case1 => exact fun _ member => absurd member List.not_mem_nil
  | case2 last =>
    intro word member
    have := last.toNat_lt
    rw [List.mem_singleton.mp member]
    omega
  | case3 high low rest ih =>
    intro word member
    rcases List.mem_cons.mp member with rfl | later
    · have := high.toNat_lt
      have := low.toNat_lt
      omega
    · exact ih word later

theorem sum_beWords_le (data : List UInt8) : (beWords data).sum ≤ 65535 * ((data.length + 1) / 2) := by
  have bounded := beWords_le data
  fun_induction beWords data with
  | case1 => exact Nat.zero_le _
  | case2 last =>
    have first := bounded _ List.mem_cons_self
    rw [List.sum_singleton, List.length_singleton]
    omega
  | case3 high low rest ih =>
    have first := bounded _ List.mem_cons_self
    have later := ih fun word member => bounded word (List.mem_cons_of_mem _ member)
    have pair : (rest.length + 1 + 1 + 1) / 2 = (rest.length + 1) / 2 + 1 := by omega
    rw [List.sum_cons, List.length_cons, List.length_cons, pair, Nat.mul_succ, Nat.add_comm]
    exact Nat.add_le_add later first

theorem toNat_sumWords (sum : UInt32) (data : List UInt8) :
    (sumWords sum data).toNat = (sum.toNat + (beWords data).sum) % 2 ^ 32 := by
  fun_induction sumWords sum data with
  | case1 sum =>
    have := sum.toNat_lt
    simp only [beWords, List.sum_nil]
    omega
  | case2 sum last =>
    have shifted : (last.toUInt32 <<< 8).toNat = 2 ^ 8 * last.toNat :=
      Base.Bytes.toNat_shiftLeft_byte last (by decide : 8 ≤ 24)
    rw [UInt32.toNat_add, shifted, beWords, List.sum_singleton]
    omega
  | case3 sum high low rest ih =>
    rw [ih, UInt32.toNat_add, Base.Bytes.toNat_word32, beWords, List.sum_cons]
    omega

theorem beWords_append {first : List UInt8} (even : first.length % 2 = 0) (second : List UInt8) :
    beWords (first ++ second) = beWords first ++ beWords second := by
  fun_induction beWords first with
  | case1 => rfl
  | case2 last => cases even
  | case3 high low rest ih =>
    rw [List.length_cons, List.length_cons] at even
    rw [List.cons_append, List.cons_append, beWords, ih (by omega), List.cons_append]

theorem toNat_computeChecksum (data : List UInt8) :
    (computeChecksum data).toNat = 65535 - OnesComplement.residue 65535 (sumWords 0 data).toNat := by
  have folded := toNat_foldCarries (sumWords 0 data)
  have below := Base.OnesComplement.residue_le (by decide : 0 < 65535) (sumWords 0 data).toNat
  unfold computeChecksum
  rw [UInt16.toNat_not, UInt32.toNat_toUInt16, folded]
  change 65536 - 1 - OnesComplement.residue 65535 (sumWords 0 data).toNat % 65536 = _
  omega

/-! ## The loops -/

theorem foldCarries_stable {sum : UInt32} (settled : sum >>> 16 = 0) (rounds : Nat) : foldCarries rounds sum = sum := by
  cases rounds with
  | zero => rfl
  | succ rounds => exact if_neg (not_not_intro settled)

theorem foldCarries_add (first second : Nat) (sum : UInt32) :
    foldCarries (first + second) sum = foldCarries second (foldCarries first sum) := by
  induction first generalizing sum with
  | zero => rw [Nat.zero_add, foldCarries]
  | succ first ih =>
    rw [Nat.add_right_comm, foldCarries, foldCarries]
    by_cases settled : sum >>> 16 = 0
    · rw [if_neg (not_not_intro settled), if_neg (not_not_intro settled), foldCarries_stable settled]
    · rw [if_pos settled, if_pos settled, ih]

/-- The loop that folds carries ends after two rounds at most. -/
theorem foldCarries_ends (sum : UInt32) {rounds : Nat} (enough : 2 ≤ rounds) :
    foldCarries rounds sum = foldCarries 2 sum := by
  obtain ⟨more, rfl⟩ : ∃ more, rounds = 2 + more := ⟨rounds - 2, by omega⟩
  rw [foldCarries_add, foldCarries_stable (foldCarries_settled sum)]

theorem beWords_take (data : List UInt8) (k : Nat) : beWords (data.take (2 * k)) = (beWords data).take k := by
  induction k generalizing data with
  | zero => rfl
  | succ k ih =>
    rw [show 2 * (k + 1) = 2 * k + 2 by omega]
    match data with
    | [] => rfl
    | [last] =>
      rw [List.take_of_length_le (by rw [List.length_singleton]; omega), List.take_of_length_le]
      rw [beWords, List.length_singleton]
      omega
    | high :: low :: rest =>
      rw [List.take_succ_cons, List.take_succ_cons, beWords, beWords, List.take_succ_cons, ih]

theorem sumWords_exact {data : List UInt8} (short : data.length ≤ 65535) (k : Nat) :
    (sumWords 0 (data.take (2 * k))).toNat = ((beWords data).take k).sum := by
  have bounded := sum_beWords_le (data.take (2 * k))
  have fewer : (data.take (2 * k)).length ≤ data.length := List.length_take_le' (2 * k) data
  rw [toNat_sumWords, ← beWords_take]
  change (0 + _) % 2 ^ 32 = _
  rw [Nat.zero_add, Nat.mod_eq_of_lt]
  omega

/-! ## Verification -/

theorem sum_beWords_field {before : List UInt8} (even : before.length % 2 = 0) (field : UInt16) (after : List UInt8) :
    (beWords (before ++ [highByte field, field.toUInt8] ++ after)).sum =
      (beWords before).sum + (beWords after).sum + field.toNat := by
  have join : (highByte field).toNat * 256 + field.toUInt8.toNat = field.toNat := by
    rw [highByte, Base.Bytes.toNat_high16, UInt16.toNat_toUInt8]
    omega
  rw [List.append_assoc, beWords_append even, List.cons_append, List.singleton_append, beWords, List.sum_append,
    List.sum_cons, join]
  omega

theorem residue_room {sum : Nat} (small : sum < 2 ^ 32) :
    sum + (65535 - OnesComplement.residue 65535 sum) < 2 ^ 32 := by
  unfold OnesComplement.residue
  split <;> omega

/-- With the checksum stored in its field, which was zero before, the slice verifies. -/
theorem computeChecksum_filled {before : List UInt8} (even : before.length % 2 = 0) (after : List UInt8) :
    computeChecksum (before ++ [highByte (computeChecksum (before ++ [0, 0] ++ after)),
      (computeChecksum (before ++ [0, 0] ++ after)).toUInt8] ++ after) = 0 := by
  have blank := toNat_sumWords 0 (before ++ [0, 0] ++ after)
  have empty : (beWords (before ++ [0, 0] ++ after)).sum = (beWords before).sum + (beWords after).sum :=
    sum_beWords_field even 0 after
  have result := toNat_computeChecksum (before ++ [0, 0] ++ after)
  generalize computeChecksum (before ++ [0, 0] ++ after) = checksum at *
  have filled := toNat_sumWords 0 (before ++ [highByte checksum, checksum.toUInt8] ++ after)
  have room := residue_room (sumWords 0 (before ++ [0, 0] ++ after)).toNat_lt
  have zero : (0 : UInt32).toNat = 0 := rfl
  rw [empty, zero, Nat.zero_add] at blank
  rw [sum_beWords_field even, zero, Nat.zero_add, Nat.add_mod, ← blank,
    Nat.mod_eq_of_lt (by omega : checksum.toNat < 2 ^ 32), result, Nat.mod_eq_of_lt room] at filled
  apply UInt16.toNat_inj.mp
  rw [toNat_computeChecksum, filled, Base.OnesComplement.residue_complement (by decide)]
  rfl

/-- `compute_checksum` is the complement of the sum with end-around carry, and verifies what it was stored in. -/
theorem checksum_ones_complement :
    (∀ data : List UInt8, data.length ≤ 65535 →
      (computeChecksum data).toNat = 65535 - OnesComplement.sum 65535 (beWords data) ∧
      (∀ k, (sumWords 0 (data.take (2 * k))).toNat = ((beWords data).take k).sum) ∧
      ∀ rounds, 2 ≤ rounds → foldCarries rounds (sumWords 0 data) = foldCarries 2 (sumWords 0 data) ∧
        foldCarries rounds (sumWords 0 data) >>> 16 = 0) ∧
    ∀ before after : List UInt8, before.length % 2 = 0 → after.length % 2 = 0 →
      computeChecksum (before ++ [highByte (computeChecksum (before ++ [0, 0] ++ after)),
        (computeChecksum (before ++ [0, 0] ++ after)).toUInt8] ++ after) = 0 := by
  constructor
  · intro data short
    have total := sum_beWords_le data
    refine ⟨?_, sumWords_exact short, ?_⟩
    · rw [toNat_computeChecksum, toNat_sumWords, Base.OnesComplement.sum_eq_residue (by decide) (beWords_le data)]
      change 65535 - OnesComplement.residue 65535 ((0 + _) % 2 ^ 32) = _
      rw [Nat.zero_add, Nat.mod_eq_of_lt (by omega)]
    · intro rounds enough
      rw [foldCarries_ends _ enough]
      exact ⟨rfl, foldCarries_settled _⟩
  · intro before after even _
    exact computeChecksum_filled even after

end ElseOS.Network
