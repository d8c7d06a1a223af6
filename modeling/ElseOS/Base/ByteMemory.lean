import Mathlib.Algebra.Group.Nat.Defs
import Mathlib.Data.List.Basic

/-! Memory of bytes, read and written eight at a time.

Addresses wrap around, so two places are compared by their distance: what is stored at one
of them is seen at the other only if it is less than eight bytes behind it. -/

set_option autoImplicit false

namespace ElseOS.Base

abbrev ByteMemory := UInt64 → UInt8

namespace ByteMemory

def number (byte : Nat → UInt8) : Nat → Nat
  | 0 => 0
  | count + 1 => number byte count + 256 ^ count * (byte count).toNat

theorem number_congr {byte other : Nat → UInt8} {count : Nat} (same : ∀ k < count, byte k = other k) :
    number byte count = number other count := by
  induction count with
  | zero => rfl
  | succ count ih =>
    rw [number, number, ih fun k below => same k (by omega), same count (Nat.lt_succ_self count)]

theorem number_digits (value count : Nat) :
    number (fun k => UInt8.ofNat (value / 256 ^ k)) count = value % 256 ^ count := by
  induction count with
  | zero => rw [number, Nat.pow_zero, Nat.mod_one]
  | succ count ih =>
    have byte : (UInt8.ofNat (value / 256 ^ count)).toNat = value / 256 ^ count % 256 := UInt8.toNat_ofNat'
    rw [number, ih, byte, Nat.pow_succ, Nat.mod_mul]

def load (mem : ByteMemory) (addr : UInt64) : UInt64 :=
  UInt64.ofNat (number (fun k => mem (addr + UInt64.ofNat k)) 8)

def store (mem : ByteMemory) (addr value : UInt64) : ByteMemory := fun byte =>
  if (byte - addr).toNat < 8 then UInt8.ofNat (value.toNat / 256 ^ (byte - addr).toNat) else mem byte

variable {mem other third : ByteMemory} {addr base value : UInt64} {size : Nat}

theorem load_store_same (mem : ByteMemory) (addr value : UInt64) : (mem.store addr value).load addr = value := by
  have bytes : number (fun k => mem.store addr value (addr + UInt64.ofNat k)) 8 =
      number (fun k => UInt8.ofNat (value.toNat / 256 ^ k)) 8 := by
    apply number_congr
    intro k below
    have offset : (addr + UInt64.ofNat k - addr).toNat = k := by
      rw [show addr + UInt64.ofNat k - addr = UInt64.ofNat k by grind, UInt64.toNat_ofNat']
      omega
    simp only [store]
    rw [offset, if_pos below]
  have small : value.toNat < 256 ^ 8 := value.toNat_lt
  rw [load, bytes, number_digits, Nat.mod_eq_of_lt small, UInt64.ofNat_toNat]

/-! ## Distances -/

/-- A place that is so many bytes further away, where that does not wrap around. -/
theorem toNat_of_eq_add {far near : UInt64} {count : Nat} (sum : far = near + UInt64.ofNat count)
    (fits : near.toNat + count < 2 ^ 64) : far.toNat = near.toNat + count := by
  rw [sum, UInt64.toNat_add, UInt64.toNat_ofNat']
  omega

theorem toNat_of_eq_sub {far near : UInt64} {count : Nat} (difference : near = far - UInt64.ofNat count)
    (within : count ≤ far.toNat) : near.toNat = far.toNat - count := by
  have bounded := far.toNat_lt
  rw [difference, UInt64.toNat_sub, UInt64.toNat_ofNat']
  omega

/-! ## Stretches that stay as they are -/

def Agree (base : UInt64) (size : Nat) (mem other : ByteMemory) : Prop :=
  ∀ byte : UInt64, (byte - base).toNat < size → mem byte = other byte

theorem Agree.refl (base : UInt64) (size : Nat) (mem : ByteMemory) : Agree base size mem mem := fun _ _ => rfl

theorem Agree.trans (first : Agree base size mem other) (second : Agree base size other third) :
    Agree base size mem third := fun byte inside => (first byte inside).trans (second byte inside)

theorem Agree.part (agree : Agree base size mem other) {start : UInt64} {count : Nat}
    (inside : (start - base).toNat + count ≤ size) (bounded : size ≤ 2 ^ 64) : Agree start count mem other := by
  intro byte within
  apply agree
  rw [show byte - base = (byte - start) + (start - base) by grind, UInt64.toNat_add]
  omega

theorem Agree.load (agree : Agree base 8 mem other) : mem.load base = other.load base := by
  unfold ByteMemory.load
  congr 1
  apply number_congr
  intro k below
  apply agree
  rw [show base + UInt64.ofNat k - base = UInt64.ofNat k by grind, UInt64.toNat_ofNat']
  omega

theorem agree_store (mem : ByteMemory) (value : UInt64) (behind : size ≤ (addr - base).toNat)
    (before : (addr - base).toNat + 8 ≤ 2 ^ 64) : Agree base size mem (mem.store addr value) := by
  intro byte inside
  have outside : ¬ (byte - addr).toNat < 8 := by
    intro within
    have sum : byte - base = (byte - addr) + (addr - base) := by grind
    rw [sum, UInt64.toNat_add] at inside
    omega
  exact (if_neg outside).symm

/-- A word stored below the stretch, no further than the stretch is from the end of the address space. -/
theorem agree_store_below (value : UInt64) (below : 8 ≤ (base - addr).toNat)
    (room : (base - addr).toNat + size ≤ 2 ^ 64) : Agree base size mem (mem.store addr value) := by
  have distance : (addr - base).toNat = 2 ^ 64 - (base - addr).toNat := by
    have positive : base - addr ≠ 0 := by
      intro none
      rw [none] at below
      exact absurd below (by decide)
    have size : UInt64.size = 2 ^ 64 := rfl
    rw [show addr - base = -(base - addr) by grind, UInt64.toNat_neg, size]
    omega
  apply agree_store
  · rw [distance]
    omega
  · rw [distance]
    omega

/-! ## Words on a stack -/

def Holds (mem : ByteMemory) : UInt64 → List UInt64 → Prop
  | _, [] => True
  | base, word :: rest => mem.load base = word ∧ Holds mem (base + 8) rest

theorem Agree.holds {words : List UInt64} (agree : Agree base size mem other) (inside : 8 * words.length ≤ size)
    (bounded : size ≤ 2 ^ 64) (holds : mem.Holds base words) : other.Holds base words := by
  induction words generalizing base size with
  | nil => trivial
  | cons word rest ih =>
    have eight : (8 : UInt64).toNat = 8 := rfl
    rw [List.length_cons] at inside
    obtain ⟨first, others⟩ := holds
    constructor
    · have here : Agree base 8 mem other := by
        apply agree.part _ bounded
        rw [UInt64.sub_self]
        change 0 + 8 ≤ size
        omega
      rw [← here.load, first]
    · have later : Agree (base + 8) (8 * rest.length) mem other := by
        apply agree.part _ bounded
        rw [show base + 8 - base = 8 by grind, eight]
        omega
      exact ih later (Nat.le_refl _) (by omega) others

theorem Holds.drop {first second : List UInt64} (holds : mem.Holds base (first ++ second)) :
    mem.Holds (base + 8 * UInt64.ofNat first.length) second := by
  induction first generalizing base with
  | nil =>
    rw [List.length_nil, show base + 8 * UInt64.ofNat 0 = base by grind]
    exact holds
  | cons word first ih =>
    have later := ih holds.2
    rw [List.length_cons, UInt64.ofNat_add, show base + 8 * (UInt64.ofNat first.length + UInt64.ofNat 1) =
      base + 8 + 8 * UInt64.ofNat first.length by grind]
    exact later

theorem Holds.push {words : List UInt64} (holds : mem.Holds base words) (value : UInt64)
    (room : 8 * words.length + 8 ≤ 2 ^ 64) : (mem.store (base - 8) value).Holds (base - 8) (value :: words) := by
  refine ⟨load_store_same mem (base - 8) value, ?_⟩
  have back : base - 8 + 8 = base := by grind
  have distance : (base - 8 - base).toNat = 2 ^ 64 - 8 := by
    rw [show base - 8 - base = (-8 : UInt64) by grind]
    rfl
  rw [back]
  apply (agree_store mem value _ _).holds (Nat.le_refl _) (by omega) holds
  · rw [distance]
    omega
  · rw [distance]
    decide

end ByteMemory

end ElseOS.Base
