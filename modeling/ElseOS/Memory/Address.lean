import Mathlib.Data.UInt

/-! Physical and virtual addresses, and what is assumed of the `x86_64` crate about them.

A constructor that panics in the crate returns `none` here. -/

set_option autoImplicit false

namespace ElseOS

def PAGE_SIZE : UInt64 := 4096

@[simp] theorem PAGE_SIZE_toNat : PAGE_SIZE.toNat = 4096 := rfl

def userStackTop : UInt64 := 0x0000700000000000

/-! ## The crate's addresses and pages

Nothing of this section is translated from the kernel: like the fields of `Paging`, it is what
the crate is assumed to do. The allocator, which comes before `Paging`, calls these functions
too, and the crate's documentation fixes their values, so they are definitions. -/

/-- `PhysAddr::new` panics when one of the bits 52 to 63 is set. -/
def PhysAddr.new (addr : UInt64) : Option UInt64 := if addr.toNat < 2 ^ 52 then some addr else none

def VirtAddr.canonical (addr : UInt64) : Bool := addr.toNat < 2 ^ 47 || 2 ^ 64 - 2 ^ 47 ≤ addr.toNat

/-- `VirtAddr::new` panics on an address that is not canonical. -/
def VirtAddr.new (addr : UInt64) : Option UInt64 := if VirtAddr.canonical addr then some addr else none

/-- `Page::containing_address` and `PhysFrame::containing_address`. -/
def containingAddress (addr : UInt64) : UInt64 := addr / PAGE_SIZE * PAGE_SIZE

def lastPage : UInt64 := 0xFFFFFFFFFFFFF000

/-- The iterator of `Page::range_inclusive` computes the page after the one it yields, and
panics where that address is not canonical. -/
def nextPage (page : UInt64) : Option UInt64 := if page = lastPage then some page else VirtAddr.new (page + PAGE_SIZE)

/-- How many pages `Page::range_inclusive` yields. -/
def pagesInclusive (startPage endPage : UInt64) : Nat :=
  if startPage ≤ endPage then ((endPage - startPage) / PAGE_SIZE).toNat + 1 else 0

theorem PhysAddr.new_eq {addr result : UInt64} (valid : PhysAddr.new addr = some result) :
    result = addr ∧ addr.toNat < 2 ^ 52 := by
  unfold PhysAddr.new at valid
  split at valid
  next small => exact ⟨(Option.some.inj valid).symm, small⟩
  next => cases valid

theorem VirtAddr.new_eq {addr result : UInt64} (valid : VirtAddr.new addr = some result) : result = addr := by
  unfold VirtAddr.new at valid
  split at valid
  next => exact (Option.some.inj valid).symm
  next => cases valid

theorem containingAddress_toNat (addr : UInt64) : (containingAddress addr).toNat = addr.toNat / 4096 * 4096 := by
  have small := addr.toNat_lt
  rw [containingAddress, UInt64.toNat_mul, UInt64.toNat_div, PAGE_SIZE_toNat, Nat.mod_eq_of_lt]
  omega

/-! ## Memory -/

/-- A store to `len` bytes from `addr` on, wrapping at the top, reaches no address that the
processor rejects whatever the page tables say. -/
def writable (addr len : UInt64) : Bool :=
  let last := addr.toNat + len.toNat
  !(max addr.toNat (2 ^ 47) < min last (2 ^ 64 - 2 ^ 47)) && !(2 ^ 64 + 2 ^ 47 < last)

/-- The bytes of physical memory, reached through the higher-half direct map. -/
abbrev Ram := UInt64 → UInt8

namespace Ram

def fill (ram : Ram) (addr len : UInt64) (value : UInt8) : Ram :=
  fun byte => if byte - addr < len then value else ram byte

def copy (ram : Ram) (addr len : UInt64) (source : UInt64 → UInt8) : Ram :=
  fun byte => if byte - addr < len then source (byte - addr) else ram byte

theorem copy_congr (ram : Ram) (addr len : UInt64) {source other : UInt64 → UInt8}
    (same : ∀ i : UInt64, i < len → source i = other i) : ram.copy addr len source = ram.copy addr len other := by
  funext byte
  unfold copy
  split
  next below => exact same _ below
  next => rfl

end Ram

/-! ## Ranges of bytes -/

theorem offset_lt_iff {byte addr len : UInt64} (room : addr.toNat + len.toNat ≤ 2 ^ 64) :
    byte - addr < len ↔ addr.toNat ≤ byte.toNat ∧ byte.toNat < addr.toNat + len.toNat := by
  have small := byte.toNat_lt
  have smallToo := addr.toNat_lt
  rw [UInt64.lt_iff_toNat_lt, UInt64.toNat_sub]
  omega

theorem toNat_max (left right : UInt64) : (max left right).toNat = max left.toNat right.toNat := by
  change (if left ≤ right then right else left).toNat = _
  rw [Nat.max_def]
  simp only [UInt64.le_iff_toNat_le]
  split <;> rfl

theorem toNat_min (left right : UInt64) : (min left right).toNat = min left.toNat right.toNat := by
  change (if left ≤ right then left else right).toNat = _
  rw [Nat.min_def]
  simp only [UInt64.le_iff_toNat_le]
  split <;> rfl

end ElseOS
