import ElseOS.Memory.Supply

/-! Level 4 tables, entry by entry.

`spawn_from_elf` makes a level 4 table itself: it zeroes a frame and copies the entries of
the upper half from the current table. -/

set_option autoImplicit false

namespace ElseOS

def slot (page : UInt64) : Nat := page.toNat / 2 ^ 39 % 512

/-- The entries the loop of `spawn_from_elf` runs over. -/
@[irreducible] def upperEntries : List Nat := List.range' 256 256

theorem mem_upperEntries {i : Nat} : i ∈ upperEntries ↔ 256 ≤ i ∧ i < 512 := by
  unfold upperEntries
  rw [List.mem_range'_1]

theorem slot_lower {page : UInt64} (low : page.toNat < 2 ^ 47) : slot page < 256 := by
  unfold slot
  omega

namespace Paging

/-- What the crate's `PageTable` gives of a level 4 table, and how it is tied to translations. -/
structure TopLevel (paging : Paging) where
  Entry : Type
  empty : Entry
  entry : paging.Tables → (cr3 : UInt64) → Nat → Entry
  /-- `write_bytes` of zeros over the table. -/
  zero : paging.Tables → (cr3 : UInt64) → paging.Tables
  /-- The store of one entry. -/
  set : paging.Tables → (cr3 : UInt64) → Nat → Entry → paging.Tables
  entry_zero : ∀ tables cr3 i, entry (zero tables cr3) cr3 i = empty
  zero_other : ∀ tables cr3 space i, space ≠ cr3 → entry (zero tables cr3) space i = entry tables space i
  entry_set : ∀ tables cr3 i value, entry (set tables cr3 i value) cr3 i = value
  set_other : ∀ tables cr3 i value space j, (space, j) ≠ (cr3, i) →
    entry (set tables cr3 i value) space j = entry tables space j
  /-- Nothing is mapped below an empty entry. -/
  unmapped : ∀ tables cr3 page, entry tables cr3 (slot page) = empty → paging.lookup tables cr3 page = none
  /-- `map_to` goes down from the page's entry. -/
  mapTo_other : ∀ tables allocator cr3 page frame flags space i, (space, i) ≠ (cr3, slot page) →
    entry (paging.mapTo tables allocator cr3 page frame flags).1 space i = entry tables space i
  /-- The loop over the entries 256 to 511. -/
  newTable_eq : ∀ tables cr3 current, paging.newTable tables cr3 current =
    upperEntries.foldl (fun made i => set made cr3 i (entry made current i)) (zero tables cr3)

namespace TopLevel

variable {paging : Paging} (top : paging.TopLevel)

theorem copy_other (tables : paging.Tables) {cr3 space : UInt64} (current : UInt64) (different : space ≠ cr3)
    (indices : List Nat) (i : Nat) :
    top.entry (indices.foldl (fun made i => top.set made cr3 i (top.entry made current i)) tables) space i =
      top.entry tables space i := by
  induction indices generalizing tables with
  | nil => rfl
  | cons index rest ih =>
    rw [List.foldl_cons, ih, top.set_other]
    intro same
    exact different (Prod.mk.inj same).1

theorem copy_untouched (tables : paging.Tables) (cr3 current : UInt64) {indices : List Nat} {i : Nat}
    (outside : i ∉ indices) :
    top.entry (indices.foldl (fun made i => top.set made cr3 i (top.entry made current i)) tables) cr3 i =
      top.entry tables cr3 i := by
  induction indices generalizing tables with
  | nil => rfl
  | cons index rest ih =>
    rw [List.mem_cons, not_or] at outside
    rw [List.foldl_cons, ih _ outside.2, top.set_other]
    intro same
    exact outside.1 (Prod.mk.inj same).2

theorem copy_entry (tables : paging.Tables) {cr3 current : UInt64} (different : current ≠ cr3) {indices : List Nat}
    {i : Nat} (copied : i ∈ indices) :
    top.entry (indices.foldl (fun made i => top.set made cr3 i (top.entry made current i)) tables) cr3 i =
      top.entry tables current i := by
  induction indices generalizing tables with
  | nil => cases copied
  | cons index rest ih =>
    rw [List.foldl_cons]
    by_cases later : i ∈ rest
    · -- a store to the new table leaves the current one as it is
      rw [ih _ later, top.set_other]
      intro same
      exact different (Prod.mk.inj same).1
    · rcases List.mem_cons.mp copied with rfl | again
      · rw [top.copy_untouched _ _ _ later, top.entry_set]
      · exact absurd again later

theorem newTable_lower (tables : paging.Tables) (cr3 current : UInt64) {i : Nat} (low : i < 256) :
    top.entry (paging.newTable tables cr3 current) cr3 i = top.empty := by
  have outside : i ∉ upperEntries := by
    rw [mem_upperEntries]
    omega
  rw [top.newTable_eq, top.copy_untouched _ _ _ outside, top.entry_zero]

theorem newTable_upper (tables : paging.Tables) {cr3 current : UInt64} (different : current ≠ cr3) {i : Nat}
    (high : 256 ≤ i) (inside : i < 512) :
    top.entry (paging.newTable tables cr3 current) cr3 i = top.entry tables current i := by
  have copied : i ∈ upperEntries := mem_upperEntries.mpr ⟨high, inside⟩
  rw [top.newTable_eq, top.copy_entry _ different copied, top.zero_other _ _ _ _ different]

theorem newTable_other (tables : paging.Tables) {cr3 space : UInt64} (current : UInt64) (different : space ≠ cr3)
    (i : Nat) : top.entry (paging.newTable tables cr3 current) space i = top.entry tables space i := by
  rw [top.newTable_eq, top.copy_other _ _ different, top.zero_other _ _ _ _ different]

end TopLevel

/-! ## Tables of two levels -/

abbrev SlotTables := UInt64 → Nat → List (UInt64 × UInt64 × PageFlags)

namespace SlotTables

variable (tables : SlotTables)

def translate (cr3 page : UInt64) : Option (UInt64 × PageFlags) := (tables cr3 (slot page)).lookup page

def zero (cr3 : UInt64) : SlotTables := Function.update tables cr3 fun _ => []

def set (cr3 : UInt64) (i : Nat) (entries : List (UInt64 × UInt64 × PageFlags)) : SlotTables :=
  Function.update tables cr3 (Function.update (tables cr3) i entries)

def insert (cr3 page frame : UInt64) (flags : PageFlags) : SlotTables :=
  tables.set cr3 (slot page) ((page, frame, flags) :: tables cr3 (slot page))

def mapTo (allocator : BitmapAllocator) (cr3 page frame : UInt64) (flags : PageFlags) :
    SlotTables × BitmapAllocator × MapResult :=
  match tables.translate cr3 page with
  | some _ => (tables, allocator, .error .pageAlreadyMapped)
  | none =>
    if tables cr3 (slot page) = [] then
      match allocator.allocateFrame with
      | some (after, some _) => (tables.insert cr3 page frame flags, after, .ok)
      | some (after, none) => (tables, after, .error .frameAllocationFailed)
      | none => (tables, allocator, .panicked)
    else (tables.insert cr3 page frame flags, allocator, .ok)

theorem zero_self (cr3 : UInt64) (i : Nat) : tables.zero cr3 cr3 i = [] := by
  rw [zero, Function.update_self]

theorem zero_other {cr3 space : UInt64} (i : Nat) (different : space ≠ cr3) :
    tables.zero cr3 space i = tables space i := by
  rw [zero, Function.update_of_ne different]

theorem set_self (cr3 : UInt64) (i : Nat) (entries : List (UInt64 × UInt64 × PageFlags)) :
    tables.set cr3 i entries cr3 i = entries := by
  simp [set]

theorem set_other {cr3 space : UInt64} {i j : Nat} (entries : List (UInt64 × UInt64 × PageFlags))
    (different : (space, j) ≠ (cr3, i)) : tables.set cr3 i entries space j = tables space j := by
  unfold set
  by_cases same : space = cr3
  · subst same
    have index : j ≠ i := fun equal => different (by rw [equal])
    rw [Function.update_self, Function.update_of_ne index]
  · rw [Function.update_of_ne same]

theorem translate_insert (cr3 page frame : UInt64) (flags : PageFlags) :
    (tables.insert cr3 page frame flags).translate cr3 page = some (frame, flags) := by
  rw [translate, insert, set_self, List.lookup_cons_self]

theorem translate_insert_other {cr3 page space other : UInt64} (frame : UInt64) (flags : PageFlags)
    (different : (space, other) ≠ (cr3, page)) :
    (tables.insert cr3 page frame flags).translate space other = tables.translate space other := by
  unfold translate insert
  by_cases here : (space, slot other) = (cr3, slot page)
  · obtain ⟨rfl, index⟩ := Prod.mk.inj here
    have apart : (other == page) = false := by
      rw [beq_eq_false_iff_ne]
      rintro rfl
      exact different rfl
    rw [index, set_self, List.lookup_cons, apart]
  · rw [set_other _ _ here]

theorem mapTo_cases (allocator : BitmapAllocator) (cr3 page frame : UInt64) (flags : PageFlags) :
    let called := tables.mapTo allocator cr3 page frame flags
    (called.2.2 = .ok ∧ tables.translate cr3 page = none ∧ called.1 = tables.insert cr3 page frame flags) ∨
    (called.2.2 ≠ .ok ∧ called.1 = tables) := by
  unfold mapTo
  dsimp only
  split
  next => exact .inr ⟨nofun, rfl⟩
  next absent =>
    split
    next =>
      split
      next => exact .inl ⟨rfl, absent, rfl⟩
      next => exact .inr ⟨nofun, rfl⟩
      next => exact .inr ⟨nofun, rfl⟩
    next => exact .inl ⟨rfl, absent, rfl⟩

theorem mapTo_takes (allocator : BitmapAllocator) (cr3 page frame : UInt64) (flags : PageFlags) :
    ∃ frames : List UInt64, frames.length ≤ 3 ∧
      allocator.Takes frames (tables.mapTo allocator cr3 page frame flags).2.1 := by
  unfold mapTo
  split
  next => exact ⟨[], by simp, .nil _⟩
  next =>
    split
    next =>
      split
      next after taken returned => exact ⟨[taken], by simp, .cons returned (.nil _)⟩
      next after returned =>
        refine ⟨[], by simp, ?_⟩
        rw [BitmapAllocator.allocateFrame_none returned]
        exact .nil _
      next => exact ⟨[], by simp, .nil _⟩
    next => exact ⟨[], by simp, .nil _⟩

theorem mapTo_other (allocator : BitmapAllocator) {cr3 page space : UInt64} {i : Nat} (frame : UInt64)
    (flags : PageFlags) (different : (space, i) ≠ (cr3, slot page)) :
    (tables.mapTo allocator cr3 page frame flags).1 space i = tables space i := by
  rcases tables.mapTo_cases allocator cr3 page frame flags with ⟨_, _, made⟩ | ⟨_, same⟩
  · rw [made, insert, set_other _ _ different]
  · rw [same]

theorem mapTo_keeps (allocator : BitmapAllocator) (cr3 page frame : UInt64) (flags : PageFlags) {space other : UInt64}
    {entry : UInt64 × PageFlags} (mapped : tables.translate space other = some entry) :
    (tables.mapTo allocator cr3 page frame flags).1.translate space other = some entry := by
  rcases tables.mapTo_cases allocator cr3 page frame flags with ⟨_, absent, made⟩ | ⟨_, same⟩
  · rw [made, translate_insert_other]
    · exact mapped
    · intro same
      obtain ⟨rfl, rfl⟩ := Prod.mk.inj same
      rw [absent] at mapped
      cases mapped
  · rw [same]
    exact mapped

theorem mapTo_ok {allocator : BitmapAllocator} {cr3 page : UInt64} (frame : UInt64) (flags : PageFlags)
    (absent : tables.translate cr3 page = none) (stocked : allocator.Stocked 3) :
    (tables.mapTo allocator cr3 page frame flags).2.2 = .ok := by
  obtain ⟨after, idx, returned, _⟩ := stocked.allocate
  simp only [mapTo, absent, returned]
  split <;> rfl

def newTable (cr3 current : UInt64) : SlotTables :=
  upperEntries.foldl (fun made i => made.set cr3 i (made current i)) (tables.zero cr3)

theorem translate_newTable {cr3 space : UInt64} (current page : UInt64) (different : space ≠ cr3) :
    (tables.newTable cr3 current).translate space page = tables.translate space page := by
  have copied : ∀ (indices : List Nat) (made : SlotTables),
      indices.foldl (fun made i => made.set cr3 i (made current i)) made space = made space := by
    intro indices
    induction indices with
    | nil => exact fun _ => rfl
    | cons index rest ih =>
      intro made
      rw [List.foldl_cons, ih, set, Function.update_of_ne different]
  rw [translate, newTable, copied, zero, Function.update_of_ne different]
  rfl

end SlotTables

def slots : Paging where
  Tables := SlotTables
  lookup := SlotTables.translate
  mapTo := SlotTables.mapTo
  updateFlags tables cr3 page flags := tables.set cr3 (slot page) ((tables cr3 (slot page)).map fun entry =>
    if entry.1 = page then (page, entry.2.1, flags) else entry)
  newTable := SlotTables.newTable
  takes tables allocator cr3 page frame flags := by
    obtain ⟨frames, _, takes⟩ := tables.mapTo_takes allocator cr3 page frame flags
    exact ⟨frames, takes⟩
  mapped tables allocator cr3 page frame flags ok := by
    rcases tables.mapTo_cases allocator cr3 page frame flags with ⟨_, absent, made⟩ | ⟨failed, _⟩
    · exact ⟨absent, made ▸ tables.translate_insert cr3 page frame flags⟩
    · exact absurd ok failed
  otherPages tables allocator cr3 page frame flags other different := by
    rcases tables.mapTo_cases allocator cr3 page frame flags with ⟨_, _, made⟩ | ⟨_, same⟩
    · rw [made, tables.translate_insert_other _ _ (by simpa using different)]
    · rw [same]
  refused tables allocator cr3 page frame flags failed := by
    rcases tables.mapTo_cases allocator cr3 page frame flags with ⟨ok, _⟩ | ⟨_, same⟩
    · exact absurd ok failed
    · rw [same]

theorem slots_lawful : slots.Lawful where
  maps tables _ _ _ frame flags absent stocked := SlotTables.mapTo_ok tables frame flags absent stocked
  fewTables := SlotTables.mapTo_takes
  keeps tables allocator cr3 page frame flags _ _ _ mapped :=
    SlotTables.mapTo_keeps tables allocator cr3 page frame flags mapped
  newTable tables _ current _ page different := SlotTables.translate_newTable tables current page different

def slotsTop : slots.TopLevel where
  Entry := List (UInt64 × UInt64 × PageFlags)
  empty := []
  entry tables cr3 i := tables cr3 i
  zero := SlotTables.zero
  set := SlotTables.set
  entry_zero := SlotTables.zero_self
  zero_other tables _ _ i different := SlotTables.zero_other tables i different
  entry_set := SlotTables.set_self
  set_other tables cr3 i value space j different := SlotTables.set_other tables value different
  unmapped tables cr3 page nothing := by
    change (tables cr3 (slot page)).lookup page = none
    rw [nothing]
    rfl
  mapTo_other tables allocator cr3 page frame flags space i different :=
    SlotTables.mapTo_other tables allocator frame flags different
  newTable_eq tables cr3 current := rfl

end Paging

end ElseOS
