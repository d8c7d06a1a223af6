import ElseOS.Memory.FreeFrames

/-! The reservation of the DMA pool.

The scan of `init` finds the lowest run of sixteen free frames, and the pass behind it marks
them and counts them. -/

set_option autoImplicit false

namespace ElseOS.BitmapAllocator

open Base (Bitmap)

def reserveDma (allocator : BitmapAllocator) : Option (BitmapAllocator × UInt64) :=
  (allocator.searchDma allocator.totalFrames 0 0 0).bind fun dmaStartFrame =>
    if dmaStartFrame = 0 then none
    else (allocator.markFrames (List.range' dmaStartFrame dmaPages)).map fun ready =>
      (ready, UInt64.ofNat dmaStartFrame * PAGE_SIZE)

theorem init_eq_reserveDma (entries : List MemoryMapEntry) :
    let size := ((full entries).totalFrames + 7) / 8
    let home := bitmapRegion entries size
    init entries = if home = 0 then none
      else ((full entries).unmarkUsable entries).bind fun freed =>
      (freed.reserveFree (bitmapFrames home size)).bind reserveDma :=
  rfl

variable {allocator after : BitmapAllocator} {bitmap : Bitmap}

theorem getBit_isSome (present : allocator.bitmap = some bitmap) {idx : Nat} (inside : idx < 8 * bitmap.length) :
    (allocator.getBit idx).isSome = true := by
  have byte : idx / 8 < bitmap.length := by omega
  simp [getBit, present, Bitmap.getBit, List.getElem?_eq_getElem byte]

theorem setBit_eq (present : allocator.bitmap = some bitmap) {idx : Nat} (inside : idx < 8 * bitmap.length)
    (value : Bool) :
    ∃ changed : Bitmap, allocator.setBit idx value = some { allocator with bitmap := some changed } ∧
      changed.length = bitmap.length := by
  have byte : idx / 8 < bitmap.length := by omega
  refine ⟨List.set bitmap (idx / 8) (Bitmap.write bitmap[idx / 8] (idx % 8) value), ?_, List.length_set⟩
  simp [setBit, present, Bitmap.setBit, List.getElem?_eq_getElem byte]

theorem markFrames_counts {frames : List Nat} (present : allocator.bitmap = some bitmap)
    (inside : ∀ idx ∈ frames, idx < 8 * bitmap.length) :
    ∃ after, allocator.markFrames frames = some after ∧
      after.freeFrames = allocator.freeFrames - UInt64.ofNat frames.length := by
  induction frames generalizing allocator bitmap with
  | nil => exact ⟨allocator, rfl, by simp⟩
  | cons idx rest ih =>
    obtain ⟨changed, written, length⟩ := setBit_eq present (inside idx List.mem_cons_self) true
    obtain ⟨after, marked, counted⟩ :=
      @ih { allocator with bitmap := some changed, freeFrames := allocator.freeFrames - 1 }
      changed rfl (fun other member => length ▸ inside other (List.mem_cons_of_mem idx member))
    refine ⟨after, ?_, ?_⟩
    · rw [markFrames, written, Option.bind_some]
      exact marked
    · rw [counted, List.length_cons, UInt64.ofNat_add]
      simp only
      grind

theorem reserveDma_exact (allocator : BitmapAllocator) (bitmap : Bitmap) (present : allocator.bitmap = some bitmap)
    (covers : allocator.totalFrames ≤ 8 * bitmap.length) (zero : bitmap.getBit 0 ≠ some false) :
    (allocator.reserveDma = none ↔ ∀ start, ¬ allocator.FreeRun start) ∧
    ∀ after pool, allocator.reserveDma = some (after, pool) →
      ∃ start, IsLeast {start | allocator.FreeRun start} start ∧ pool = UInt64.ofNat start * PAGE_SIZE ∧
        Rewrites allocator after (fun idx => start ≤ idx ∧ idx < start + dmaPages) true ∧
        after.freeFrames = allocator.freeFrames - 16 := by
  have readable : ∀ idx < allocator.totalFrames, (allocator.getBit idx).isSome = true :=
    fun idx below => getBit_isSome present (Nat.lt_of_lt_of_le below covers)
  obtain ⟨start, search⟩ := searchDma_returns readable allocator.totalFrames 0 (by omega) 0 0
  unfold reserveDma
  rcases searchDma_spec search with least | ⟨rfl, none⟩
  · -- the first frame is used, so the run does not start at the value for "not found"
    have nonzero : start ≠ 0 := by
      rintro rfl
      have first := (least.1 0 (by decide)).2
      simp only [getBit, present] at first
      exact zero first
    have inside : ∀ idx ∈ List.range' start dmaPages, idx < 8 * bitmap.length := by
      intro idx member
      have bounds := List.mem_range'_1.mp member
      have last := least.1.inside
      omega
    obtain ⟨ready, marked, counted⟩ := markFrames_counts present inside
    rw [search, Option.bind_some, if_neg nonzero, marked, Option.map_some]
    refine ⟨iff_of_false (Option.some_ne_none _) fun never => never start least.1, ?_⟩
    intro after pool reserved
    obtain ⟨rfl, rfl⟩ := Prod.mk.inj (Option.some.inj reserved)
    refine ⟨start, least, rfl, ?_, ?_⟩
    · apply (rewrites_markFrames (by rw [present]; rfl) marked).congr
      intro idx
      exact List.mem_range'_1.symm
    · rw [counted, List.length_range']
      rfl
  · rw [search, Option.bind_some, if_pos rfl]
    refine ⟨iff_of_true rfl none, ?_⟩
    intro after pool reserved
    cases reserved

def gappedAllocator : BitmapAllocator := ⟨some [0x0F, 0x10, 0x00, 0x00, 0xF0], 36, 31, 0, 0x1000⟩

theorem reserveDma_gapped : ∃ after start, gappedAllocator.reserveDma = some (after, 0xD000) ∧
    IsLeast {start | gappedAllocator.FreeRun start} start ∧ 0xD000 = UInt64.ofNat start * PAGE_SIZE ∧
    after.freeFrames = 15 := by
  obtain ⟨_, reserves⟩ := reserveDma_exact gappedAllocator [0x0F, 0x10, 0x00, 0x00, 0xF0] rfl (by decide) (by decide)
  have result : gappedAllocator.reserveDma =
      some (⟨some [0x0F, 0xF0, 0xFF, 0x1F, 0xF0], 36, 15, 0, 0x1000⟩, 0xD000) := by decide
  obtain ⟨start, least, pool, _, counted⟩ := reserves _ _ result
  exact ⟨_, start, result, least, pool, counted⟩

end ElseOS.BitmapAllocator
