import ElseOS.Elf.Loader
import ElseOS.Memory.TopLevel
import Mathlib.Order.Interval.Finset.Nat

/-! The address space that `spawn_from_elf` builds.

The segments of a file say page by page what memory must hold: a plan. The loader carries
it out in order, one fresh frame for each page. It stops only where the iterator over
pages does, at the last page of the lower half. -/

set_option autoImplicit false

namespace ElseOS.Elf

open Base (Action)
open Base.Action (Returns Stops)
open BitmapAllocator (frameAddress frameAddress_toNat)
open Memory (pageAt pageAt_toNat)

/-! ## What the file asks for -/

namespace Segment

variable (segment : Segment)

def firstPage : Nat := segment.vaddr.toNat / 4096

def lastPage : Nat := (segment.vaddr.toNat + segment.memsz.toNat - 1) / 4096

def pages : Finset Nat := Finset.Icc segment.firstPage segment.lastPage

/-- It has a length, its bytes lie in the file and its addresses in the lower half. -/
structure Valid (image : ElfImage) : Prop where
  nonempty : 0 < segment.memsz.toNat
  short : segment.filesz.toNat ≤ segment.memsz.toNat
  file : ∀ k < segment.filesz.toNat, segment.offset.toNat + k < image.len
  lower : segment.vaddr.toNat + segment.memsz.toNat ≤ 2 ^ 47

instance (image : ElfImage) : Decidable (segment.Valid image) :=
  decidable_of_iff (0 < segment.memsz.toNat ∧ segment.filesz.toNat ≤ segment.memsz.toNat ∧
      (∀ k < segment.filesz.toNat, segment.offset.toNat + k < image.len) ∧
      segment.vaddr.toNat + segment.memsz.toNat ≤ 2 ^ 47)
    ⟨fun ⟨nonempty, short, file, lower⟩ => ⟨nonempty, short, file, lower⟩,
      fun valid => ⟨valid.nonempty, valid.short, valid.file, valid.lower⟩⟩

end Segment

def phoff (image : ElfImage) : UInt64 := (image.readU64 ePhoff).getD 0

def phnum (image : ElfImage) : Nat := (image.read ePhnum 2).getD 0

def phdrOffset (image : ElfImage) (i : Nat) : UInt64 := phoff image + UInt64.ofNat i * phdrSize

def segmentAt (image : ElfImage) (offset : UInt64) : Option Segment :=
  if image.read offset 4 = some PT_LOAD then
    (image.readU64 (offset + pVaddr)).bind fun vaddr => (image.readU64 (offset + pMemsz)).bind fun memsz =>
      (image.readU64 (offset + pOffset)).bind fun start => (image.readU64 (offset + pFilesz)).map fun filesz =>
        ⟨vaddr, memsz, start, filesz⟩
  else none

def segments (image : ElfImage) : List Segment :=
  (List.range (phnum image)).filterMap fun i => segmentAt image (phdrOffset image i)

def stackPages : Finset Nat := Finset.Ico (0x700000000 - 4) 0x700000000

/-- A file whose headers and segments lie where they should. -/
structure WellFormed (image : ElfImage) : Prop where
  header : ehdrSize ≤ image.len
  magic : image.read 0 4 = some ELFMAG
  headers : ∀ i < phnum image, (phoff image).toNat + 56 * i + 56 ≤ image.len
  valid : ∀ segment ∈ segments image, segment.Valid image
  disjoint : (segments image).Pairwise fun first second => Disjoint first.pages second.pages
  stack : ∀ segment ∈ segments image, Disjoint segment.pages stackPages

instance (image : ElfImage) : Decidable (WellFormed image) :=
  decidable_of_iff (ehdrSize ≤ image.len ∧ image.read 0 4 = some ELFMAG ∧
      (∀ i < phnum image, (phoff image).toNat + 56 * i + 56 ≤ image.len) ∧
      (∀ segment ∈ segments image, segment.Valid image) ∧
      ((segments image).Pairwise fun first second => Disjoint first.pages second.pages) ∧
      ∀ segment ∈ segments image, Disjoint segment.pages stackPages)
    ⟨fun ⟨header, magic, headers, valid, disjoint, stack⟩ => ⟨header, magic, headers, valid, disjoint, stack⟩,
      fun formed => ⟨formed.header, formed.magic, formed.headers, formed.valid, formed.disjoint, formed.stack⟩⟩

def Occupied (image : ElfImage) (page : Nat) : Prop :=
  (∃ segment ∈ segments image, page ∈ segment.pages) ∨ page ∈ stackPages

def pageCount (image : ElfImage) : Nat := ((segments image).map fun segment => segment.pages.card).sum + 4

/-! ## What was built -/

variable {paging : Paging}

def pageAddress (number : Nat) : UInt64 := pageAt 0 number

def readUser (mem : Memory paging) (cr3 addr : UInt64) : Option UInt8 :=
  (mem.lookup cr3 (containingAddress addr)).map fun entry => mem.ram (entry.1 + (addr - containingAddress addr))

/-- The address space holds the file's image. -/
structure Loaded (top : paging.TopLevel) (image : ElfImage) (currentCr3 : UInt64) (before after : Memory paging)
    (cr3 : UInt64) : Prop where
  file : ∀ segment ∈ segments image, ∀ k < segment.filesz.toNat,
    readUser after cr3 (segment.vaddr + UInt64.ofNat k) = image.byte (segment.offset + UInt64.ofNat k)
  bss : ∀ segment ∈ segments image, ∀ k < segment.memsz.toNat, segment.filesz.toNat ≤ k →
    readUser after cr3 (segment.vaddr + UInt64.ofNat k) = some 0
  padding : ∀ segment ∈ segments image, ∀ addr : UInt64, addr.toNat / 4096 ∈ segment.pages →
    (addr.toNat < segment.vaddr.toNat ∨ segment.vaddr.toNat + segment.memsz.toNat ≤ addr.toNat) →
    readUser after cr3 addr = some 0
  fresh : ∀ page, Occupied image page → ∃ idx ∈ before.allocator.free, idx ∉ after.allocator.free ∧
    after.lookup cr3 (pageAddress page) = some (frameAddress idx, userFlags)
  distinct : ∀ page other, Occupied image page → Occupied image other →
    after.lookup cr3 (pageAddress page) = after.lookup cr3 (pageAddress other) → page = other
  upper : ∀ i, 256 ≤ i → i < 512 → top.entry after.tables cr3 i = top.entry after.tables currentCr3 i
  /-- A table that was in use is as it was. -/
  current : before.allocator.InUse currentCr3 →
    ∀ i, top.entry after.tables currentCr3 i = top.entry before.tables currentCr3 i

/-! ## The plan -/

structure Planned where
  number : Nat
  byte : Nat → Option UInt8

def segmentByte (image : ElfImage) (segment : Segment) (addr : Nat) : UInt8 :=
  if segment.vaddr.toNat ≤ addr ∧ addr < segment.vaddr.toNat + segment.filesz.toNat then
    (image.byte (segment.offset + UInt64.ofNat (addr - segment.vaddr.toNat))).getD 0
  else 0

def segmentPage (image : ElfImage) (segment : Segment) (number : Nat) : Planned :=
  ⟨number, fun offset => some (segmentByte image segment (4096 * number + offset))⟩

def segmentPlan (image : ElfImage) (segment : Segment) : List Planned :=
  (List.range segment.pages.card).map fun j => segmentPage image segment (segment.firstPage + j)

def stackPage (i : Nat) : Planned := ⟨0x700000000 - (i + 1), fun _ => none⟩

def stackPlan : List Planned := (List.range 4).map stackPage

/-! ## One page -/

/-- The address space has exactly the pages done so far, each in a fresh frame of its own. -/
structure Filled (before : BitmapAllocator) (cr3 : UInt64) (done : List Planned) (table : Nat → Nat)
    (mem : Memory paging) : Prop where
  less : mem.allocator.free ⊆ before.free
  fresh : ∀ page ∈ done, table page.number ∈ before.free ∧ table page.number ∉ mem.allocator.free
  apart : ∀ page ∈ done, ∀ other ∈ done, table page.number = table other.number → page.number = other.number
  mapped : ∀ page ∈ done,
    mem.lookup cr3 (pageAddress page.number) = some (frameAddress (table page.number), userFlags)
  unmapped : ∀ number < 2 ^ 35, (∀ page ∈ done, page.number ≠ number) → mem.lookup cr3 (pageAddress number) = none
  bytes : ∀ page ∈ done, ∀ offset < 4096, ∀ value, page.byte offset = some value →
    mem.ram (frameAddress (table page.number) + UInt64.ofNat offset) = value

structure Places (cr3 : UInt64) (page : Planned) (idx : Nat) (mem after : Memory paging) : Prop where
  wasFree : idx ∈ mem.allocator.free
  taken : idx ∉ after.allocator.free
  less : after.allocator.free ⊆ mem.allocator.free
  lookup : after.lookup cr3 =
    Function.update (mem.lookup cr3) (pageAddress page.number) (some (frameAddress idx, userFlags))
  bytes : ∀ offset < 4096, ∀ value, page.byte offset = some value →
    after.ram (frameAddress idx + UInt64.ofNat offset) = value
  others : ∀ addr : UInt64, addr.toNat / 4096 ≠ idx → after.ram addr = mem.ram addr

theorem pageAddress_toNat {number : Nat} (small : number < 2 ^ 35) : (pageAddress number).toNat = 4096 * number := by
  have zero : (0 : UInt64).toNat = 0 := rfl
  rw [pageAddress, pageAt_toNat (by omega), zero, Nat.zero_add]

theorem pageAddress_inj {first second : Nat} (small : first < 2 ^ 35) (alsoSmall : second < 2 ^ 35)
    (same : pageAddress first = pageAddress second) : first = second := by
  have equal := congrArg UInt64.toNat same
  rw [pageAddress_toNat small, pageAddress_toNat alsoSmall] at equal
  omega

theorem frame_offset_toNat {idx offset : Nat} (small : idx < 2 ^ 52) (inside : offset < 4096) :
    (frameAddress idx + UInt64.ofNat offset).toNat = 4096 * idx + offset := by
  rw [UInt64.toNat_add, frameAddress_toNat small, UInt64.toNat_ofNat']
  omega

theorem Filled.place {before : BitmapAllocator} {cr3 : UInt64} {done : List Planned} {table : Nat → Nat}
    {mem after : Memory paging} {page : Planned} {idx : Nat} (ready : before.Ready)
    (filled : Filled before cr3 done table mem) (places : Places cr3 page idx mem after)
    (small : page.number < 2 ^ 35) (allSmall : ∀ other ∈ done, other.number < 2 ^ 35)
    (new : ∀ other ∈ done, other.number ≠ page.number) :
    Filled before cr3 (done ++ [page]) (Function.update table page.number idx) after := by
  have wasFree := filled.less places.wasFree
  -- no page done before has the frame taken now
  have different : ∀ other ∈ done, table other.number ≠ idx := by
    intro other member same
    exact (filled.fresh other member).2 (same ▸ places.wasFree)
  have old : ∀ other ∈ done, Function.update table page.number idx other.number = table other.number :=
    fun other member => Function.update_of_ne (new other member) _ _
  refine ⟨places.less.trans filled.less, ?_, ?_, ?_, ?_, ?_⟩
  · intro other member
    rcases List.mem_append.mp member with earlier | now
    · rw [old other earlier]
      obtain ⟨isFree, gone⟩ := filled.fresh other earlier
      exact ⟨isFree, fun stillFree => gone (places.less stillFree)⟩
    · rw [List.mem_singleton] at now
      subst now
      rw [Function.update_self]
      exact ⟨wasFree, places.taken⟩
  · intro first member second alsoMember same
    rcases List.mem_append.mp member with earlier | now <;> rcases List.mem_append.mp alsoMember
      with earlierToo | nowToo
    · rw [old first earlier, old second earlierToo] at same
      exact filled.apart first earlier second earlierToo same
    · rw [List.mem_singleton] at nowToo
      subst nowToo
      rw [old first earlier, Function.update_self] at same
      exact absurd same (different first earlier)
    · rw [List.mem_singleton] at now
      subst now
      rw [old second earlierToo, Function.update_self] at same
      exact absurd same.symm (different second earlierToo)
    · rw [List.mem_singleton] at now nowToo
      rw [now, nowToo]
  · intro other member
    rw [places.lookup]
    rcases List.mem_append.mp member with earlier | now
    · have elsewhere : pageAddress other.number ≠ pageAddress page.number :=
        fun same => new other earlier (pageAddress_inj (allSmall other earlier) small same)
      rw [Function.update_of_ne elsewhere, old other earlier]
      exact filled.mapped other earlier
    · rw [List.mem_singleton] at now
      subst now
      rw [Function.update_self, Function.update_self]
  · intro number low absent
    have elsewhere : pageAddress number ≠ pageAddress page.number :=
      fun same => absent page (by simp) (pageAddress_inj low small same).symm
    rw [places.lookup, Function.update_of_ne elsewhere]
    exact filled.unmapped number low fun other member => absent other (List.mem_append_left _ member)
  · intro other member offset inside value given
    rcases List.mem_append.mp member with earlier | now
    · rw [old other earlier, places.others]
      · exact filled.bytes other earlier offset inside value given
      · rw [frame_offset_toNat (ready.frame_small (filled.fresh other earlier).1) inside]
        have apart := different other earlier
        omega
    · rw [List.mem_singleton] at now
      subst now
      rw [Function.update_self]
      exact places.bytes offset inside value given

theorem Segment.Valid.page_small {image : ElfImage} {segment : Segment} (valid : segment.Valid image) {number : Nat}
    (inside : number ∈ segment.pages) : number < 2 ^ 35 := by
  have nonempty := valid.nonempty
  have lower := valid.lower
  simp only [Segment.pages, Segment.lastPage, Finset.mem_Icc] at inside
  omega

structure Clip (segment : Segment) (number : Nat) (copyStart copyEnd : UInt64) : Prop where
  start : copyStart.toNat = max (4096 * number) segment.vaddr.toNat
  stop : copyEnd.toNat = min (4096 * number + 4096) (segment.vaddr.toNat + segment.filesz.toNat)

theorem clip {image : ElfImage} {segment : Segment} (valid : segment.Valid image) {number : Nat}
    (small : number < 2 ^ 35) :
    Clip segment number (max (pageAddress number) segment.vaddr)
      (min (pageAddress number + PAGE_SIZE) (segment.vaddr + segment.filesz)) := by
  have short := valid.short
  have lower := valid.lower
  constructor
  · rw [toNat_max, pageAddress_toNat small]
  · have next : (pageAddress number + PAGE_SIZE).toNat = 4096 * number + 4096 := by
      rw [UInt64.toNat_add, pageAddress_toNat small, PAGE_SIZE_toNat, Nat.mod_eq_of_lt]
      omega
    have last : (segment.vaddr + segment.filesz).toNat = segment.vaddr.toNat + segment.filesz.toNat := by
      rw [UInt64.toNat_add, Nat.mod_eq_of_lt]
      omega
    rw [toNat_min, next, last]

section Clip

variable {image : ElfImage} {segment : Segment} {number idx : Nat} {copyStart copyEnd : UInt64}

theorem Clip.ahead (clipped : Clip segment number copyStart copyEnd) :
    (copyStart - segment.vaddr).toNat = copyStart.toNat - segment.vaddr.toNat := by
  have start := clipped.start
  exact UInt64.toNat_sub_of_le _ _ (UInt64.le_iff_toNat_le.mpr (by omega))

theorem Clip.readable (clipped : Clip segment number copyStart copyEnd) (valid : segment.Valid image) {i : Nat}
    (below : i < copyEnd.toNat - copyStart.toNat) :
    (image.byte (segment.offset + (copyStart - segment.vaddr) + UInt64.ofNat i)).isSome := by
  have start := clipped.start
  have stop := clipped.stop
  have short := valid.short
  have lower := valid.lower
  have inFile := valid.file (copyStart.toNat - segment.vaddr.toNat + i) (by omega)
  apply image.readable
  rw [UInt64.toNat_add, UInt64.toNat_add, clipped.ahead, UInt64.toNat_ofNat']
  omega

theorem Clip.target (clipped : Clip segment number copyStart copyEnd) (low : number < 2 ^ 35) (small : idx < 2 ^ 52)
    (some : copyStart < copyEnd) :
    (frameAddress idx + (copyStart - pageAddress number)).toNat = 4096 * idx + (copyStart.toNat - 4096 * number) := by
  have start := clipped.start
  have stop := clipped.stop
  have page := pageAddress_toNat low
  have order := UInt64.lt_iff_toNat_lt.mp some
  rw [UInt64.toNat_add, frameAddress_toNat small, UInt64.toNat_sub_of_le _ _ (UInt64.le_iff_toNat_le.mpr (by omega)),
    page]
  omega

theorem Clip.copied (clipped : Clip segment number copyStart copyEnd) (low : number < 2 ^ 35) (small : idx < 2 ^ 52)
    (some : copyStart < copyEnd) {ram : Ram} {offset : Nat} (below : offset < 4096)
    (clean : ram (frameAddress idx + UInt64.ofNat offset) = 0) :
    ram.copy (frameAddress idx + (copyStart - pageAddress number)) (copyEnd - copyStart)
        (fun i => (image.byte (segment.offset + (copyStart - segment.vaddr) + i)).getD 0)
        (frameAddress idx + UInt64.ofNat offset) =
      segmentByte image segment (4096 * number + offset) := by
  have start := clipped.start
  have stop := clipped.stop
  have ahead := clipped.ahead
  have target := clipped.target low small some
  have order := UInt64.lt_iff_toNat_lt.mp some
  have here := frame_offset_toNat small below
  have length : (copyEnd - copyStart).toNat = copyEnd.toNat - copyStart.toNat :=
    UInt64.toNat_sub_of_le _ _ (UInt64.le_of_lt some)
  simp only [Ram.copy]
  by_cases inside : copyStart.toNat ≤ 4096 * number + offset ∧ 4096 * number + offset < copyEnd.toNat
  · rw [if_pos, segmentByte, if_pos]
    · congr 2
      have behind :
        (frameAddress idx + UInt64.ofNat offset - (frameAddress idx + (copyStart - pageAddress number))).toNat =
          4096 * number + offset - copyStart.toNat := by
        rw [UInt64.toNat_sub_of_le _ _ (UInt64.le_iff_toNat_le.mpr (by omega)), here, target]
        omega
      apply UInt64.toNat_inj.mp
      rw [UInt64.toNat_add, UInt64.toNat_add, behind, ahead, UInt64.toNat_add, UInt64.toNat_ofNat']
      omega
    · omega
    · rw [offset_lt_iff (by omega), here, target, length]
      omega
  · rw [if_neg, clean, segmentByte, if_neg]
    · omega
    · rw [offset_lt_iff (by omega), here, target, length]
      omega

end Clip

theorem returns_copyPage {image : ElfImage} {segment : Segment} (valid : segment.Valid image) {number idx : Nat}
    (inside : number ∈ segment.pages) (small : idx < 2 ^ 52) {mem : Memory paging}
    (clean : ∀ offset < 4096, mem.ram (frameAddress idx + UInt64.ofNat offset) = 0) :
    Returns (copyPage image segment (pageAddress number) (frameAddress idx)) mem fun _ after =>
      after.allocator = mem.allocator ∧ after.tables = mem.tables ∧
      (∀ offset < 4096,
        after.ram (frameAddress idx + UInt64.ofNat offset) = segmentByte image segment (4096 * number + offset)) ∧
      ∀ addr : UInt64, addr.toNat / 4096 ≠ idx → after.ram addr = mem.ram addr := by
  have low := valid.page_small inside
  have clipped := clip valid low
  unfold copyPage
  dsimp only
  generalize max (pageAddress number) segment.vaddr = copyStart at *
  generalize min (pageAddress number + PAGE_SIZE) (segment.vaddr + segment.filesz) = copyEnd at *
  have start := clipped.start
  have stop := clipped.stop
  split
  next some =>
    have order := UInt64.lt_iff_toNat_lt.mp some
    have target := clipped.target low small some
    have length : (copyEnd - copyStart).toNat = copyEnd.toNat - copyStart.toNat :=
      UInt64.toNat_sub_of_le _ _ (UInt64.le_of_lt some)
    have readable : ((List.range (copyEnd - copyStart).toNat).all fun i =>
        (image.byte (segment.offset + (copyStart - segment.vaddr) + UInt64.ofNat i)).isSome) = true := by
      rw [List.all_eq_true, length]
      exact fun i member => clipped.readable valid (List.mem_range.mp member)
    rw [Action.require_bind readable]
    apply Action.returns_modify
    refine ⟨rfl, rfl, fun offset below => clipped.copied low small some below (clean offset below), ?_⟩
    intro addr elsewhere
    apply if_neg
    rw [offset_lt_iff (by omega), target, length]
    omega
  next none =>
    -- the page lies behind what the file holds of the segment
    have order : copyEnd.toNat ≤ copyStart.toNat := UInt64.le_iff_toNat_le.mp (UInt64.not_lt.mp none)
    refine Action.returns_pure ⟨rfl, rfl, ?_, fun _ _ => rfl⟩
    intro offset below
    rw [clean offset below, segmentByte, if_neg]
    rintro ⟨above, under⟩
    omega

def TopKept (top : paging.TopLevel) (cr3 : UInt64) (before after : Memory paging) : Prop :=
  ∀ space i, (space = cr3 → 256 ≤ i) → top.entry after.tables space i = top.entry before.tables space i

structure Mapped (top : paging.TopLevel) (cr3 : UInt64) (number idx : Nat) (mem after : Memory paging) : Prop where
  places : Places cr3 ⟨number, fun _ => none⟩ idx mem after
  kept : TopKept top cr3 mem after

/-- The common part of `loadPage` and `mapStackPage`: what follows goes through whichever frame it is. -/
theorem returns_mapFresh {Value : Type} (lawful : paging.Lawful) (top : paging.TopLevel) {number count : Nat}
    (low : number < 2 ^ 35) {cr3 : UInt64} {mem : Memory paging}
    (unmapped : mem.lookup cr3 (pageAddress number) = none) (stocked : mem.allocator.Stocked (count + 4))
    {next : UInt64 → Action (Memory paging) Value} {post : Value → Memory paging → Prop}
    (rest : ∀ idx after, idx < 2 ^ 52 → after.allocator.Stocked count → Mapped top cr3 number idx mem after →
      Returns (next (frameAddress idx)) after post) :
    Returns (do
      let frame ← Memory.expectFrame
      Memory.expectMapTo cr3 (pageAddress number) frame userFlags
      next frame) mem post := by
  have stockedMore : mem.allocator.Stocked (count + 3 + 1) := stocked
  apply (Memory.returns_expectFrame stockedMore).bind
  rintro frame allocated ⟨sameTables, sameRam, stillStocked, idx, wasFree, rfl, left⟩
  have sameLookup : allocated.lookup cr3 = mem.lookup cr3 := by
    funext page
    rw [Memory.lookup, Memory.lookup, sameTables]
  apply (Memory.returns_expectMapTo lawful (frameAddress idx) userFlags (sameLookup ▸ unmapped) stillStocked).bind
  rintro _ mapped ⟨alsoRam, tables, enough, less, updated⟩
  apply rest idx mapped _ enough
  · refine ⟨⟨wasFree, ?_, ?_, ?_, ?_, ?_⟩, ?_⟩
    · intro stillFree
      have before := less stillFree
      rw [left] at before
      exact Finset.notMem_erase idx _ before
    · apply less.trans
      rw [left]
      exact Finset.erase_subset _ _
    · rw [updated, sameLookup]
    · intro _ _ _ given
      cases given
    · intro addr _
      rw [alsoRam, sameRam]
    · intro space i upper
      rw [tables, top.mapTo_other, sameTables]
      intro same
      obtain ⟨isNew, index⟩ := Prod.mk.inj same
      have high := upper isNew
      have lowSlot := slot_lower (show (pageAddress number).toNat < 2 ^ 47 by rw [pageAddress_toNat low]; omega)
      omega
  · exact stocked.ready.frame_small wasFree

theorem returns_loadPage (lawful : paging.Lawful) (top : paging.TopLevel) {image : ElfImage} {segment : Segment}
    (valid : segment.Valid image) {number count : Nat} (inside : number ∈ segment.pages) {cr3 : UInt64}
    {mem : Memory paging} (unmapped : mem.lookup cr3 (pageAddress number) = none)
    (stocked : mem.allocator.Stocked (count + 4)) :
    Returns (loadPage image segment cr3 (pageAddress number)) mem fun _ after => after.allocator.Stocked count ∧
      TopKept top cr3 mem after ∧ ∃ idx, Places cr3 (segmentPage image segment number) idx mem after := by
  apply returns_mapFresh lawful top (valid.page_small inside) unmapped stocked
  intro idx mapped small stillStocked fresh
  -- the frame is zeroed before the file's bytes are copied to it
  let zeroed : Memory paging := { mapped with ram := mapped.ram.fill (frameAddress idx) PAGE_SIZE 0 }
  have inFrame (addr : UInt64) : addr - frameAddress idx < PAGE_SIZE ↔ addr.toNat / 4096 = idx := by
    rw [offset_lt_iff, frameAddress_toNat small, PAGE_SIZE_toNat]
    · omega
    · rw [frameAddress_toNat small, PAGE_SIZE_toNat]
      omega
  have clean : ∀ offset < 4096, zeroed.ram (frameAddress idx + UInt64.ofNat offset) = 0 := by
    intro offset below
    apply if_pos
    rw [inFrame, frame_offset_toNat small below]
    omega
  have elsewhere : ∀ addr : UInt64, addr.toNat / 4096 ≠ idx → zeroed.ram addr = mapped.ram addr :=
    fun addr other => if_neg fun within => other ((inFrame addr).mp within)
  have cleared : Returns (Memory.zeroFrame (frameAddress idx)) mapped fun _ after => after = zeroed :=
    Action.returns_modify rfl
  apply cleared.bind
  rintro _ _ rfl
  apply (returns_copyPage valid inside small clean).mono
  rintro _ after ⟨sameAllocator, tables, bytes, others⟩
  have allocator : after.allocator = mapped.allocator := sameAllocator
  have sameTables : after.tables = mapped.tables := tables
  refine ⟨allocator ▸ stillStocked, ?_, idx, fresh.places.wasFree, ?_, ?_, ?_, ?_, ?_⟩
  · intro space i upper
    rw [sameTables]
    exact fresh.kept space i upper
  · rw [allocator]
    exact fresh.places.taken
  · rw [allocator]
    exact fresh.places.less
  · have same : after.lookup cr3 = mapped.lookup cr3 := by
      funext page
      rw [Memory.lookup, sameTables]
      rfl
    rw [same]
    exact fresh.places.lookup
  · intro offset below value given
    rw [bytes offset below]
    exact Option.some.inj given
  · intro addr other
    rw [others addr other, elsewhere addr other]
    exact fresh.places.others addr other

theorem stackAddress {i : Nat} (inside : i < 4) :
    VirtAddr.new (userStackTop - (UInt64.ofNat i + 1) * PAGE_SIZE) = some (pageAddress (stackPage i).number) ∧
    containingAddress (pageAddress (stackPage i).number) = pageAddress (stackPage i).number := by
  revert i
  decide

theorem returns_mapStackPage (lawful : paging.Lawful) (top : paging.TopLevel) {i count : Nat} (inside : i < 4)
    {cr3 : UInt64} {mem : Memory paging} (unmapped : mem.lookup cr3 (pageAddress (stackPage i).number) = none)
    (stocked : mem.allocator.Stocked (count + 4)) :
    Returns (mapStackPage cr3 i) mem fun _ after => after.allocator.Stocked count ∧
      TopKept top cr3 mem after ∧ ∃ idx, Places cr3 (stackPage i) idx mem after := by
  obtain ⟨canonical, aligned⟩ := stackAddress inside
  have low : (stackPage i).number < 2 ^ 35 := by
    change 0x700000000 - (i + 1) < 2 ^ 35
    omega
  have whole : @mapStackPage paging cr3 i = (do
      let frame ← Memory.expectFrame
      Memory.expectMapTo cr3 (pageAddress (stackPage i).number) frame userFlags
      pure ()) := by
    unfold mapStackPage
    rw [canonical, Action.expect_some_bind, aligned]
    exact congrArg _ (funext fun frame => (Action.bind_pure _).symm)
  rw [whole]
  apply returns_mapFresh lawful top low unmapped stocked
  intro idx after _ stillStocked fresh
  exact Action.returns_pure ⟨stillStocked, fresh.kept, idx, fresh.places⟩

end ElseOS.Elf
