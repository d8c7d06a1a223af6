import ElseOS.Elf.Reservation

/-! Which images `spawn_from_elf` can be trusted with.

It checks the length of the file and the magic number. Every other field is used as it is:
as an offset into the file, as an address, as a length. An image is contained if the load
goes through, reads no byte outside the slice and maps no page outside the lower half. -/

set_option autoImplicit false

namespace ElseOS

open Base (Action)
open Base.Action (Mirrors forEach)
open Memory (pageAt)

namespace ElfImage

/-- The image with nothing to be read around it. -/
def bounded (image : ElfImage) : ElfImage where
  len := image.len
  byte offset := if offset.toNat < image.len then image.byte offset else none
  readable offset inside := by
    rw [if_pos inside]
    exact image.readable offset inside

def Inside (image : ElfImage) (offset : UInt64) (size : Nat) : Prop :=
  ∀ k < size, (offset + UInt64.ofNat k).toNat < image.len

instance (image : ElfImage) (offset : UInt64) (size : Nat) : Decidable (image.Inside offset size) :=
  inferInstanceAs (Decidable (∀ k < size, (offset + UInt64.ofNat k).toNat < image.len))

variable {image : ElfImage} {offset : UInt64} {size : Nat}

theorem bounded_byte (inside : offset.toNat < image.len) : image.bounded.byte offset = image.byte offset :=
  if_pos inside

theorem bounded_isSome : (image.bounded.byte offset).isSome = true ↔ offset.toNat < image.len := by
  constructor
  · intro isByte
    by_contra outside
    have nothing : image.bounded.byte offset = none := if_neg outside
    rw [nothing] at isByte
    cases isByte
  · exact image.bounded.readable offset

theorem inside_succ : image.Inside offset (size + 1) ↔ offset.toNat < image.len ∧ image.Inside (offset + 1) size := by
  have shift (k : Nat) : offset + UInt64.ofNat (k + 1) = offset + 1 + UInt64.ofNat k := by
    rw [UInt64.ofNat_add]
    grind
  constructor
  · intro inside
    refine ⟨?_, ?_⟩
    · have first := inside 0 (Nat.succ_pos size)
      simpa using first
    · intro k below
      rw [← shift]
      exact inside (k + 1) (Nat.succ_lt_succ below)
  · rintro ⟨first, rest⟩ k below
    cases k with
    | zero => simpa using first
    | succ k =>
      rw [shift]
      exact rest k (Nat.lt_of_succ_lt_succ below)

theorem bounded_read (inside : image.Inside offset size) : image.bounded.read offset size = image.read offset size := by
  induction size generalizing offset with
  | zero => rfl
  | succ size ih =>
    obtain ⟨first, rest⟩ := inside_succ.mp inside
    rw [read, read, bounded_byte first, ih rest]

theorem bounded_read_isSome : (image.bounded.read offset size).isSome = true ↔ image.Inside offset size := by
  induction size generalizing offset with
  | zero => simp [read, Inside]
  | succ size ih =>
    rw [inside_succ, ← ih, ← bounded_isSome, read]
    cases image.bounded.byte offset <;> simp

theorem bounded_readU64 (inside : image.Inside offset 8) : image.bounded.readU64 offset = image.readU64 offset := by
  rw [readU64, readU64, bounded_read inside]

theorem bounded_readU64_isSome : (image.bounded.readU64 offset).isSome = true ↔ image.Inside offset 8 := by
  rw [readU64, Option.isSome_map, bounded_read_isSome]

end ElfImage

namespace Elf

variable {paging : Paging} {image : ElfImage} {segment : Segment}

/-! ## What is read lies inside -/

/-- The bytes that are copied to the page come from the slice. -/
theorem copyReads_bounded {page : UInt64} :
    CopyReads image.bounded segment page ↔ image.Inside (segment.source page) (segment.copyLen page) := by
  unfold CopyReads ElfImage.Inside
  simp only [ElfImage.bounded_isSome]

def FieldsInside (image : ElfImage) (offset : UInt64) : Prop :=
  image.Inside (offset + pVaddr) 8 ∧ image.Inside (offset + pMemsz) 8 ∧ image.Inside (offset + pOffset) 8 ∧
    image.Inside (offset + pFilesz) 8

instance (image : ElfImage) (offset : UInt64) : Decidable (FieldsInside image offset) := instDecidableAnd

theorem segmentAt_isSome {image : ElfImage} {offset : UInt64} (isLoad : image.read offset 4 = some PT_LOAD) :
    (segmentAt image offset).isSome = true ↔ (image.readU64 (offset + pVaddr)).isSome = true ∧
      (image.readU64 (offset + pMemsz)).isSome = true ∧ (image.readU64 (offset + pOffset)).isSome = true ∧
      (image.readU64 (offset + pFilesz)).isSome = true := by
  rw [segmentAt, if_pos isLoad]
  cases image.readU64 (offset + pVaddr) <;> cases image.readU64 (offset + pMemsz) <;>
    cases image.readU64 (offset + pOffset) <;> simp

theorem segmentAt_bounded {offset : UInt64} (type : image.Inside offset 4)
    (fields : image.read offset 4 = some PT_LOAD → FieldsInside image offset) :
    segmentAt image.bounded offset = segmentAt image offset := by
  unfold segmentAt
  rw [ElfImage.bounded_read type]
  split
  next isLoad =>
    obtain ⟨vaddr, memsz, start, filesz⟩ := fields isLoad
    rw [ElfImage.bounded_readU64 vaddr, ElfImage.bounded_readU64 memsz, ElfImage.bounded_readU64 start,
      ElfImage.bounded_readU64 filesz]
  next => rfl

theorem headerLoads_bounded {offset : UInt64} :
    HeaderLoads image.bounded offset ↔ image.Inside offset 4 ∧
      (image.read offset 4 = some PT_LOAD → FieldsInside image offset) ∧
      ∀ segment, segmentAt image offset = some segment → SegmentLoads image.bounded segment := by
  constructor
  · rintro ⟨type, read, rest⟩
    have inside : image.Inside offset 4 := by
      rw [← ElfImage.bounded_read_isSome, read]
      rfl
    have same := ElfImage.bounded_read inside
    have fields : image.read offset 4 = some PT_LOAD → FieldsInside image offset := by
      intro isLoad
      rw [← same] at isLoad
      obtain ⟨segment, found, _⟩ := rest (Option.some.inj (read.symm.trans isLoad))
      have all := (segmentAt_isSome isLoad).mp (found ▸ rfl)
      simp only [ElfImage.bounded_readU64_isSome] at all
      exact all
    refine ⟨inside, fields, ?_⟩
    intro segment found
    rw [← segmentAt_bounded inside fields] at found
    have isLoad := segmentAt_type found
    obtain ⟨again, also, loads⟩ := rest (Option.some.inj (read.symm.trans isLoad))
    obtain rfl := Option.some.inj (also.symm.trans found)
    exact loads
  · rintro ⟨inside, fields, loads⟩
    obtain ⟨type, read⟩ := Option.isSome_iff_exists.mp (ElfImage.bounded_read_isSome.mpr inside)
    refine ⟨type, read, ?_⟩
    rintro rfl
    obtain ⟨segment, found⟩ : ∃ segment, segmentAt image.bounded offset = some segment := by
      apply Option.isSome_iff_exists.mp
      rw [segmentAt_isSome read]
      simp only [ElfImage.bounded_readU64_isSome]
      rw [ElfImage.bounded_read inside] at read
      exact fields read
    refine ⟨segment, found, loads segment ?_⟩
    rw [← segmentAt_bounded inside fields]
    exact found

theorem inside_of_le {offset : UInt64} {size : Nat} (inside : offset.toNat + size ≤ image.len) :
    image.Inside offset size := by
  intro k below
  have sum := Nat.mod_le (offset.toNat + k % 2 ^ 64) (2 ^ 64)
  have small := Nat.mod_le k (2 ^ 64)
  rw [UInt64.toNat_add, UInt64.toNat_ofNat']
  omega

/-- The fields of the file header are the same without what lies around the slice. -/
theorem bounded_header (header : ehdrSize ≤ image.len) :
    image.bounded.read 0 4 = image.read 0 4 ∧ phoff image.bounded = phoff image ∧ phnum image.bounded = phnum image ∧
      image.bounded.readU64 eEntry = image.readU64 eEntry := by
  unfold ehdrSize at header
  have offsets : (0 : UInt64).toNat = 0 ∧ ePhoff.toNat = 32 ∧ ePhnum.toNat = 56 ∧ eEntry.toNat = 24 := by decide
  refine ⟨?_, ?_, ?_, ?_⟩
  · exact ElfImage.bounded_read (inside_of_le (by omega))
  · rw [phoff, phoff, ElfImage.bounded_readU64 (inside_of_le (by omega))]
  · rw [phnum, phnum, ElfImage.bounded_read (inside_of_le (by omega))]
  · exact ElfImage.bounded_readU64 (inside_of_le (by omega))

theorem bounded_phdrOffset (header : ehdrSize ≤ image.len) (i : Nat) :
    phdrOffset image.bounded i = phdrOffset image i := by
  rw [phdrOffset, phdrOffset, (bounded_header header).2.1]

/-! ## The same load -/

theorem copyPage_bounded {page : UInt64} (inside : image.Inside (segment.source page) (segment.copyLen page))
    (frame : UInt64) : @copyPage paging image.bounded segment page frame = copyPage image segment page frame := by
  rw [copyPage_eq, copyPage_eq]
  split
  next some =>
    have copies : segment.copyLen page = (segment.copyEnd page - segment.copyStart page).toNat := if_pos some
    rw [copies] at inside
    have readable : ∀ other : ElfImage,
      (∀ offset : UInt64, offset.toNat < image.len → (other.byte offset).isSome = true) →
        ((List.range (segment.copyEnd page - segment.copyStart page).toNat).all fun i =>
          (other.byte (segment.source page + UInt64.ofNat i)).isSome) = true := by
      intro other isSome
      rw [List.all_eq_true]
      intro i below
      exact isSome _ (inside i (List.mem_range.mp below))
    rw [Action.require_bind (readable image.bounded image.bounded.readable),
      Action.require_bind (readable image image.readable)]
    have bytes (ram : Ram) (addr : UInt64) :
        ram.copy addr (segment.copyEnd page - segment.copyStart page)
          (fun i => (image.bounded.byte (segment.source page + i)).getD 0) =
        ram.copy addr (segment.copyEnd page - segment.copyStart page)
          (fun i => (image.byte (segment.source page + i)).getD 0) := by
      apply Ram.copy_congr
      intro i below
      have here := inside i.toNat (UInt64.lt_iff_toNat_lt.mp below)
      rw [UInt64.ofNat_toNat] at here
      rw [ElfImage.bounded_byte here]
    simp only [bytes]
  next => rfl

theorem loadPage_bounded {page : UInt64} (inside : image.Inside (segment.source page) (segment.copyLen page))
    (cr3 : UInt64) : @loadPage paging image.bounded segment cr3 page = loadPage image segment cr3 page := by
  unfold loadPage
  simp only [copyPage_bounded inside]

theorem loadSegment_bounded {offset : UInt64} (loads : HeaderLoads image.bounded offset) (cr3 : UInt64) :
    @loadSegment paging image.bounded cr3 offset = loadSegment image cr3 offset := by
  obtain ⟨type, fields, segmentLoads⟩ := headerLoads_bounded.mp loads
  have sameSegment := segmentAt_bounded type fields
  cases found : segmentAt image offset with
  | some segment =>
    rw [loadSegment_some found, loadSegment_some (sameSegment.trans found)]
    apply Memory.forAddresses_congr
    intro page visited
    exact loadPage_bounded (copyReads_bounded.mp ((segmentLoads segment found).pages page visited).2) cr3
  | none =>
    -- a header of another type, which both pass over
    obtain ⟨value, read, isLoad⟩ := loads
    have other : value ≠ PT_LOAD := by
      intro same
      obtain ⟨segment, isSegment, _⟩ := isLoad same
      rw [sameSegment, found] at isSegment
      cases isSegment
    have alsoRead := (ElfImage.bounded_read type).symm.trans read
    unfold loadSegment
    rw [read, alsoRead, Action.expect_some_bind, Action.expect_some_bind, if_neg other, if_neg other]

theorem fillSpace_bounded (loads : Loads image.bounded) (cr3 : UInt64) :
    @fillSpace paging image.bounded cr3 = fillSpace image cr3 := by
  have header : ehdrSize ≤ image.len := loads.header
  obtain ⟨_, sameOffset, sameCount, sameEntry⟩ := bounded_header header
  obtain ⟨offset, count, _⟩ := fields_of_header header
  obtain ⟨boundedOffset, boundedCount, _⟩ := fields_of_header loads.header
  have segments :
      Action.forRange (fun i => @loadSegment paging image.bounded cr3 (phoff image + UInt64.ofNat i * phdrSize))
        (phnum image) 0 =
      Action.forRange (fun i => loadSegment image cr3 (phoff image + UInt64.ofNat i * phdrSize)) (phnum image) 0 := by
    apply Action.forRange_congr
    intro j _ below
    have loaded := loads.headers j (by omega)
    rw [bounded_phdrOffset header] at loaded
    exact loadSegment_bounded loaded cr3
  unfold fillSpace
  rw [boundedOffset, boundedCount, offset, count, sameOffset, sameCount, sameEntry, Action.expect_some_bind,
    Action.expect_some_bind, Action.expect_some_bind, Action.expect_some_bind, segments]

theorem load_bounded (loads : Loads image.bounded) (currentCr3 : UInt64) :
    @load paging image.bounded currentCr3 = load image currentCr3 := by
  have header : ehdrSize ≤ image.len := loads.header
  rw [load, load, (bounded_header header).1]
  simp only [fillSpace_bounded loads]
  rfl

theorem segments_bounded (loads : Loads image.bounded) : segments image.bounded = segments image := by
  have header : ehdrSize ≤ image.len := loads.header
  unfold segments
  rw [(bounded_header header).2.2.1]
  apply List.filterMap_congr
  intro i below
  have loaded := loads.headers i ((bounded_header header).2.2.1 ▸ List.mem_range.mp below)
  rw [bounded_phdrOffset header] at loaded ⊢
  obtain ⟨type, fields, _⟩ := headerLoads_bounded.mp loaded
  exact segmentAt_bounded type fields

theorem reserve_bounded (loads : Loads image.bounded) (currentCr3 : UInt64) :
    @reserve paging image.bounded currentCr3 = reserve image currentCr3 := by
  have header : ehdrSize ≤ image.len := loads.header
  unfold reserve pageList entryPoint
  rw [segments_bounded loads, (bounded_header header).2.2.2]

/-! ## What is mapped -/

variable {mem after : Memory paging} {cr3 page : UInt64}

theorem reservePage_spec (ran : reservePage cr3 page mem = (after, some ())) :
    ∃ middle frame, Memory.expectFrame mem = (middle, some frame) ∧ middle.Takes after ∧ after.ram = middle.ram ∧
    mem.lookup cr3 page = none ∧
    after.lookup cr3 = Function.update (mem.lookup cr3) page (some (frame, userFlags)) ∧
    ∀ top : paging.TopLevel, page.toNat < 2 ^ 47 → TopKept top cr3 mem after := by
  obtain ⟨middle, frame, allocated, mapped⟩ := Action.bind_eq_some ran
  have tables : middle.tables = mem.tables := by
    have kept := Memory.tables_expectFrame mem
    rw [allocated] at kept
    exact kept
  have same : middle.lookup cr3 = mem.lookup cr3 := by
    funext other
    rw [Memory.lookup, Memory.lookup, tables]
  have takes := Memory.takes_expectMapTo cr3 page frame userFlags middle
  have called := Memory.expectMapTo_eq middle cr3 page frame userFlags
  rw [mapped] at takes called
  rcases Memory.expectMapTo_spec mapped with ⟨_, unmapped, updated⟩ | ⟨nothing, _⟩
  · rw [same] at unmapped updated
    refine ⟨middle, frame, allocated, takes, congrArg (fun result => result.1.ram) called, unmapped, updated, ?_⟩
    intro top low space i upper
    have filled := congrArg (fun result => result.1.tables) called
    dsimp only at filled
    rw [filled, top.mapTo_other, tables]
    intro here
    obtain ⟨isNew, index⟩ := Prod.mk.inj here
    have high := upper isNew
    have lowSlot := slot_lower low
    omega
  · cases nothing

theorem forEach_reserve_spec {pages : List UInt64} (ran : forEach (reservePage cr3) pages mem = (after, some ())) :
    (∀ page ∈ pages, mem.lookup cr3 page = none ∧ ∃ frame, after.lookup cr3 page = some (frame, userFlags)) ∧
    (∀ page, page ∉ pages → after.lookup cr3 page = mem.lookup cr3 page) ∧
    ∀ top : paging.TopLevel, (∀ page ∈ pages, page.toNat < 2 ^ 47) → TopKept top cr3 mem after := by
  induction pages generalizing mem with
  | nil =>
    cases ran
    exact ⟨fun _ member => (List.not_mem_nil member).elim, fun _ _ => rfl, fun _ _ _ _ _ => rfl⟩
  | cons page rest ih =>
    obtain ⟨middle, _, first, continued⟩ := Action.bind_eq_some ran
    obtain ⟨_, frame, _, _, _, unmapped, updated, kept⟩ := reservePage_spec first
    obtain ⟨mapped, others, keptToo⟩ := ih continued
    -- a page cannot be mapped twice
    have new : page ∉ rest := by
      intro again
      have free := (mapped page again).1
      rw [updated, Function.update_self] at free
      cases free
    refine ⟨?_, ?_, ?_⟩
    · intro other member
      rcases List.mem_cons.mp member with rfl | later
      · refine ⟨unmapped, frame, ?_⟩
        rw [others other new, updated, Function.update_self]
      · have different : other ≠ page := fun same => new (same ▸ later)
        obtain ⟨free, present⟩ := mapped other later
        rw [updated, Function.update_of_ne different] at free
        exact ⟨free, present⟩
    · intro other outside
      rw [List.mem_cons, not_or] at outside
      rw [others other outside.2, updated, Function.update_of_ne outside.1]
    · intro top low space i upper
      rw [keptToo top (fun other later => low other (List.mem_cons_of_mem _ later)) space i upper,
        kept top (low page List.mem_cons_self) space i upper]

theorem reserve_spec {currentCr3 : UInt64} {result : UInt64 × UInt64}
    (ran : reserve image currentCr3 mem = (after, some result)) :
    ∃ middle, Memory.expectFrame mem = (middle, some result.2) ∧
      forEach (reservePage result.2) (pageList image) (fresh middle result.2 currentCr3) = (after, some ()) := by
  obtain ⟨middle, cr3, allocated, made⟩ := Action.bind_eq_some ran
  obtain ⟨_, _, isFresh, mapped⟩ := Action.bind_eq_some made
  cases isFresh
  obtain ⟨_, _, filled, same⟩ := Action.bind_eq_some mapped
  cases same
  exact ⟨middle, allocated, filled⟩

/-! ## Contained images -/

/-- The load goes through, also with nothing readable around the slice; every page it maps lies
in the lower half; and of the level 4 tables only the lower half of the new one is written.
There is no other way out: `spawn_from_elf` returns no error, so an image that it does not load
is one that it panics on. -/
def Contained (top : paging.TopLevel) (image : ElfImage) (currentCr3 : UInt64) (mem : Memory paging) : Prop :=
  ∃ middle after entryPoint cr3, Memory.expectFrame mem = (middle, some cr3) ∧
    load image currentCr3 mem = (after, some (entryPoint, cr3)) ∧
    load image.bounded currentCr3 mem = (after, some (entryPoint, cr3)) ∧
    (∀ page, after.lookup cr3 page ≠ (fresh middle cr3 currentCr3).lookup cr3 page → page.toNat < 2 ^ 47) ∧
    TopKept top cr3 (fresh middle cr3 currentCr3) after

/-- The headers lie in the slice as far as they are read; each segment begins and ends at
canonical addresses, its pages lie below the last one of the lower half, and the bytes copied
to them come from the slice. -/
structure Loadable (image : ElfImage) : Prop where
  header : ehdrSize ≤ image.len
  magic : image.read 0 4 = some ELFMAG
  types : ∀ i < phnum image, image.Inside (phdrOffset image i) 4
  fields : ∀ i < phnum image, image.read (phdrOffset image i) 4 = some PT_LOAD → FieldsInside image (phdrOffset image i)
  ends : ∀ segment ∈ segments image,
    VirtAddr.canonical segment.vaddr = true ∧ VirtAddr.canonical (segment.vaddr + segment.memsz - 1) = true
  pages : ∀ segment ∈ segments image, ∀ page ∈ segment.pageList,
    page.toNat + 4096 < 2 ^ 47 ∧ image.Inside (segment.source page) (segment.copyLen page)

def Reserves (image : ElfImage) (currentCr3 : UInt64) (mem : Memory paging) : Prop :=
  ∃ after result, reserve image currentCr3 mem = (after, some result)

theorem nextPage_isSome_iff {page : UInt64} (low : page.toNat < 2 ^ 47) :
    (nextPage page).isSome = true ↔ page.toNat + 4096 < 2 ^ 47 := by
  have notLast : page ≠ lastPage := by
    intro same
    have value : lastPage.toNat = 0xFFFFFFFFFFFFF000 := rfl
    rw [same] at low
    omega
  have next : (page + PAGE_SIZE).toNat = page.toNat + 4096 := by
    rw [UInt64.toNat_add, PAGE_SIZE_toNat]
    omega
  rw [nextPage, if_neg notLast, VirtAddr.new]
  split
  next canonical =>
    simp only [VirtAddr.canonical, Bool.or_eq_true, decide_eq_true_eq, next] at canonical
    simp only [Option.isSome_some, true_iff]
    omega
  next wrong =>
    simp only [VirtAddr.canonical, Bool.or_eq_true, decide_eq_true_eq, next] at wrong
    simp only [Option.isSome_none, Bool.false_eq_true, false_iff]
    omega

theorem mem_segments {i : Nat} (below : i < phnum image) (found : segmentAt image (phdrOffset image i) = some segment) :
    segment ∈ segments image := List.mem_filterMap.mpr ⟨i, List.mem_range.mpr below, found⟩

theorem loadable_iff : Loadable image ↔
    Loads image.bounded ∧ ∀ segment ∈ segments image, ∀ page ∈ segment.pageList, page.toNat < 2 ^ 47 := by
  constructor
  · intro loadable
    obtain ⟨magic, _, count, _⟩ := bounded_header loadable.header
    refine ⟨⟨loadable.header, magic.trans loadable.magic, ?_⟩, ?_⟩
    · intro i below
      rw [count] at below
      rw [bounded_phdrOffset loadable.header, headerLoads_bounded]
      refine ⟨loadable.types i below, loadable.fields i below, ?_⟩
      intro segment found
      have member := mem_segments below found
      obtain ⟨first, last⟩ := loadable.ends segment member
      refine ⟨first, last, ?_⟩
      intro page visited
      obtain ⟨low, inside⟩ := loadable.pages segment member page visited
      exact ⟨(nextPage_isSome_iff (by omega)).mpr low, copyReads_bounded.mpr inside⟩
    · intro segment member page visited
      have low := (loadable.pages segment member page visited).1
      omega
  · rintro ⟨loads, lower⟩
    have header : ehdrSize ≤ image.len := loads.header
    obtain ⟨magic, _, count, _⟩ := bounded_header header
    have headers : ∀ i < phnum image, HeaderLoads image.bounded (phdrOffset image i) := by
      intro i below
      have loaded := loads.headers i (count ▸ below)
      rw [bounded_phdrOffset header] at loaded
      exact loaded
    have ofSegment : ∀ segment ∈ segments image, SegmentLoads image.bounded segment := by
      intro segment member
      obtain ⟨i, below, found⟩ := List.mem_filterMap.mp member
      exact (headerLoads_bounded.mp (headers i (List.mem_range.mp below))).2.2 segment found
    refine ⟨header, magic.symm.trans loads.magic, ?_, ?_, ?_, ?_⟩
    · exact fun i below => (headerLoads_bounded.mp (headers i below)).1
    · exact fun i below => (headerLoads_bounded.mp (headers i below)).2.1
    · exact fun segment member => ⟨(ofSegment segment member).first, (ofSegment segment member).last⟩
    · intro segment member page visited
      obtain ⟨next, reads⟩ := (ofSegment segment member).pages page visited
      exact ⟨(nextPage_isSome_iff (lower segment member page visited)).mp next, copyReads_bounded.mp reads⟩

theorem image_contained_iff (top : paging.TopLevel) (image : ElfImage) (currentCr3 : UInt64) (mem : Memory paging) :
    Contained top image currentCr3 mem ↔ Loadable image ∧ Reserves image currentCr3 mem := by
  have mirrors := mirrors_load image.bounded currentCr3 mem mem ⟨rfl, rfl⟩
  rw [loadable_iff]
  constructor
  · rintro ⟨middle, after, entryPoint, cr3, allocated, _, bounded, lower, _⟩
    obtain ⟨loads, last, reserved, sameAllocator, sameTables⟩ := mirrors.1 after (entryPoint, cr3) bounded
    rw [reserve_bounded loads] at reserved
    refine ⟨⟨loads, ?_⟩, last, _, reserved⟩
    intro segment member page visited
    -- the page was mapped by the load, so it is one of those in the lower half
    obtain ⟨again, alsoAllocated, filled⟩ := reserve_spec reserved
    rw [allocated] at alsoAllocated
    cases alsoAllocated
    have planned : page ∈ pageList image := List.mem_append_left _ (List.mem_flatMap.mpr ⟨segment, member, visited⟩)
    obtain ⟨unmapped, frame, present⟩ := (forEach_reserve_spec filled).1 page planned
    apply lower
    rw [unmapped, Memory.lookup, sameTables]
    exact fun nothing => by cases present.symm.trans nothing
  · rintro ⟨⟨loads, lower⟩, last, ⟨entry, cr3⟩, reserved⟩
    have alsoReserved := reserved
    rw [← reserve_bounded loads] at alsoReserved
    obtain ⟨after, bounded, sameAllocator, sameTables⟩ := mirrors.2 loads last (entry, cr3) alsoReserved
    obtain ⟨middle, allocated, filled⟩ := reserve_spec reserved
    obtain ⟨_, others, kept⟩ := forEach_reserve_spec filled
    have allLow : ∀ page ∈ pageList image, page.toNat < 2 ^ 47 := by
      intro page planned
      rcases List.mem_append.mp planned with ofSegment | ofStack
      · obtain ⟨segment, member, visited⟩ := List.mem_flatMap.mp ofSegment
        exact lower segment member page visited
      · have low := (stackList_aligned page ofStack).2
        omega
    refine ⟨middle, after, entry, cr3, allocated, load_bounded loads currentCr3 ▸ bounded, bounded, ?_, ?_⟩
    · intro page changed
      by_contra high
      apply changed
      rw [Memory.lookup, sameTables]
      exact others page fun planned => high (allLow page planned)
    · intro space i upper
      rw [sameTables]
      exact kept top allLow space i upper

theorem image_contained_sample : Contained Paging.slotsTop (sampleFile 0x400FFE) 0x100000 sampleMemory := by
  apply (image_contained_iff Paging.slotsTop (sampleFile 0x400FFE) 0x100000 sampleMemory).mpr
  have pages : ((segments (sampleFile 0x400FFE)).all fun segment => segment.pageList.all fun page =>
      page.toNat + 4096 < 2 ^ 47 ∧ (sampleFile 0x400FFE).Inside (segment.source page) (segment.copyLen page)) =
      true := by
    decide +kernel
  constructor
  · refine ⟨by decide +kernel, by decide +kernel, by decide +kernel, by decide +kernel, by decide +kernel, ?_⟩
    intro segment member page visited
    exact of_decide_eq_true (List.all_eq_true.mp (List.all_eq_true.mp pages segment member) page visited)
  · have reserved : (reserve (sampleFile 0x400FFE) 0x100000 sampleMemory).2 = some (0x400FFE, 0) := by decide +kernel
    exact ⟨_, _, Prod.ext rfl reserved⟩

def cutFile (len : Nat) : ElfImage where
  len := min len (sampleBytes 0x400FFE).length
  byte offset := (sampleBytes 0x400FFE)[offset.toNat]?
  readable offset inside := by
    rw [List.getElem?_eq_getElem (lt_of_lt_of_le inside (Nat.min_le_right _ _))]
    rfl

/-- An empty file panics the kernel, a segment in the upper half is mapped there, and an offset
behind the end of the file copies what lies behind it. -/
theorem images_escape :
    (load (cutFile 0) 0x100000 sampleMemory).2 = none ∧
    ¬ Contained Paging.slotsTop (cutFile 0) 0x100000 sampleMemory ∧
    ((load (sampleFile 0xFFFFA00000000000) 0x100000 sampleMemory).1.lookup 0 0xFFFFA00000000000).map Prod.snd =
      some userFlags ∧
    ¬ Contained Paging.slotsTop (sampleFile 0xFFFFA00000000000) 0x100000 sampleMemory ∧
    readUser (load (cutFile 120) 0x100000 sampleMemory).1 0 0x400FFE = some 0xB0 ∧
    ¬ Contained Paging.slotsTop (cutFile 120) 0x100000 sampleMemory := by
  have empty : (load (cutFile 0) 0x100000 sampleMemory).2 = none := by decide +kernel
  have high :
    ((load (sampleFile 0xFFFFA00000000000) 0x100000 sampleMemory).1.lookup 0 0xFFFFA00000000000).map Prod.snd =
      some userFlags := by decide +kernel
  have cut : (load (cutFile 120).bounded 0x100000 sampleMemory).2 = none := by decide +kernel
  refine ⟨empty, ?_, high, ?_, by decide +kernel, ?_⟩
  · rintro ⟨_, _, _, _, _, ran, _⟩
    rw [ran] at empty
    cases empty
  · rintro ⟨middle, after, entryPoint, cr3, allocated, ran, _, lower, _⟩
    have space : (Memory.expectFrame sampleMemory).2 = some 0 := by decide +kernel
    have unmapped : (fresh (Memory.expectFrame sampleMemory).1 0 0x100000).lookup 0 0xFFFFA00000000000 = none := by
      decide +kernel
    rw [allocated] at space unmapped
    cases space
    rw [ran] at high
    have low := lower 0xFFFFA00000000000 (by
      rw [unmapped]
      intro nothing
      rw [nothing] at high
      cases high)
    exact absurd low (by decide)
  · rintro ⟨_, _, _, _, _, _, bounded, _⟩
    rw [bounded] at cut
    cases cut

end Elf

end ElseOS
