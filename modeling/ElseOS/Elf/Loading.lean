import ElseOS.Elf.Image

/-! The loader carries the plan out.

Page by page, segment by segment, and then the stack: what each loop is given is how far
the plan has been carried out, with a frame for every page to come and three for the
tables on the way to it. -/

set_option autoImplicit false

namespace ElseOS.Elf

open Base (Action)
open Base.Action (Returns Stops)
open BitmapAllocator (frameAddress frameAddress_toNat)
open Memory (pageAt pageAt_toNat)

variable {paging : Paging}

structure Progress (top : paging.TopLevel) (before : BitmapAllocator) (start : Memory paging) (cr3 : UInt64)
    (total : Nat) (done : List Planned) (mem : Memory paging) : Prop where
  low : ∀ page ∈ done, page.number < 2 ^ 35
  stocked : mem.allocator.Stocked (4 * (total - done.length))
  filled : ∃ table, Filled before cr3 done table mem
  kept : TopKept top cr3 start mem

variable {top : paging.TopLevel} {before : BitmapAllocator} {start mem : Memory paging} {cr3 : UInt64} {total : Nat}
  {done : List Planned} {image : ElfImage} {segment : Segment}

theorem Progress.unmapped (progress : Progress top before start cr3 total done mem) {number : Nat}
    (low : number < 2 ^ 35) (new : ∀ page ∈ done, page.number ≠ number) :
    mem.lookup cr3 (pageAddress number) = none := by
  obtain ⟨table, filled⟩ := progress.filled
  exact filled.unmapped number low new

theorem Progress.next {page : Planned} {action : Action (Memory paging) Unit} (ready : before.Ready)
    (progress : Progress top before start cr3 total done mem) (room : done.length < total)
    (low : page.number < 2 ^ 35) (new : ∀ other ∈ done, other.number ≠ page.number)
    (placing : ∀ count, mem.allocator.Stocked (count + 4) → Returns action mem fun _ after =>
      after.allocator.Stocked count ∧ TopKept top cr3 mem after ∧ ∃ idx, Places cr3 page idx mem after) :
    Returns action mem fun _ after => Progress top before start cr3 total (done ++ [page]) after := by
  have stocked := progress.stocked
  have left : 4 * (total - done.length) = 4 * (total - (done ++ [page]).length) + 4 := by
    rw [List.length_append, List.length_singleton]
    omega
  rw [left] at stocked
  apply (placing _ stocked).mono
  rintro _ after ⟨stillStocked, kept, idx, places⟩
  obtain ⟨table, filled⟩ := progress.filled
  refine ⟨?_, stillStocked, ⟨_, filled.place ready places low progress.low new⟩, ?_⟩
  · intro other member
    rcases List.mem_append.mp member with earlier | now
    · exact progress.low other earlier
    · rw [List.mem_singleton] at now
      exact now ▸ low
  · intro space i upper
    rw [kept space i upper]
    exact progress.kept space i upper

theorem Segment.card_pages (segment : Segment) :
    segment.pages.card = segment.lastPage + 1 - segment.firstPage := Nat.card_Icc _ _

theorem Segment.mem_pages {number : Nat} :
    number ∈ segment.pages ↔ segment.firstPage ≤ number ∧ number ≤ segment.lastPage := Finset.mem_Icc

theorem Segment.Valid.ordered (valid : segment.Valid image) : segment.firstPage ≤ segment.lastPage := by
  have nonempty := valid.nonempty
  unfold Segment.firstPage Segment.lastPage
  omega

theorem Segment.Valid.toNat_last (valid : segment.Valid image) :
    (segment.vaddr + segment.memsz - 1).toNat = segment.vaddr.toNat + segment.memsz.toNat - 1 := by
  have nonempty := valid.nonempty
  have lower := valid.lower
  have one : (1 : UInt64).toNat = 1 := rfl
  rw [UInt64.toNat_sub, UInt64.toNat_add, one]
  omega

theorem Segment.Valid.pagesInclusive (valid : segment.Valid image) :
    ElseOS.pagesInclusive (containingAddress segment.vaddr) (containingAddress (segment.vaddr + segment.memsz - 1)) =
      segment.pages.card := by
  have nonempty := valid.nonempty
  have lower := valid.lower
  have last := valid.toNat_last
  have firstBlock := containingAddress_toNat segment.vaddr
  have lastBlock := containingAddress_toNat (segment.vaddr + segment.memsz - 1)
  rw [last] at lastBlock
  have ordered : containingAddress segment.vaddr ≤ containingAddress (segment.vaddr + segment.memsz - 1) := by
    rw [UInt64.le_iff_toNat_le]
    omega
  rw [ElseOS.pagesInclusive, if_pos ordered, UInt64.toNat_div, UInt64.toNat_sub_of_le _ _ ordered,
    firstBlock, lastBlock, PAGE_SIZE_toNat, Segment.card_pages, Segment.firstPage, Segment.lastPage]
  omega

theorem Segment.Valid.pageAt (valid : segment.Valid image) {i : Nat} (inside : i < segment.pages.card) :
    Memory.pageAt (containingAddress segment.vaddr) i = pageAddress (segment.firstPage + i) := by
  have block := containingAddress_toNat segment.vaddr
  have low : segment.firstPage + i < 2 ^ 35 := by
    apply valid.page_small
    rw [Segment.mem_pages]
    rw [Segment.card_pages] at inside
    omega
  have first : segment.firstPage = segment.vaddr.toNat / 4096 := rfl
  apply UInt64.toNat_inj.mp
  rw [pageAddress_toNat low, pageAt_toNat (by omega), block]
  omega

/-- The top page of the lower half, behind which the iterator finds no address. -/
def topPage : Nat := 2 ^ 35 - 1

theorem returns_segment (lawful : paging.Lawful) (ready : before.Ready)
    (progress : Progress top before start cr3 total done mem) (valid : segment.Valid image)
    (below : topPage ∉ segment.pages) (room : done.length + segment.pages.card ≤ total)
    (new : ∀ number ∈ segment.pages, ∀ page ∈ done, page.number ≠ number) :
    Returns (Memory.forAddresses segment.vaddr (segment.vaddr + segment.memsz - 1)
      (fun page _ => loadPage image segment cr3 page) ()) mem fun _ after =>
        Progress top before start cr3 total (done ++ segmentPlan image segment) after := by
  have ordered := valid.ordered
  have card := segment.card_pages
  have lastLow := valid.page_small (Segment.mem_pages.mpr ⟨ordered, Nat.le_refl _⟩)
  have notTop : segment.lastPage ≠ topPage := fun same => below (Segment.mem_pages.mpr ⟨same ▸ ordered, same.ge⟩)
  have block := containingAddress_toNat segment.vaddr
  have first : segment.firstPage = segment.vaddr.toNat / 4096 := rfl
  apply (Memory.returns_forAddresses (fun i _ mem => Progress top before start cr3 total
    (done ++ (List.range i).map fun j => segmentPage image segment (segment.firstPage + j)) mem)
    valid.pagesInclusive ?_ ?_ ?_).mono
  · exact fun _ _ finished => finished
  · unfold topPage at notTop
    omega
  · -- one pass: the next page of the segment
    rintro i _ mem inside progress
    have member : segment.firstPage + i ∈ segment.pages := by
      rw [Segment.mem_pages]
      omega
    have unseen : ∀ page ∈ done ++ (List.range i).map fun j => segmentPage image segment (segment.firstPage + j),
        page.number ≠ segment.firstPage + i := by
      intro page among
      rcases List.mem_append.mp among with earlier | here
      · exact new _ member page earlier
      · obtain ⟨j, behind, rfl⟩ := List.mem_map.mp here
        rw [List.mem_range] at behind
        change segment.firstPage + j ≠ segment.firstPage + i
        omega
    rw [valid.pageAt inside, List.range_succ, List.map_append, ← List.append_assoc]
    apply progress.next ready _ (valid.page_small member) unseen
    · intro count stocked
      exact returns_loadPage lawful top valid member (progress.unmapped (valid.page_small member) unseen) stocked
    · rw [List.length_append, List.length_map, List.length_range]
      omega
  · rw [List.range_zero, List.map_nil, List.append_nil]
    exact progress

/-! ## Reading the headers -/

theorem read_inside {image : ElfImage} {size : Nat} {offset : UInt64} (inside : offset.toNat + size ≤ image.len) :
    ∃ value, image.read offset size = some value := by
  induction size generalizing offset with
  | zero => exact ⟨0, rfl⟩
  | succ size ih =>
    have one : (1 : UInt64).toNat = 1 := rfl
    obtain ⟨low, isLow⟩ := Option.isSome_iff_exists.mp (image.readable offset (by omega))
    obtain ⟨high, isHigh⟩ := @ih (offset + 1) (by rw [UInt64.toNat_add, one]; omega)
    exact ⟨low.toNat + 256 * high, by rw [ElfImage.read, isLow, Option.bind_some, isHigh, Option.map_some]⟩

theorem readU64_inside {image : ElfImage} {offset : UInt64} (inside : offset.toNat + 8 ≤ image.len) :
    ∃ value, image.readU64 offset = some value := by
  obtain ⟨value, read⟩ := read_inside inside
  exact ⟨UInt64.ofNat value, by rw [ElfImage.readU64, read, Option.map_some]⟩

theorem loadSegment_some {offset : UInt64} (found : segmentAt image offset = some segment) :
    @loadSegment paging image cr3 offset = Memory.forAddresses segment.vaddr (segment.vaddr + segment.memsz - 1)
      (fun page _ => loadPage image segment cr3 page) () := by
  unfold segmentAt at found
  split at found
  next isLoad =>
    obtain ⟨vaddr, readVaddr, found⟩ := Option.bind_eq_some_iff.mp found
    obtain ⟨memsz, readMemsz, found⟩ := Option.bind_eq_some_iff.mp found
    obtain ⟨start, readStart, found⟩ := Option.bind_eq_some_iff.mp found
    obtain ⟨filesz, readFilesz, rfl⟩ := Option.map_eq_some_iff.mp found
    unfold loadSegment
    rw [isLoad, Action.expect_some_bind, if_pos rfl, readVaddr, Action.expect_some_bind, readMemsz,
      Action.expect_some_bind, readStart, Action.expect_some_bind, readFilesz, Action.expect_some_bind]
  next => cases found

theorem loadSegment_none {offset : UInt64} (inside : offset.toNat + 56 ≤ image.len)
    (nothing : segmentAt image offset = none) : @loadSegment paging image cr3 offset = pure () := by
  obtain ⟨type, readType⟩ := read_inside (show offset.toNat + 4 ≤ image.len by omega)
  have field (at_ : UInt64) (within : at_.toNat + 8 ≤ 56) : ∃ value, image.readU64 (offset + at_) = some value := by
    apply readU64_inside
    rw [UInt64.toNat_add]
    omega
  obtain ⟨vaddr, readVaddr⟩ := field pVaddr (by decide)
  obtain ⟨memsz, readMemsz⟩ := field pMemsz (by decide)
  obtain ⟨start, readStart⟩ := field pOffset (by decide)
  obtain ⟨filesz, readFilesz⟩ := field pFilesz (by decide)
  have other : type ≠ PT_LOAD := by
    rintro rfl
    rw [segmentAt, if_pos readType, readVaddr, readMemsz, readStart, readFilesz] at nothing
    cases nothing
  unfold loadSegment
  rw [readType, Action.expect_some_bind, if_neg other]

def segmentsUpTo (image : ElfImage) (i : Nat) : List Segment :=
  (List.range i).filterMap fun j => segmentAt image (phdrOffset image j)

theorem segmentsUpTo_succ (image : ElfImage) (i : Nat) :
    segmentsUpTo image (i + 1) = segmentsUpTo image i ++ (segmentAt image (phdrOffset image i)).toList := by
  unfold segmentsUpTo
  rw [List.range_succ, List.filterMap_append]
  cases found : segmentAt image (phdrOffset image i) <;> simp [found]

theorem segments_split (image : ElfImage) {i : Nat} (inside : i ≤ phnum image) :
    ∃ later, segments image = segmentsUpTo image i ++ later := by
  obtain ⟨rest, isRest⟩ := Nat.exists_eq_add_of_le inside
  refine ⟨((List.range rest).map (i + ·)).filterMap fun j => segmentAt image (phdrOffset image j), ?_⟩
  rw [segments, isRest, List.range_add, List.filterMap_append]
  rfl

def planUpTo (image : ElfImage) (i : Nat) : List Planned := (segmentsUpTo image i).flatMap (segmentPlan image)

theorem mem_segmentPlan {page : Planned} :
    page ∈ segmentPlan image segment → page.number ∈ segment.pages ∧ page = segmentPage image segment page.number := by
  intro member
  obtain ⟨j, inside, rfl⟩ := List.mem_map.mp member
  rw [List.mem_range, Segment.card_pages] at inside
  refine ⟨?_, rfl⟩
  rw [Segment.mem_pages]
  change segment.firstPage ≤ segment.firstPage + j ∧ segment.firstPage + j ≤ segment.lastPage
  omega

theorem length_plan (image : ElfImage) (among : List Segment) :
    (among.flatMap (segmentPlan image)).length = (among.map fun segment => segment.pages.card).sum := by
  induction among with
  | nil => rfl
  | cons segment rest ih =>
    rw [List.flatMap_cons, List.length_append, ih, List.map_cons, List.sum_cons, segmentPlan, List.length_map,
      List.length_range]

theorem returns_header (lawful : paging.Lawful) (ready : before.Ready) (formed : WellFormed image)
    (below : ∀ segment ∈ segments image, topPage ∉ segment.pages) {i : Nat} (inside : i < phnum image)
    (progress : Progress top before start cr3 (pageCount image) (planUpTo image i) mem) :
    Returns (loadSegment image cr3 (phdrOffset image i)) mem fun _ after =>
      Progress top before start cr3 (pageCount image) (planUpTo image (i + 1)) after := by
  obtain ⟨later, split⟩ := segments_split image (Nat.succ_le_of_lt inside)
  rw [segmentsUpTo_succ] at split
  rw [planUpTo, segmentsUpTo_succ, List.flatMap_append]
  cases found : segmentAt image (phdrOffset image i) with
  | none =>
    -- nothing to load, but the type of the header is still read
    have bound := formed.headers i inside
    have offset : (phdrOffset image i).toNat ≤ (phoff image).toNat + 56 * i := by
      have size : phdrSize.toNat = 56 := rfl
      rw [phdrOffset, UInt64.toNat_add, UInt64.toNat_mul, UInt64.toNat_ofNat', size]
      have first := Nat.mod_le i (2 ^ 64)
      have second := Nat.mod_le (i % 2 ^ 64 * 56) (2 ^ 64)
      have third := Nat.mod_le ((phoff image).toNat + i % 2 ^ 64 * 56 % 2 ^ 64) (2 ^ 64)
      omega
    rw [loadSegment_none (by omega) found]
    apply Action.returns_pure
    rw [Option.toList_none, List.flatMap_nil, List.append_nil]
    exact progress
  | some segment =>
    rw [found, Option.toList_some] at split
    have member : segment ∈ segments image := by
      rw [split]
      simp
    have apart : ∀ old ∈ segmentsUpTo image i, Disjoint old.pages segment.pages := by
      have pairwise := formed.disjoint
      rw [split, List.append_assoc, List.pairwise_append] at pairwise
      intro old earlier
      exact pairwise.2.2 old earlier segment (by simp)
    rw [loadSegment_some found, Option.toList_some, List.flatMap_singleton]
    apply returns_segment lawful ready progress (formed.valid segment member) (below segment member)
    -- the pages of this segment are among those that frames are reserved for
    · rw [planUpTo, length_plan, pageCount, split, List.map_append, List.map_append, List.sum_append, List.sum_append]
      simp only [List.map_cons, List.map_nil, List.sum_cons, List.sum_nil]
      omega
    · intro number isPage page among same
      obtain ⟨old, earlier, planned⟩ := List.mem_flatMap.mp among
      have also := (mem_segmentPlan planned).1
      rw [same] at also
      exact Finset.disjoint_left.mp (apart old earlier) also isPage

/-! ## The whole load -/

def plan (image : ElfImage) : List Planned := (segments image).flatMap (segmentPlan image) ++ stackPlan

theorem mem_stackPages {i : Nat} (inside : i < 4) : (stackPage i).number ∈ stackPages := by
  rw [stackPages, Finset.mem_Ico]
  change 0x700000000 - 4 ≤ 0x700000000 - (i + 1) ∧ 0x700000000 - (i + 1) < 0x700000000
  omega

theorem returns_stack (lawful : paging.Lawful) (ready : before.Ready) (formed : WellFormed image)
    (progress : Progress top before start cr3 (pageCount image) ((segments image).flatMap (segmentPlan image)) mem) :
    Returns (Action.forRange (mapStackPage cr3) 4 0) mem fun _ after =>
      Progress top before start cr3 (pageCount image) (plan image) after := by
  apply Action.returns_forRange (fun i mem => Progress top before start cr3 (pageCount image)
    ((segments image).flatMap (segmentPlan image) ++ (List.range i).map stackPage) mem) _ (Nat.zero_add 4)
  · rw [List.range_zero, List.map_nil, List.append_nil]
    exact progress
  · intro i mem inside progress
    have isStack := mem_stackPages inside
    have low : (stackPage i).number < 2 ^ 35 := by
      rw [stackPages, Finset.mem_Ico] at isStack
      omega
    -- no segment meets the stack, and the pages of the stack are different
    have unseen : ∀ page ∈ (segments image).flatMap (segmentPlan image) ++ (List.range i).map stackPage,
        page.number ≠ (stackPage i).number := by
      intro page among same
      rcases List.mem_append.mp among with planned | here
      · obtain ⟨segment, member, planned⟩ := List.mem_flatMap.mp planned
        have isPage := (mem_segmentPlan planned).1
        rw [same] at isPage
        exact Finset.disjoint_left.mp (formed.stack segment member) isPage isStack
      · obtain ⟨j, behind, rfl⟩ := List.mem_map.mp here
        rw [List.mem_range] at behind
        have equal : 0x700000000 - (j + 1) = 0x700000000 - (i + 1) := same
        omega
    rw [List.range_succ, List.map_append, ← List.append_assoc]
    apply progress.next ready _ low unseen
    · intro count stocked
      exact returns_mapStackPage lawful top inside (progress.unmapped low unseen) stocked
    · rw [List.length_append, length_plan, List.length_map, List.length_range, pageCount]
      omega

theorem fields_of_header (header : ehdrSize ≤ image.len) :
    image.readU64 ePhoff = some (phoff image) ∧ image.read ePhnum 2 = some (phnum image) ∧
      ∃ entryPoint, image.readU64 eEntry = some entryPoint := by
  unfold ehdrSize at header
  have offsets : ePhoff.toNat = 32 ∧ ePhnum.toNat = 56 ∧ eEntry.toNat = 24 := by decide
  obtain ⟨first, readFirst⟩ := readU64_inside (show ePhoff.toNat + 8 ≤ image.len by omega)
  obtain ⟨count, readCount⟩ := read_inside (show ePhnum.toNat + 2 ≤ image.len by omega)
  refine ⟨?_, ?_, readU64_inside (by omega)⟩
  · rw [phoff, readFirst, Option.getD_some]
  · rw [phnum, readCount, Option.getD_some]

theorem returns_fillSpace (lawful : paging.Lawful) (ready : before.Ready) (formed : WellFormed image)
    (below : ∀ segment ∈ segments image, topPage ∉ segment.pages)
    (progress : Progress top before start cr3 (pageCount image) [] mem) :
    Returns (fillSpace image cr3) mem fun result after => result.2 = cr3 ∧
      Progress top before start cr3 (pageCount image) (plan image) after := by
  obtain ⟨first, count, entryPoint, entry⟩ := fields_of_header formed.header
  unfold fillSpace
  rw [first, Action.expect_some_bind, count, Action.expect_some_bind]
  have headers : Returns (Action.forRange (fun i => loadSegment image cr3 (phdrOffset image i)) (phnum image) 0) mem
      fun _ after => Progress top before start cr3 (pageCount image) (planUpTo image (phnum image)) after := by
    apply Action.returns_forRange
      (fun i mem => Progress top before start cr3 (pageCount image) (planUpTo image i) mem) _
      (Nat.zero_add _) progress
    intro i mem inside progress
    exact returns_header lawful ready formed below inside progress
  apply headers.bind
  intro _ loaded progress
  apply (returns_stack lawful ready formed progress).bind
  intro _ after finished
  rw [entry, Action.expect_some_bind]
  exact Action.returns_pure ⟨rfl, finished⟩

/-! ## What the plan comes to -/

theorem readUser_planned {table : Nat → Nat} {page : Planned} (filled : Filled before cr3 done table mem)
    (member : page ∈ done) (low : page.number < 2 ^ 35) {addr : UInt64} {value : UInt8}
    (here : addr.toNat / 4096 = page.number) (given : page.byte (addr.toNat % 4096) = some value) :
    readUser mem cr3 addr = some value := by
  have block := containingAddress_toNat addr
  have holding : containingAddress addr = pageAddress page.number := by
    apply UInt64.toNat_inj.mp
    rw [block, pageAddress_toNat low]
    omega
  have offset : addr - containingAddress addr = UInt64.ofNat (addr.toNat % 4096) := by
    apply UInt64.toNat_inj.mp
    rw [UInt64.toNat_sub_of_le _ _ (UInt64.le_iff_toNat_le.mpr (by omega)), block, UInt64.toNat_ofNat']
    omega
  rw [readUser, offset, holding, filled.mapped page member, Option.map_some]
  exact congrArg some (filled.bytes page member _ (Nat.mod_lt _ (by decide)) value given)

theorem mem_plan (member : segment ∈ segments image) {number : Nat} (isPage : number ∈ segment.pages) :
    segmentPage image segment number ∈ plan image := by
  apply List.mem_append_left
  apply List.mem_flatMap.mpr
  refine ⟨segment, member, List.mem_map.mpr ⟨number - segment.firstPage, ?_, ?_⟩⟩
  · rw [List.mem_range, Segment.card_pages]
    rw [Segment.mem_pages] at isPage
    omega
  · rw [Segment.mem_pages] at isPage
    rw [Nat.add_sub_cancel' isPage.1]

theorem Occupied.planned {number : Nat} (occupied : Occupied image number) :
    ∃ page ∈ plan image, page.number = number := by
  rcases occupied with ⟨segment, member, isPage⟩ | isStack
  · exact ⟨_, mem_plan member isPage, rfl⟩
  · rw [stackPages, Finset.mem_Ico] at isStack
    refine ⟨stackPage (0x700000000 - 1 - number), ?_, ?_⟩
    · apply List.mem_append_right
      apply List.mem_map.mpr
      exact ⟨_, List.mem_range.mpr (by omega), rfl⟩
    · change 0x700000000 - (0x700000000 - 1 - number + 1) = number
      omega

theorem segment_read {after : Memory paging} (progress : Progress top before start cr3 total (plan image) after)
    (member : segment ∈ segments image) {addr : UInt64}
    (isPage : addr.toNat / 4096 ∈ segment.pages) :
    readUser after cr3 addr = some (segmentByte image segment addr.toNat) := by
  obtain ⟨table, filled⟩ := progress.filled
  have planned := mem_plan member isPage
  apply readUser_planned filled planned (progress.low _ planned) rfl
  change some (segmentByte image segment (4096 * (addr.toNat / 4096) + addr.toNat % 4096)) = _
  rw [Nat.div_add_mod]

theorem Segment.Valid.toNat_addr (valid : segment.Valid image) {k : Nat} (inside : k < segment.memsz.toNat) :
    (segment.vaddr + UInt64.ofNat k).toNat = segment.vaddr.toNat + k ∧
      (segment.vaddr + UInt64.ofNat k).toNat / 4096 ∈ segment.pages := by
  have lower := valid.lower
  have value : (segment.vaddr + UInt64.ofNat k).toNat = segment.vaddr.toNat + k := by
    rw [UInt64.toNat_add, UInt64.toNat_ofNat']
    omega
  refine ⟨value, ?_⟩
  rw [value, Segment.mem_pages, Segment.firstPage, Segment.lastPage]
  omega

def fresh (mem : Memory paging) (cr3 currentCr3 : UInt64) : Memory paging :=
  { mem with tables := paging.newTable mem.tables cr3 currentCr3 }

theorem progress_fresh {allocated : Memory paging} (top : paging.TopLevel) (currentCr3 : UInt64)
    (less : allocated.allocator.free ⊆ before.free) (stocked : allocated.allocator.Stocked (4 * total)) :
    Progress top before (fresh allocated cr3 currentCr3) cr3 total [] (fresh allocated cr3 currentCr3) := by
  refine ⟨nofun, stocked, ⟨fun _ => 0, less, nofun, nofun, nofun, ?_, nofun⟩, fun _ _ _ => rfl⟩
  intro number low _
  apply top.unmapped
  apply top.newTable_lower
  apply slot_lower
  rw [pageAddress_toNat low]
  omega

theorem loaded_tables {allocated after : Memory paging} {currentCr3 : UInt64}
    (kept : TopKept top cr3 (fresh allocated cr3 currentCr3) after) :
    (∀ i, 256 ≤ i → i < 512 → top.entry after.tables cr3 i = top.entry after.tables currentCr3 i) ∧
    (currentCr3 ≠ cr3 → ∀ i, top.entry after.tables currentCr3 i = top.entry allocated.tables currentCr3 i) := by
  have unchanged : currentCr3 ≠ cr3 →
      ∀ i, top.entry after.tables currentCr3 i = top.entry allocated.tables currentCr3 i := by
    intro different i
    rw [kept currentCr3 i (fun same => absurd same different)]
    exact top.newTable_other allocated.tables currentCr3 different i
  refine ⟨?_, unchanged⟩
  intro i high inside
  by_cases same : currentCr3 = cr3
  · rw [same]
  · rw [kept cr3 i (fun _ => high), unchanged same i]
    exact top.newTable_upper allocated.tables same high inside

theorem loaded_of_progress {allocated after : Memory paging} {currentCr3 : UInt64} {idx : Nat}
    (formed : WellFormed image) (ready : mem.allocator.Ready) (sameTables : allocated.tables = mem.tables)
    (wasFree : idx ∈ mem.allocator.free)
    (progress : Progress top mem.allocator (fresh allocated (frameAddress idx) currentCr3) (frameAddress idx) total
      (plan image) after) : Loaded top image currentCr3 mem after (frameAddress idx) := by
  obtain ⟨upper, current⟩ := loaded_tables progress.kept
  obtain ⟨table, filled⟩ := progress.filled
  refine ⟨?_, ?_, ?_, ?_, ?_, upper, ?_⟩
  · intro segment member k inside
    have valid := formed.valid segment member
    obtain ⟨value, isPage⟩ := valid.toNat_addr (Nat.lt_of_lt_of_le inside valid.short)
    rw [segment_read progress member isPage, segmentByte, value, if_pos (by omega), Nat.add_sub_cancel_left]
    have readable : (image.byte (segment.offset + UInt64.ofNat k)).isSome = true := by
      apply image.readable
      have bound := valid.file k inside
      rw [UInt64.toNat_add, UInt64.toNat_ofNat']
      have first := Nat.mod_le k (2 ^ 64)
      have second := Nat.mod_le (segment.offset.toNat + k % 2 ^ 64) (2 ^ 64)
      omega
    obtain ⟨byte, isByte⟩ := Option.isSome_iff_exists.mp readable
    rw [isByte, Option.getD_some]
  · intro segment member k inside behind
    have valid := formed.valid segment member
    obtain ⟨value, isPage⟩ := valid.toNat_addr inside
    rw [segment_read progress member isPage, segmentByte, value, if_neg (by omega)]
  · intro segment member addr isPage outside
    have short := (formed.valid segment member).short
    rw [segment_read progress member isPage, segmentByte, if_neg (by omega)]
  · intro number occupied
    obtain ⟨page, planned, rfl⟩ := occupied.planned
    obtain ⟨isFree, taken⟩ := filled.fresh page planned
    exact ⟨table page.number, isFree, taken, filled.mapped page planned⟩
  -- two pages in one frame would be one page
  · intro number other occupied alsoOccupied same
    obtain ⟨page, planned, rfl⟩ := occupied.planned
    obtain ⟨second, alsoPlanned, rfl⟩ := alsoOccupied.planned
    rw [filled.mapped page planned, filled.mapped second alsoPlanned] at same
    have sameFrame : frameAddress (table page.number) = frameAddress (table second.number) := by
      injection same with pairs
      injection pairs
    apply filled.apart page planned second alsoPlanned
    exact ready.frame_inj (filled.fresh page planned).1 (filled.fresh second alsoPlanned).1 sameFrame
  · intro used i
    rw [← sameTables]
    apply current
    exact (used idx wasFree).symm

theorem returns_load (lawful : paging.Lawful) (top : paging.TopLevel) (formed : WellFormed image)
    (below : ∀ segment ∈ segments image, topPage ∉ segment.pages) (currentCr3 : UInt64)
    (stocked : mem.allocator.Stocked (4 * pageCount image + 1)) :
    Returns (load image currentCr3) mem fun result after => Loaded top image currentCr3 mem after result.2 := by
  rw [load, Action.require_bind (decide_eq_true formed.header), Action.require_bind (decide_eq_true formed.magic)]
  apply (Memory.returns_expectFrame stocked).bind
  rintro _ allocated ⟨sameTables, _, stillStocked, idx, wasFree, rfl, left⟩
  have made : Returns (Memory.newTable (frameAddress idx) currentCr3) allocated fun _ after =>
      after = fresh allocated (frameAddress idx) currentCr3 := Action.returns_modify rfl
  apply made.bind
  rintro _ _ rfl
  have less : allocated.allocator.free ⊆ mem.allocator.free := left ▸ Finset.erase_subset _ _
  apply (returns_fillSpace lawful stocked.ready formed below (progress_fresh top currentCr3 less stillStocked)).mono
  rintro ⟨_, _⟩ after ⟨rfl, finished⟩
  exact loaded_of_progress formed stocked.ready sameTables wasFree finished

theorem stops_segment (valid : segment.Valid image) (isTop : topPage ∈ segment.pages) (cr3 : UInt64) :
    Stops (Memory.forAddresses segment.vaddr (segment.vaddr + segment.memsz - 1)
      (fun page _ => @loadPage paging image segment cr3 page) ()) := by
  have nonempty := valid.nonempty
  have lower := valid.lower
  have last := valid.toNat_last
  unfold Memory.forAddresses
  rw [Memory.canonical_lower (by omega), Action.expect_some_bind, Memory.canonical_lower (by omega),
    Action.expect_some_bind]
  dsimp only
  rw [valid.pagesInclusive]
  have block := containingAddress_toNat segment.vaddr
  have card := segment.card_pages
  have bounds := Segment.mem_pages.mp isTop
  have lastLow := valid.page_small (Segment.mem_pages.mpr ⟨valid.ordered, Nat.le_refl _⟩)
  have isFirst : segment.firstPage = segment.vaddr.toNat / 4096 := rfl
  unfold topPage at bounds
  apply Memory.stops_forPages <;> omega

/-- A segment with a page at the top of the lower half stops the loader. -/
theorem stops_load (formed : WellFormed image) (member : segment ∈ segments image) (isTop : topPage ∈ segment.pages)
    (currentCr3 : UInt64) : Stops (@load paging image currentCr3) := by
  obtain ⟨first, count, _⟩ := fields_of_header formed.header
  obtain ⟨i, inside, found⟩ := List.mem_filterMap.mp member
  rw [List.mem_range] at inside
  rw [load]
  -- whatever comes before the loop over the headers, the loop gets no further than this one
  apply Stops.rest
  intro _
  apply Stops.rest
  intro _
  apply Stops.rest
  intro cr3
  apply Stops.rest
  intro _
  unfold fillSpace
  rw [first, Action.expect_some_bind, count, Action.expect_some_bind]
  apply Stops.first
  apply Action.stops_forRange _ (Nat.zero_le i) (by omega)
  have here : phdrOffset image i = phoff image + UInt64.ofNat i * phdrSize := rfl
  rw [← here, loadSegment_some found]
  exact stops_segment (formed.valid segment member) isTop cr3

/-- For every well-formed file and enough free frames: the load succeeds and builds the file's image
exactly when no segment has a page at the top of the lower half. -/
theorem loads_iff (lawful : paging.Lawful) (top : paging.TopLevel) (formed : WellFormed image) (currentCr3 : UInt64)
    (stocked : mem.allocator.Stocked (4 * pageCount image + 1)) :
    (∃ after entryPoint cr3, load image currentCr3 mem = (after, some (entryPoint, cr3)) ∧
      Loaded top image currentCr3 mem after cr3) ↔
    ∀ segment ∈ segments image, topPage ∉ segment.pages := by
  constructor
  · rintro ⟨after, entryPoint, cr3, ran, _⟩ segment member isTop
    have stopped := stops_load formed member isTop currentCr3 mem
    rw [ran] at stopped
    cases stopped
  · intro below
    obtain ⟨after, ⟨entryPoint, cr3⟩, ran, loaded⟩ := returns_load lawful top formed below currentCr3 stocked
    exact ⟨after, entryPoint, cr3, ran, loaded⟩

def littleEndian (count value : Nat) : List UInt8 := (List.range count).map fun i => UInt8.ofNat (value / 256 ^ i)

/-- A file with one segment of 10 bytes, 4 of them in the file. -/
def sampleBytes (vaddr : Nat) : List UInt8 :=
  littleEndian 4 ELFMAG ++ List.replicate 20 0 ++ littleEndian 8 vaddr ++ littleEndian 8 64 ++ List.replicate 16 0 ++
    littleEndian 8 1 ++
  -- the program header
  littleEndian 8 PT_LOAD ++ littleEndian 8 120 ++ littleEndian 8 vaddr ++ List.replicate 8 0 ++ littleEndian 8 4 ++
    littleEndian 8 10 ++ List.replicate 8 0 ++
  [0xB0, 0x2A, 0xCD, 0x80]

def sampleFile (vaddr : Nat) : ElfImage where
  len := (sampleBytes vaddr).length
  byte offset := (sampleBytes vaddr)[offset.toNat]?
  readable offset inside := by
    rw [List.getElem?_eq_getElem inside]
    rfl

def sampleMemory : Memory Paging.slots where
  allocator := ⟨some (List.replicate 8 0), 64, 64, 0, 0⟩
  tables := fun _ _ => []
  ram := fun _ => 0xFF

theorem loads_iff_sample :
    WellFormed (sampleFile 0x400FFE) ∧ sampleMemory.allocator.Stocked (4 * pageCount (sampleFile 0x400FFE) + 1) ∧
    ∃ after entryPoint cr3, load (sampleFile 0x400FFE) 0x100000 sampleMemory = (after, some (entryPoint, cr3)) ∧
      Loaded Paging.slotsTop (sampleFile 0x400FFE) 0x100000 sampleMemory after cr3 := by
  have formed : WellFormed (sampleFile 0x400FFE) := by decide +kernel
  have stocked : sampleMemory.allocator.Stocked (4 * pageCount (sampleFile 0x400FFE) + 1) := by decide +kernel
  refine ⟨formed, stocked, (loads_iff Paging.slots_lawful Paging.slotsTop formed 0x100000 stocked).mpr ?_⟩
  decide +kernel

/-- The segment of the sample, put on the last page of the lower half. -/
theorem top_segment_panics :
    WellFormed (sampleFile 0x7FFFFFFFF000) ∧
    sampleMemory.allocator.Stocked (4 * pageCount (sampleFile 0x7FFFFFFFF000) + 1) ∧
    (load (sampleFile 0x7FFFFFFFF000) 0x100000 sampleMemory).2 = none := by
  refine ⟨?_, ?_, ?_⟩ <;> decide +kernel

end ElseOS.Elf
