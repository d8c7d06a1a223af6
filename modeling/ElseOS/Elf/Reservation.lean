import ElseOS.Base.Mirror
import ElseOS.Elf.Loading

/-! The loader without the file.

Which frames a load takes and which tables it fills depends only on the list of pages that
the headers ask for. The loader is compared with a loop that maps these pages and nothing
else: for every image and every state it goes through exactly when that loop does, its
addresses are canonical and every byte it reads can be read. -/

set_option autoImplicit false

namespace ElseOS

open Base (Action)
open Base.Action (Mirrors Stops forEach)
open Memory (pageAt)

namespace Memory

variable {paging : Paging}

/-- The same frames are taken and the same tables are filled. -/
def Shadows (mem shadow : Memory paging) : Prop := mem.allocator = shadow.allocator ∧ mem.tables = shadow.tables

theorem Shadows.ram {mem shadow : Memory paging} (shadows : mem.Shadows shadow) (ram : Ram) :
    Shadows { mem with ram := ram } shadow := shadows

theorem mirrors_allocateFrame : Mirrors Shadows True (@allocateFrame paging) allocateFrame := by
  apply Action.mirrors_same
  rintro mem shadow ⟨allocator, tables⟩
  unfold allocateFrame
  rw [allocator]
  split
  · exact ⟨rfl, rfl, tables⟩
  · exact ⟨rfl, allocator, tables⟩

theorem mirrors_expectFrame : Mirrors Shadows True (@expectFrame paging) expectFrame :=
  (mirrors_allocateFrame.bind fun frame => Action.mirrors_expect frame).congr (by simp)

theorem mirrors_expectMapTo (cr3 page frame : UInt64) (flags : PageFlags) :
    Mirrors Shadows True (@expectMapTo paging cr3 page frame flags) (expectMapTo cr3 page frame flags) := by
  have called : Mirrors Shadows True (@mapTo paging cr3 page frame flags) (mapTo cr3 page frame flags) := by
    apply Action.mirrors_same
    rintro mem shadow ⟨allocator, tables⟩
    unfold mapTo
    rw [allocator, tables]
    exact ⟨rfl, rfl, rfl⟩
  exact (called.bind fun result => Action.mirrors_expect result.toOption).congr (by simp)

/-- Where there is a page left, the iterator has moved on to it. -/
theorem range_pageAt {page next : UInt64} {count : Nat} (room : page.toNat + 4096 * (count + 1) ≤ 2 ^ 64)
    (advanced : nextPage page = some next) :
    (List.range (count + 1)).map (pageAt page) = page :: (List.range count).map (pageAt next) ∧
      next.toNat + 4096 * count ≤ 2 ^ 64 := by
  rw [List.range_succ_eq_map, List.map_cons, List.map_map, pageAt_zero]
  cases count with
  | zero => exact ⟨rfl, Nat.le_of_lt next.toNat_lt⟩
  | succ count =>
    have twice : 4096 * 2 ≤ 4096 * (count + 1 + 1) := Nat.mul_le_mul_left 4096 (by omega)
    have behind := pageAt_nextPage (le_trans (Nat.add_le_add_left twice _) room) advanced
    constructor
    · congr 1
      exact List.map_congr_left fun i _ => (behind i).1
    · rw [(behind 0).2, Nat.add_assoc, Nat.add_comm 4096, ← Nat.mul_succ]
      exact room

theorem mirrors_forPages {State Other : Type} {relation : State → Other → Prop} {body : UInt64 → Action State Unit}
    {each : UInt64 → Action Other Unit} {condition : UInt64 → Prop}
    (once : ∀ page, Mirrors relation (condition page) (body page) (each page)) {count : Nat} {page : UInt64}
    (room : page.toNat + 4096 * count ≤ 2 ^ 64) :
    Mirrors relation (∀ other ∈ (List.range count).map (pageAt page), (nextPage other).isSome = true ∧ condition other)
      (forPages (fun page _ => body page) count page ()) (forEach each ((List.range count).map (pageAt page))) := by
  induction count generalizing page with
  | zero => exact (Action.mirrors_pure ()).congr (by simp)
  | succ count ih =>
    rw [forPages]
    cases advanced : nextPage page with
    | none =>
      apply (Action.mirrors_stops (Action.stops_panic.first _) _).congr
      rw [List.range_succ_eq_map, List.map_cons, pageAt_zero]
      simp [advanced]
    | some next =>
      obtain ⟨pages, left⟩ := range_pageAt room advanced
      rw [Action.expect_some_bind, pages, forEach]
      apply ((once page).bind fun _ => ih left).congr
      simp [advanced]

theorem forPages_congr {State : Type} {body other : UInt64 → Action State Unit} {count : Nat} {page : UInt64}
    (room : page.toNat + 4096 * count ≤ 2 ^ 64)
    (same : ∀ visited ∈ (List.range count).map (pageAt page), body visited = other visited) :
    forPages (fun page _ => body page) count page () = forPages (fun page _ => other page) count page () := by
  induction count generalizing page with
  | zero => rfl
  | succ count ih =>
    rw [forPages, forPages]
    cases advanced : nextPage page with
    | none => rfl
    | some next =>
      obtain ⟨pages, left⟩ := range_pageAt room advanced
      rw [pages] at same
      rw [Action.expect_some_bind, Action.expect_some_bind, same page List.mem_cons_self]
      congr 1
      funext carried
      exact ih left fun visited later => same visited (List.mem_cons_of_mem _ later)

theorem forAddresses_congr {body other : UInt64 → Action (Memory paging) Unit} (first last : UInt64)
    (same : ∀ visited ∈ (List.range (pagesInclusive (containingAddress first) (containingAddress last))).map
      (pageAt (containingAddress first)), body visited = other visited) :
    forAddresses first last (fun page _ => body page) () = forAddresses first last (fun page _ => other page) () := by
  unfold forAddresses
  cases validFirst : VirtAddr.new first with
  | none => rfl
  | some start =>
    obtain rfl := VirtAddr.new_eq validFirst
    cases validLast : VirtAddr.new last with
    | none => rfl
    | some stop =>
      obtain rfl := VirtAddr.new_eq validLast
      exact forPages_congr (pagesInclusive_room _ _) same

end Memory

namespace Elf

variable {paging : Paging}

/-! ## The pages a file asks for -/

def Segment.pageList (segment : Segment) : List UInt64 :=
  (List.range (pagesInclusive (containingAddress segment.vaddr)
    (containingAddress (segment.vaddr + segment.memsz - 1)))).map (pageAt (containingAddress segment.vaddr))

def Segment.copyStart (segment : Segment) (page : UInt64) : UInt64 := max page segment.vaddr

def Segment.copyEnd (segment : Segment) (page : UInt64) : UInt64 :=
  min (page + PAGE_SIZE) (segment.vaddr + segment.filesz)

def Segment.copyLen (segment : Segment) (page : UInt64) : Nat :=
  if segment.copyStart page < segment.copyEnd page then (segment.copyEnd page - segment.copyStart page).toNat else 0

def Segment.source (segment : Segment) (page : UInt64) : UInt64 :=
  segment.offset + (segment.copyStart page - segment.vaddr)

def stackList : List UInt64 := (List.range' 0 4).flatMap fun i => [pageAddress (stackPage i).number]

theorem stackList_aligned : ∀ page ∈ stackList, page.toNat % 4096 = 0 ∧ page.toNat + 4096 < 2 ^ 47 := by
  have checked : (stackList.all fun page => page.toNat % 4096 = 0 ∧ page.toNat + 4096 < 2 ^ 47) = true := by decide
  intro page member
  exact of_decide_eq_true (List.all_eq_true.mp checked page member)

def pageList (image : ElfImage) : List UInt64 := (segments image).flatMap Segment.pageList ++ stackList

def reservePage (cr3 page : UInt64) : Action (Memory paging) Unit := do
  let frame ← Memory.expectFrame
  Memory.expectMapTo cr3 page frame userFlags

def entryPoint (image : ElfImage) : UInt64 := (image.readU64 eEntry).getD 0

def reserve (image : ElfImage) (currentCr3 : UInt64) : Action (Memory paging) (UInt64 × UInt64) := do
  let cr3 ← Memory.expectFrame
  Memory.newTable cr3 currentCr3
  forEach (reservePage cr3) (pageList image)
  pure (entryPoint image, cr3)

/-! ## What the loader needs besides -/

def CopyReads (image : ElfImage) (segment : Segment) (page : UInt64) : Prop :=
  ∀ k < segment.copyLen page, (image.byte (segment.source page + UInt64.ofNat k)).isSome = true

/-- The ends of the segment are addresses, the iterator comes to every page, and what is copied can be read. -/
structure SegmentLoads (image : ElfImage) (segment : Segment) : Prop where
  first : VirtAddr.canonical segment.vaddr = true
  last : VirtAddr.canonical (segment.vaddr + segment.memsz - 1) = true
  pages : ∀ page ∈ segment.pageList, (nextPage page).isSome = true ∧ CopyReads image segment page

def HeaderLoads (image : ElfImage) (offset : UInt64) : Prop :=
  ∃ type, image.read offset 4 = some type ∧
    (type = PT_LOAD → ∃ segment, segmentAt image offset = some segment ∧ SegmentLoads image segment)

structure Loads (image : ElfImage) : Prop where
  header : ehdrSize ≤ image.len
  magic : image.read 0 4 = some ELFMAG
  headers : ∀ i < phnum image, HeaderLoads image (phdrOffset image i)

theorem copyPage_eq (image : ElfImage) (segment : Segment) (page frame : UInt64) :
    @copyPage paging image segment page frame = if segment.copyStart page < segment.copyEnd page then do
      Action.require ((List.range (segment.copyEnd page - segment.copyStart page).toNat).all fun i =>
        (image.byte (segment.source page + UInt64.ofNat i)).isSome)
      Action.modify fun mem => { mem with
        ram := mem.ram.copy (frame + (segment.copyStart page - page)) (segment.copyEnd page - segment.copyStart page)
          fun i => (image.byte (segment.source page + i)).getD 0 }
    else pure () := by
  unfold copyPage Segment.source Segment.copyStart Segment.copyEnd
  rfl

theorem mirrors_copyPage (image : ElfImage) (segment : Segment) (page frame : UInt64) :
    Mirrors Memory.Shadows (CopyReads image segment page) (@copyPage paging image segment page frame) (pure ()) := by
  rw [copyPage_eq]
  split
  next some =>
    have copies : segment.copyLen page = (segment.copyEnd page - segment.copyStart page).toNat := if_pos some
    apply (Mirrors.guarded (Action.mirrors_same _)).congr
    · rw [CopyReads, copies]
      simp
    · exact fun _ _ shadows => ⟨rfl, shadows.ram _⟩
  next none =>
    have nothing : segment.copyLen page = 0 := if_neg none
    apply (Action.mirrors_pure ()).congr
    rw [CopyReads, nothing]
    simp

theorem mirrors_loadPage (image : ElfImage) (segment : Segment) (cr3 page : UInt64) :
    Mirrors Memory.Shadows (CopyReads image segment page) (@loadPage paging image segment cr3 page)
      (reservePage cr3 page) := by
  have rest (frame : UInt64) : Mirrors Memory.Shadows (CopyReads image segment page)
      (Memory.expectMapTo cr3 page frame userFlags >>= fun _ => Memory.zeroFrame frame >>= fun _ =>
        @copyPage paging image segment page frame) (Memory.expectMapTo cr3 page frame userFlags) := by
    have filled : Mirrors Memory.Shadows (CopyReads image segment page)
        (Memory.zeroFrame frame >>= fun _ => @copyPage paging image segment page frame) (pure ()) :=
      Action.mirrors_modify (fun _ _ shadows => shadows.ram _) (mirrors_copyPage image segment page frame)
    have both := (Memory.mirrors_expectMapTo cr3 page frame userFlags).bind fun _ => filled
    rw [show (Memory.expectMapTo cr3 page frame userFlags >>= fun _ => (pure () : Action (Memory paging) Unit)) =
      Memory.expectMapTo cr3 page frame userFlags from Action.bind_pure _] at both
    exact both.congr (by simp)
  exact (Memory.mirrors_expectFrame.bind rest).congr (by simp)

theorem mirrors_segment (image : ElfImage) (segment : Segment) (cr3 : UInt64) :
    Mirrors Memory.Shadows (SegmentLoads image segment)
      (Memory.forAddresses segment.vaddr (segment.vaddr + segment.memsz - 1)
        (fun page _ => @loadPage paging image segment cr3 page) ())
      (forEach (reservePage cr3) segment.pageList) := by
  unfold Memory.forAddresses
  by_cases first : VirtAddr.canonical segment.vaddr = true
  · rw [VirtAddr.new, if_pos first, Action.expect_some_bind]
    by_cases last : VirtAddr.canonical (segment.vaddr + segment.memsz - 1) = true
    · rw [VirtAddr.new, if_pos last, Action.expect_some_bind]
      apply (Memory.mirrors_forPages (mirrors_loadPage image segment cr3) (Memory.pagesInclusive_room _ _)).congr
      exact ⟨fun pages => ⟨first, last, pages⟩, fun loads => loads.pages⟩
    · rw [VirtAddr.new, if_neg last]
      exact (Action.mirrors_stops (Action.stops_panic.first _) _).congr ⟨False.elim, fun loads => last loads.last⟩
  · rw [VirtAddr.new, if_neg first]
    exact (Action.mirrors_stops (Action.stops_panic.first _) _).congr ⟨False.elim, fun loads => first loads.first⟩

theorem segmentAt_type {image : ElfImage} {offset : UInt64} {segment : Segment}
    (found : segmentAt image offset = some segment) : image.read offset 4 = some PT_LOAD := by
  unfold segmentAt at found
  split at found
  next isLoad => exact isLoad
  next => cases found

theorem stops_loadSegment {image : ElfImage} {offset : UInt64} (isLoad : image.read offset 4 = some PT_LOAD)
    (missing : segmentAt image offset = none) (cr3 : UInt64) : Stops (@loadSegment paging image cr3 offset) := by
  rw [segmentAt, if_pos isLoad] at missing
  unfold loadSegment
  rw [isLoad, Action.expect_some_bind, if_pos rfl]
  cases vaddr : image.readU64 (offset + pVaddr) with
  | none => exact (Action.stops_expect rfl).first _
  | some vaddr =>
    rw [Action.expect_some_bind]
    cases memsz : image.readU64 (offset + pMemsz) with
    | none => exact (Action.stops_expect rfl).first _
    | some memsz =>
      rw [Action.expect_some_bind]
      cases start : image.readU64 (offset + pOffset) with
      | none => exact (Action.stops_expect rfl).first _
      | some start =>
        rw [Action.expect_some_bind]
        cases filesz : image.readU64 (offset + pFilesz) with
        | none => exact (Action.stops_expect rfl).first _
        | some filesz => simp [*] at missing

theorem mirrors_header (image : ElfImage) (cr3 offset : UInt64) :
    Mirrors Memory.Shadows (HeaderLoads image offset) (@loadSegment paging image cr3 offset)
      (forEach (reservePage cr3) ((segmentAt image offset).toList.flatMap Segment.pageList)) := by
  cases found : segmentAt image offset with
  | some segment =>
    rw [loadSegment_some found, Option.toList_some, List.flatMap_singleton]
    apply (mirrors_segment image segment cr3).congr
    simp [HeaderLoads, segmentAt_type found, found]
  | none =>
    rw [Option.toList_none, List.flatMap_nil]
    cases type : image.read offset 4 with
    | none =>
      have stops : Stops (@loadSegment paging image cr3 offset) := by
        unfold loadSegment
        rw [type]
        exact Action.stops_panic.first _
      exact (Action.mirrors_stops stops _).congr (by simp [HeaderLoads, type])
    | some value =>
      by_cases isLoad : value = PT_LOAD
      · subst isLoad
        exact (Action.mirrors_stops (stops_loadSegment type found cr3) _).congr (by simp [HeaderLoads, type, found])
      · have passed : @loadSegment paging image cr3 offset = pure () := by
          unfold loadSegment
          rw [type, Action.expect_some_bind, if_neg isLoad]
        rw [passed]
        exact (Action.mirrors_pure ()).congr (by simp [HeaderLoads, type, isLoad])

theorem mapStackPage_eq {i : Nat} (inside : i < 4) (cr3 : UInt64) :
    @mapStackPage paging cr3 i = reservePage cr3 (pageAddress (stackPage i).number) := by
  obtain ⟨canonical, aligned⟩ := stackAddress inside
  unfold mapStackPage reservePage
  rw [canonical, Action.expect_some_bind, aligned]

theorem stack_eq (cr3 : UInt64) :
    Action.forRange (@mapStackPage paging cr3) 4 0 = forEach (reservePage cr3) stackList := by
  simp only [Action.forRange]
  rw [mapStackPage_eq (by decide), mapStackPage_eq (by decide), mapStackPage_eq (by decide),
    mapStackPage_eq (by decide)]
  rfl

theorem mirrors_stack (cr3 : UInt64) :
    Mirrors Memory.Shadows True (Action.forRange (@mapStackPage paging cr3) 4 0)
    (forEach (reservePage cr3) stackList) := by
  rw [stack_eq]
  apply (Action.mirrors_forEach (fun _ => True) (fun page => ?_) stackList).congr (by simp)
  exact (Memory.mirrors_expectFrame.bind fun frame => Memory.mirrors_expectMapTo cr3 page frame userFlags).congr
    (by simp)

theorem pageList_eq (image : ElfImage) : pageList image =
    (List.range' 0 (phnum image)).flatMap
      (fun i => (segmentAt image (phdrOffset image i)).toList.flatMap Segment.pageList) ++ stackList := by
  rw [pageList, segments, List.filterMap_eq_flatMap_toList, List.flatMap_assoc, List.range_eq_range']

theorem mirrors_fillSpace {image : ElfImage} (header : ehdrSize ≤ image.len) (cr3 : UInt64) :
    Mirrors Memory.Shadows (∀ i < phnum image, HeaderLoads image (phdrOffset image i)) (@fillSpace paging image cr3)
      (forEach (reservePage cr3) (pageList image) >>= fun _ => pure (entryPoint image, cr3)) := by
  obtain ⟨first, count, entry, isEntry⟩ := fields_of_header header
  have same : entryPoint image = entry := by rw [entryPoint, isEntry, Option.getD_some]
  unfold fillSpace
  rw [first, Action.expect_some_bind, count, Action.expect_some_bind, isEntry, pageList_eq, Action.forEach_append,
    Action.bind_assoc, same]
  have headers : Mirrors Memory.Shadows (∀ j, 0 ≤ j → j < 0 + phnum image → HeaderLoads image (phdrOffset image j))
      (Action.forRange (fun i => @loadSegment paging image cr3 (phdrOffset image i)) (phnum image) 0)
      (forEach (reservePage cr3) _) :=
    Action.mirrors_forRange fun i _ _ => mirrors_header image cr3 (phdrOffset image i)
  have last : Mirrors Memory.Shadows True
      (Action.forRange (@mapStackPage paging cr3) 4 0 >>= fun _ => (pure (entry, cr3) : Action (Memory paging) _))
      (forEach (reservePage cr3) stackList >>= fun _ => pure (entry, cr3)) :=
    ((mirrors_stack cr3).bind fun _ => Action.mirrors_pure (entry, cr3)).congr (by simp)
  exact (headers.bind fun _ => last).congr (by simp)

/-- The loader goes through exactly when the image loads and its pages can be mapped. -/
theorem mirrors_load (image : ElfImage) (currentCr3 : UInt64) :
    Mirrors Memory.Shadows (Loads image) (@load paging image currentCr3) (reserve image currentCr3) := by
  rw [load]
  by_cases header : ehdrSize ≤ image.len
  · have made (cr3 : UInt64) : Mirrors Memory.Shadows True (@Memory.newTable paging cr3 currentCr3)
        (Memory.newTable cr3 currentCr3) :=
      Action.mirrors_same fun _ _ shadows => ⟨rfl, shadows.1, congrArg (paging.newTable · cr3 currentCr3) shadows.2⟩
    have space := Memory.mirrors_expectFrame.bind fun cr3 => (made cr3).bind fun _ => mirrors_fillSpace header cr3
    apply space.guarded.guarded.congr
    constructor
    · rintro ⟨_, magic, _, _, headers⟩
      exact ⟨header, of_decide_eq_true magic, headers⟩
    · intro loads
      exact ⟨decide_eq_true header, decide_eq_true loads.magic, trivial, trivial, loads.headers⟩
  · have stops : Stops (Action.require (ehdrSize ≤ image.len) : Action (Memory paging) Unit) := by
      rw [decide_eq_false header]
      exact Action.stops_panic
    exact (Action.mirrors_stops (stops.first _) _).congr ⟨False.elim, fun loads => header loads.header⟩

end Elf

end ElseOS
