import ElseOS.Elf.Containment

/-! What a new process finds in the frames it is given.

The loader is run from two states with the same frames free and the same tables, whatever
their memory holds. A page of a segment is cleared before the file is copied to it; a page
of the stack shows what its frame held before. -/

set_option autoImplicit false

namespace ElseOS

open Base (Action)
open Base.Action (Couples forEach)
open BitmapAllocator (frameAddress frameAddress_toNat)

namespace Memory

theorem couples_forPages {State : Type} {twins : State → State → Prop} {body : UInt64 → Action State Unit}
    (once : ∀ page, Couples twins (body page)) (count : Nat) (page : UInt64) :
    Couples twins (forPages (fun page _ => body page) count page ()) := by
  induction count generalizing page with
  | zero => exact Action.couples_pure ()
  | succ count ih =>
    apply (Action.couples_expect (nextPage page)).bind
    intro next
    exact (once page).bind fun _ => ih next

theorem couples_forAddresses {paging : Paging} {twins : Memory paging → Memory paging → Prop}
    {body : UInt64 → Action (Memory paging) Unit} (once : ∀ page, Couples twins (body page)) (first last : UInt64) :
    Couples twins (forAddresses first last (fun page _ => body page) ()) := by
  apply (Action.couples_expect _).bind
  intro start
  apply (Action.couples_expect _).bind
  intro stop
  exact couples_forPages once _ _

end Memory

namespace Elf

variable {paging : Paging} {mem after first second last : Memory paging} {image : ElfImage} {segment : Segment}
  {cr3 currentCr3 page : UInt64} {start other : Ram}

/-! ## One page -/

structure Reserved (cr3 page : UInt64) (idx : Nat) (mem after : Memory paging) : Prop where
  wasFree : idx ∈ mem.allocator.free
  taken : idx ∉ after.allocator.free
  less : after.allocator.free ⊆ mem.allocator.free
  ready : after.allocator.Ready
  lookup : after.lookup cr3 = Function.update (mem.lookup cr3) page (some (frameAddress idx, userFlags))

theorem reserved_of_run (ready : mem.allocator.Ready) (ran : reservePage cr3 page mem = (after, some ())) :
    after.ram = mem.ram ∧ ∃ idx, Reserved cr3 page idx mem after := by
  obtain ⟨middle, frame, allocated, ⟨frames, takes⟩, sameRam, _, updated, _⟩ := reservePage_spec ran
  obtain ⟨_, alsoRam, idx, wasFree, rfl, rewrites⟩ := Memory.expectFrame_takes ready allocated
  obtain ⟨stillReady, less⟩ := takes.free (ready.rewrites rewrites)
  rw [rewrites.free] at less
  refine ⟨sameRam.trans alsoRam, idx, wasFree, ?_, ?_, stillReady, updated⟩
  · exact fun stillFree => Finset.notMem_erase idx _ (less stillFree)
  · exact less.trans (Finset.erase_subset _ _)

theorem frame_offset {idx : Nat} {offset : UInt64} (small : idx < 2 ^ 52) (inside : offset.toNat < 4096) :
    (frameAddress idx + offset).toNat = 4096 * idx + offset.toNat := by
  rw [UInt64.toNat_add, frameAddress_toNat small]
  omega

def Segment.fileByte (image : ElfImage) (segment : Segment) (page offset : UInt64) : Option UInt8 :=
  if segment.copyStart page < segment.copyEnd page ∧
      offset - (segment.copyStart page - page) < segment.copyEnd page - segment.copyStart page then
    some ((image.byte (segment.source page + (offset - (segment.copyStart page - page)))).getD 0)
  else none

theorem copyPage_spec {idx : Nat} (small : idx < 2 ^ 52)
    (ran : copyPage image segment page (frameAddress idx) mem = (after, some ())) :
    after.allocator = mem.allocator ∧ after.tables = mem.tables ∧
    (∀ offset : UInt64, offset.toNat < 4096 → after.ram (frameAddress idx + offset) =
      (segment.fileByte image page offset).getD (mem.ram (frameAddress idx + offset))) ∧
    ∀ addr : UInt64, addr.toNat / 4096 ≠ idx → after.ram addr = mem.ram addr := by
  have frame := frameAddress_toNat small
  have above : page.toNat ≤ (segment.copyStart page).toNat := by
    rw [Segment.copyStart, toNat_max]
    exact Nat.le_max_left _ _
  have under : (segment.copyEnd page).toNat ≤ (page.toNat + 4096) % 2 ^ 64 := by
    rw [Segment.copyEnd, toNat_min, UInt64.toNat_add, PAGE_SIZE_toNat]
    exact Nat.min_le_left _ _
  rw [copyPage_eq] at ran
  split at ran
  next some =>
    obtain ⟨middle, _, required, modified⟩ := Action.bind_eq_some ran
    obtain ⟨_, rfl⟩ := Action.require_eq_some required
    cases modified
    have order := UInt64.lt_iff_toNat_lt.mp some
    have length : (segment.copyEnd page - segment.copyStart page).toNat =
        (segment.copyEnd page).toNat - (segment.copyStart page).toNat :=
      UInt64.toNat_sub_of_le _ _ (UInt64.le_of_lt some)
    have within : (segment.copyStart page - page).toNat = (segment.copyStart page).toNat - page.toNat :=
      UInt64.toNat_sub_of_le _ _ (UInt64.le_iff_toNat_le.mpr above)
    have target : (frameAddress idx + (segment.copyStart page - page)).toNat =
        4096 * idx + ((segment.copyStart page).toNat - page.toNat) := by
      rw [UInt64.toNat_add, frame, within]
      omega
    refine ⟨rfl, rfl, ?_, ?_⟩
    · intro offset inside
      have behind : frameAddress idx + offset - (frameAddress idx + (segment.copyStart page - page)) =
          offset - (segment.copyStart page - page) := by grind
      dsimp only
      rw [Ram.copy, behind, Segment.fileByte]
      by_cases copied : offset - (segment.copyStart page - page) < segment.copyEnd page - segment.copyStart page
      · rw [if_pos copied, if_pos ⟨some, copied⟩]
        rfl
      · rw [if_neg copied, if_neg fun both => copied both.2]
        rfl
    · intro addr elsewhere
      dsimp only
      rw [Ram.copy, if_neg]
      rw [offset_lt_iff (by omega), target, length]
      omega
  next nothing =>
    cases ran
    refine ⟨rfl, rfl, ?_, fun _ _ => rfl⟩
    intro offset _
    rw [Segment.fileByte, if_neg fun both => nothing both.1]
    rfl

/-- A page of a segment holds bytes of the file and zeros, whatever its frame held. -/
theorem loadPage_spec (ready : mem.allocator.Ready) (ran : loadPage image segment cr3 page mem = (after, some ())) :
    ∃ idx, Reserved cr3 page idx mem after ∧
    (∀ offset : UInt64, offset.toNat < 4096 →
      after.ram (frameAddress idx + offset) = (segment.fileByte image page offset).getD 0) ∧
    ∀ addr : UInt64, addr.toNat / 4096 ≠ idx → after.ram addr = mem.ram addr := by
  obtain ⟨allocated, frame, asked, rest⟩ := Action.bind_eq_some ran
  obtain ⟨mapped, _, mapping, writing⟩ := Action.bind_eq_some rest
  obtain ⟨zeroed, _, zeroing, copying⟩ := Action.bind_eq_some writing
  -- the frame is the one the page has been mapped to
  have reserving : reservePage cr3 page mem = (mapped, some ()) := by
    unfold reservePage
    rw [Action.bind_some asked]
    exact mapping
  obtain ⟨sameRam, idx, reserved⟩ := reserved_of_run ready reserving
  obtain ⟨_, other, alsoAsked, _, _, _, updated, _⟩ := reservePage_spec reserving
  rw [asked] at alsoAsked
  cases alsoAsked
  have isFrame : frame = frameAddress idx := by
    have entry := congrFun (updated.symm.trans reserved.lookup) page
    rw [Function.update_self, Function.update_self] at entry
    exact congrArg Prod.fst (Option.some.inj entry)
  subst isFrame
  have small := ready.frame_small reserved.wasFree
  obtain ⟨sameAllocator, sameTables, bytes, others⟩ := copyPage_spec small copying
  have isZeroed : zeroed = { mapped with ram := mapped.ram.fill (frameAddress idx) PAGE_SIZE 0 } :=
    (Prod.mk.inj zeroing).1.symm
  subst isZeroed
  have inFrame (addr : UInt64) : addr - frameAddress idx < PAGE_SIZE ↔ addr.toNat / 4096 = idx := by
    rw [offset_lt_iff, frameAddress_toNat small, PAGE_SIZE_toNat]
    · omega
    · rw [frameAddress_toNat small, PAGE_SIZE_toNat]
      omega
  dsimp only at sameAllocator sameTables bytes others
  refine ⟨idx, ⟨reserved.wasFree, ?_, ?_, ?_, ?_⟩, ?_, ?_⟩
  · rw [sameAllocator]
    exact reserved.taken
  · rw [sameAllocator]
    exact reserved.less
  · rw [sameAllocator]
    exact reserved.ready
  · rw [← reserved.lookup]
    funext other
    rw [Memory.lookup, sameTables, Memory.lookup]
  · intro offset inside
    have here := frame_offset small inside
    rw [bytes offset inside, Ram.fill, if_pos]
    rw [inFrame, here]
    omega
  · intro addr elsewhere
    rw [others addr elsewhere, Ram.fill, if_neg fun within => elsewhere ((inFrame addr).mp within), sameRam]

/-! ## Two runs -/

/-- Two states of the load: frames that are still free hold what they held at the start of either run,
and what is mapped in the lower half is the same. -/
structure Twins (cr3 : UInt64) (start other : Ram) (first second : Memory paging) : Prop where
  shadows : first.Shadows second
  ready : first.allocator.Ready
  free : ∀ idx ∈ first.allocator.free, ∀ offset : UInt64, offset.toNat < 4096 →
    first.ram (frameAddress idx + offset) = start (frameAddress idx + offset) ∧
    second.ram (frameAddress idx + offset) = other (frameAddress idx + offset)
  mapped : ∀ page : UInt64, page.toNat < 2 ^ 47 → ∀ entry, first.lookup cr3 page = some entry →
    ∃ idx < 2 ^ 52, idx ∉ first.allocator.free ∧ entry.1 = frameAddress idx ∧
      ∀ offset : UInt64, offset.toNat < 4096 →
        first.ram (frameAddress idx + offset) = second.ram (frameAddress idx + offset)

theorem couples_loadPage (image : ElfImage) (segment : Segment) (cr3 page : UInt64) (start other : Ram) :
    Couples (Twins cr3 start other) (@loadPage paging image segment cr3 page) := by
  intro first second twins after last _ _ ran twinRan
  refine ⟨rfl, ?_⟩
  obtain ⟨sameAllocator, sameTables⟩ := twins.shadows
  obtain ⟨idx, reserved, bytes, others⟩ := loadPage_spec twins.ready ran
  obtain ⟨idx', reserved', bytes', others'⟩ := loadPage_spec (sameAllocator ▸ twins.ready) twinRan
  obtain ⟨_, final, shadows, twinShadows⟩ := (mirrors_loadPage image segment cr3 page).follow
    (show first.Shadows first from ⟨rfl, rfl⟩) ⟨sameAllocator.symm, sameTables.symm⟩ ran twinRan
  have stillShadows : after.Shadows last :=
    ⟨shadows.1.trans twinShadows.1.symm, shadows.2.trans twinShadows.2.symm⟩
  -- both runs take the same frame
  have same : idx = idx' := by
    have entry : after.lookup cr3 page = last.lookup cr3 page := by
      rw [Memory.lookup, Memory.lookup, stillShadows.2]
    rw [reserved.lookup, reserved'.lookup, Function.update_self, Function.update_self] at entry
    exact twins.ready.frame_inj reserved.wasFree (sameAllocator ▸ reserved'.wasFree)
      (congrArg Prod.fst (Option.some.inj entry))
  subst same
  have elsewhere {known : Nat} {offset : UInt64} (small : known < 2 ^ 52) (inside : offset.toNat < 4096)
      (different : known ≠ idx) : (frameAddress known + offset).toNat / 4096 ≠ idx := by
    rw [frame_offset small inside]
    omega
  refine ⟨stillShadows, reserved.ready, ?_, ?_⟩
  · intro known isFree offset inside
    have wasFree := reserved.less isFree
    have apart := elsewhere (twins.ready.frame_small wasFree) inside fun same => reserved.taken (same ▸ isFree)
    rw [others _ apart, others' _ apart]
    exact twins.free known wasFree offset inside
  · intro visited low entry present
    rw [reserved.lookup] at present
    by_cases now : visited = page
    · rw [now, Function.update_self] at present
      cases present
      refine ⟨idx, twins.ready.frame_small reserved.wasFree, reserved.taken, rfl, ?_⟩
      intro offset inside
      rw [bytes offset inside, bytes' offset inside]
    · rw [Function.update_of_ne now] at present
      obtain ⟨known, small, used, isFrame, alike⟩ := twins.mapped visited low entry present
      refine ⟨known, small, fun isFree => used (reserved.less isFree), isFrame, ?_⟩
      intro offset inside
      have apart := elsewhere small inside fun same => used (same ▸ reserved.wasFree)
      rw [others _ apart, others' _ apart]
      exact alike offset inside

theorem couples_loadSegment (image : ElfImage) (cr3 offset : UInt64) (start other : Ram) :
    Couples (Twins cr3 start other) (@loadSegment paging image cr3 offset) := by
  apply (Action.couples_expect _).bind
  intro pType
  split
  · apply (Action.couples_expect _).bind
    intro vaddr
    apply (Action.couples_expect _).bind
    intro memsz
    apply (Action.couples_expect _).bind
    intro offset
    apply (Action.couples_expect _).bind
    intro filesz
    exact Memory.couples_forAddresses (fun page => couples_loadPage image _ cr3 page start other) _ _
  · exact Action.couples_pure ()

/-! ## The stack -/

theorem forEach_reserved {pages : List UInt64} (ready : mem.allocator.Ready)
    (ran : forEach (reservePage cr3) pages mem = (after, some ())) :
    after.ram = mem.ram ∧
    ∀ page ∈ pages, ∃ idx ∈ mem.allocator.free, after.lookup cr3 page = some (frameAddress idx, userFlags) := by
  induction pages generalizing mem with
  | nil =>
    cases ran
    exact ⟨rfl, fun _ member => (List.not_mem_nil member).elim⟩
  | cons page rest ih =>
    obtain ⟨middle, _, once, continued⟩ := Action.bind_eq_some ran
    obtain ⟨sameRam, idx, reserved⟩ := reserved_of_run ready once
    obtain ⟨alsoRam, later⟩ := ih reserved.ready continued
    obtain ⟨unmapped, others, _⟩ := forEach_reserve_spec continued
    refine ⟨alsoRam.trans sameRam, ?_⟩
    intro visited member
    by_cases again : visited ∈ rest
    · obtain ⟨taken, isFree, present⟩ := later visited again
      exact ⟨taken, reserved.less isFree, present⟩
    · obtain rfl : visited = page := (List.mem_cons.mp member).resolve_right again
      refine ⟨idx, reserved.wasFree, ?_⟩
      rw [others visited again, reserved.lookup, Function.update_self]

/-! ## The whole load -/

/-- A load that goes through: the address space, the segments, the stack. -/
theorem load_phases {entryPoint : UInt64} (header : ehdrSize ≤ image.len)
    (ran : load image currentCr3 mem = (after, some (entryPoint, cr3))) :
    ∃ allocated middle, Memory.expectFrame mem = (allocated, some cr3) ∧
      Action.forRange (fun i => loadSegment image cr3 (phdrOffset image i)) (phnum image) 0
        (fresh allocated cr3 currentCr3) = (middle, some ()) ∧
      forEach (reservePage cr3) stackList middle = (after, some ()) := by
  obtain ⟨allocated, asked, filled⟩ := load_spec ran
  obtain ⟨offset, count, entry, isEntry⟩ := fields_of_header header
  unfold fillSpace at filled
  rw [offset, Action.expect_some_bind, count, Action.expect_some_bind, isEntry] at filled
  obtain ⟨middle, _, headers, filled⟩ := Action.bind_eq_some filled
  obtain ⟨_, _, stacked, finished⟩ := Action.bind_eq_some filled
  cases finished
  rw [stack_eq] at stacked
  exact ⟨allocated, middle, asked, headers, stacked⟩

theorem twins_fresh (top : paging.TopLevel) {allocated twinAllocated : Memory paging} (ready : first.allocator.Ready)
    (shadows : second.Shadows first) (asked : Memory.expectFrame first = (allocated, some cr3))
    (twinAsked : Memory.expectFrame second = (twinAllocated, some cr3)) :
    Twins cr3 first.ram second.ram (fresh allocated cr3 currentCr3) (fresh twinAllocated cr3 currentCr3) := by
  obtain ⟨_, sameRam, idx, _, _, rewrites⟩ := Memory.expectFrame_takes ready asked
  obtain ⟨_, twinRam, _⟩ := Memory.expectFrame_takes (shadows.1 ▸ ready) twinAsked
  obtain ⟨_, final, ofFirst, ofSecond⟩ :=
    Memory.mirrors_expectFrame.follow (show first.Shadows first from ⟨rfl, rfl⟩) shadows asked twinAsked
  refine ⟨⟨?_, ?_⟩, ready.rewrites rewrites, ?_, ?_⟩
  · exact ofFirst.1.trans ofSecond.1.symm
  · exact congrArg (paging.newTable · cr3 currentCr3) (ofFirst.2.trans ofSecond.2.symm)
  · intro known _ offset _
    exact ⟨congrFun sameRam _, congrFun twinRam _⟩
  · intro page low entry present
    have unmapped : (fresh allocated cr3 currentCr3).lookup cr3 page = none := by
      apply top.unmapped
      apply top.newTable_lower
      exact slot_lower low
    rw [unmapped] at present
    cases present

/-- Two loads when they are done: a page of the stack shows what its frame held at the start of either
run, and everything else in the lower half is the same. -/
structure Twinned (cr3 : UInt64) (start other : Ram) (after last : Memory paging) : Prop where
  tables : after.tables = last.tables
  stack : ∀ page ∈ stackList, ∃ frame, after.lookup cr3 page = some (frame, userFlags) ∧
    ∀ offset : UInt64, offset.toNat < 4096 →
      after.ram (frame + offset) = start (frame + offset) ∧ last.ram (frame + offset) = other (frame + offset)
  others : ∀ page : UInt64, page.toNat < 2 ^ 47 → page ∉ stackList → ∀ entry, after.lookup cr3 page = some entry →
    ∀ offset : UInt64, offset.toNat < 4096 → after.ram (entry.1 + offset) = last.ram (entry.1 + offset)

theorem twinned_of_load (top : paging.TopLevel) {entryPoint : UInt64} (ready : first.allocator.Ready)
    (shadows : second.Shadows first) (header : ehdrSize ≤ image.len)
    (ran : load image currentCr3 first = (after, some (entryPoint, cr3)))
    (twinRan : load image currentCr3 second = (last, some (entryPoint, cr3))) :
    Twinned cr3 first.ram second.ram after last := by
  obtain ⟨_, final, ofFirst, ofSecond⟩ := (mirrors_load image currentCr3).follow
    (show first.Shadows first from ⟨rfl, rfl⟩) shadows ran twinRan
  obtain ⟨allocated, middle, asked, headers, stacked⟩ := load_phases header ran
  obtain ⟨twinAllocated, twinMiddle, twinAsked, twinHeaders, twinStacked⟩ := load_phases header twinRan
  obtain ⟨_, twins⟩ := Action.couples_forRange
    (fun i => couples_loadSegment image cr3 (phdrOffset image i) first.ram second.ram) (phnum image) 0 _ _
    (twins_fresh top ready shadows asked twinAsked) middle twinMiddle () () headers twinHeaders
  obtain ⟨ram, inStack⟩ := forEach_reserved twins.ready stacked
  obtain ⟨twinRam, _⟩ := forEach_reserved (twins.shadows.1 ▸ twins.ready) twinStacked
  obtain ⟨_, unchanged, _⟩ := forEach_reserve_spec stacked
  refine ⟨ofFirst.2.trans ofSecond.2.symm, ?_, ?_⟩
  · intro page member
    obtain ⟨idx, isFree, present⟩ := inStack page member
    refine ⟨frameAddress idx, present, ?_⟩
    rw [ram, twinRam]
    exact twins.free idx isFree
  · intro page low outside entry present offset inside
    rw [unchanged page outside] at present
    obtain ⟨idx, _, _, isFrame, alike⟩ := twins.mapped page low entry present
    rw [ram, twinRam, isFrame]
    exact alike offset inside

theorem sub_containingAddress (addr : UInt64) : (addr - containingAddress addr).toNat = addr.toNat % 4096 := by
  have block := containingAddress_toNat addr
  rw [UInt64.toNat_sub_of_le _ _ (UInt64.le_iff_toNat_le.mpr (by omega)), block]
  omega

theorem readUser_stack (mem : Memory paging) (cr3 : UInt64) {page offset : UInt64} (member : page ∈ stackList)
    (inside : offset.toNat < 4096) : (page + offset).toNat < 2 ^ 47 ∧
    readUser mem cr3 (page + offset) = (mem.lookup cr3 page).map fun entry => mem.ram (entry.1 + offset) := by
  obtain ⟨aligned, low⟩ := stackList_aligned page member
  have addr : (page + offset).toNat = page.toNat + offset.toNat := by
    rw [UInt64.toNat_add]
    omega
  have block : containingAddress (page + offset) = page := by
    apply UInt64.toNat_inj.mp
    rw [containingAddress_toNat, addr]
    omega
  have behind : page + offset - page = offset := by grind
  refine ⟨by omega, ?_⟩
  rw [readUser, block, behind]

/-- What can be told apart is in the stack. -/
theorem Twinned.reads_iff (twinned : Twinned cr3 start other after last) :
    (∀ addr : UInt64, addr.toNat < 2 ^ 47 → readUser after cr3 addr = readUser last cr3 addr) ↔
      ∀ page ∈ stackList, ∀ entry, after.lookup cr3 page = some entry →
        ∀ offset : UInt64, offset.toNat < 4096 → start (entry.1 + offset) = other (entry.1 + offset) := by
  have lookups (page : UInt64) : last.lookup cr3 page = after.lookup cr3 page := by
    rw [Memory.lookup, Memory.lookup, twinned.tables]
  constructor
  · intro alike page member entry present offset inside
    obtain ⟨frame, mapped, held⟩ := twinned.stack page member
    rw [mapped] at present
    cases present
    obtain ⟨low, read⟩ := readUser_stack after cr3 member inside
    have same := alike (page + offset) low
    rw [read, (readUser_stack last cr3 member inside).2, lookups, mapped] at same
    obtain ⟨ofFirst, ofSecond⟩ := held offset inside
    rw [← ofFirst, ← ofSecond]
    exact Option.some.inj same
  · intro alike addr low
    have inside : (addr - containingAddress addr).toNat < 4096 := by
      rw [sub_containingAddress]
      exact Nat.mod_lt _ (by decide)
    rw [readUser, readUser, lookups]
    cases present : after.lookup cr3 (containingAddress addr) with
    | none => rfl
    | some entry =>
      rw [Option.map_some, Option.map_some]
      congr 1
      by_cases member : containingAddress addr ∈ stackList
      · obtain ⟨frame, mapped, held⟩ := twinned.stack _ member
        rw [mapped] at present
        cases present
        obtain ⟨ofFirst, ofSecond⟩ := held _ inside
        rw [ofFirst, ofSecond]
        exact alike _ member _ mapped _ inside
      · have lowPage : (containingAddress addr).toNat < 2 ^ 47 := by
          have block := containingAddress_toNat addr
          omega
        exact twinned.others _ lowPage member entry present _ inside

/-- The frames that the stack will be in hold the same in both states. -/
def StackAlike (image : ElfImage) (currentCr3 : UInt64) (first second : Memory paging) : Prop :=
  ∀ planned entryPoint cr3, reserve image currentCr3 first = (planned, some (entryPoint, cr3)) →
    ∀ page ∈ stackList, ∀ entry, planned.lookup cr3 page = some entry →
      ∀ offset : UInt64, offset.toNat < 4096 → first.ram (entry.1 + offset) = second.ram (entry.1 + offset)

/-- For every image and every two states with the same frames free and the same tables. -/
theorem residue_iff (top : paging.TopLevel) {entryPoint : UInt64} (ready : first.allocator.Ready)
    (shadows : second.Shadows first) (ran : load image currentCr3 first = (after, some (entryPoint, cr3))) :
    ∃ last, load image currentCr3 second = (last, some (entryPoint, cr3)) ∧
      ((∀ addr : UInt64, addr.toNat < 2 ^ 47 → readUser after cr3 addr = readUser last cr3 addr) ↔
        StackAlike image currentCr3 first second) := by
  obtain ⟨loads, planned, reserved, followed⟩ :=
    (mirrors_load image currentCr3 first first ⟨rfl, rfl⟩).1 after (entryPoint, cr3) ran
  obtain ⟨last, twinRan, _⟩ :=
    (mirrors_load image currentCr3 second first shadows).2 loads planned (entryPoint, cr3) reserved
  refine ⟨last, twinRan, ?_⟩
  have lookups (page : UInt64) : planned.lookup cr3 page = after.lookup cr3 page := by
    rw [Memory.lookup, Memory.lookup, followed.2]
  rw [(twinned_of_load top ready shadows loads.header ran twinRan).reads_iff]
  constructor
  · intro alike again _ _ reservedAgain page member entry present
    rw [reserved] at reservedAgain
    cases reservedAgain
    exact alike page member entry ((lookups page).symm.trans present)
  · intro alike page member entry present
    exact alike planned entryPoint cr3 reserved page member entry ((lookups page).trans present)

def clearedMemory (cleared : Finset Nat) : Memory Paging.slots :=
  { sampleMemory with ram := fun addr => if addr.toNat / 4096 ∈ cleared then 0 else 0xFF }

/-- Two states that differ in the frame of a segment's first page. -/
theorem residue_iff_segment :
    ∃ last, load (sampleFile 0x400FFE) 0x100000 (clearedMemory {1}) = (last, some (0x400FFE, 0)) ∧
      ∀ addr : UInt64, addr.toNat < 2 ^ 47 →
        readUser (load (sampleFile 0x400FFE) 0x100000 sampleMemory).1 0 addr = readUser last 0 addr := by
  have ready : sampleMemory.allocator.Ready := ⟨by decide, by decide⟩
  have shadows : (clearedMemory {1}).Shadows sampleMemory := ⟨rfl, rfl⟩
  have loaded : (load (sampleFile 0x400FFE) 0x100000 sampleMemory).2 = some (0x400FFE, 0) := by decide +kernel
  have ran := (Prod.eta (load (sampleFile 0x400FFE) 0x100000 sampleMemory)).symm
  rw [loaded] at ran
  obtain ⟨last, twinRan, alike⟩ := residue_iff Paging.slotsTop ready shadows ran
  refine ⟨last, twinRan, alike.mpr ?_⟩
  -- the stack is in frames from the fourth on
  have frames : (stackList.all fun page => ((reserve (sampleFile 0x400FFE) 0x100000 sampleMemory).1.lookup 0 page).all
      fun entry => 4 ≤ entry.1.toNat / 4096 ∧ entry.1.toNat / 4096 < 64) = true := by decide +kernel
  have space : (reserve (sampleFile 0x400FFE) 0x100000 sampleMemory).2 = some (0x400FFE, 0) := by decide +kernel
  intro planned entryPoint cr3 reserved page member entry present offset inside
  have above := List.all_eq_true.mp frames page member
  rw [reserved] at above space
  cases space
  rw [present, Option.all_some, decide_eq_true_eq] at above
  change 0xFF = if (entry.1 + offset).toNat / 4096 ∈ ({1} : Finset Nat) then (0 : UInt8) else 0xFF
  rw [if_neg]
  rw [Finset.mem_singleton, UInt64.toNat_add]
  omega

/-- A well-formed file, and two states that differ in free frames only: the top byte of the stack is
what its frame held. -/
theorem stack_shows_residue :
    WellFormed (sampleFile 0x400FFE) ∧ (clearedMemory (Finset.range 64)).Shadows sampleMemory ∧
    (∀ addr : UInt64, addr.toNat / 4096 ∉ sampleMemory.allocator.free →
      (clearedMemory (Finset.range 64)).ram addr = sampleMemory.ram addr) ∧
    (load (sampleFile 0x400FFE) 0x100000 sampleMemory).2 = some (0x400FFE, 0) ∧
    (load (sampleFile 0x400FFE) 0x100000 (clearedMemory (Finset.range 64))).2 = some (0x400FFE, 0) ∧
    readUser (load (sampleFile 0x400FFE) 0x100000 sampleMemory).1 0 0x6FFFFFFFFFFF = some 0xFF ∧
    readUser (load (sampleFile 0x400FFE) 0x100000 (clearedMemory (Finset.range 64))).1 0 0x6FFFFFFFFFFF = some 0 := by
  refine ⟨by decide +kernel, ⟨rfl, rfl⟩, ?_, ?_, ?_, ?_, ?_⟩
  · intro addr used
    have free : sampleMemory.allocator.free = Finset.range 64 := by decide +kernel
    rw [free] at used
    exact if_neg used
  all_goals decide +kernel

end Elf

end ElseOS
