import ElseOS.Memory.Supply

/-! The part of `spawn_from_elf` that works on memory: a fresh address space, the
loadable segments of the image and the user stack.

Fields are read through raw pointers, so the loader can read past the slice it was
given; a read that the processor rejects stops the kernel. -/

set_option autoImplicit false

namespace ElseOS

open Base (Action)
open Base.Action (expect require)

/-- A slice of kernel memory: the byte at each offset from its start, where one is mapped. -/
structure ElfImage where
  len : Nat
  byte : UInt64 → Option UInt8
  readable : ∀ offset, offset.toNat < len → (byte offset).isSome = true

namespace ElfImage

def read (image : ElfImage) (offset : UInt64) : Nat → Option Nat
  | 0 => some 0
  | size + 1 => (image.byte offset).bind fun low =>
      (image.read (offset + 1) size).map fun high => low.toNat + 256 * high

def readU64 (image : ElfImage) (offset : UInt64) : Option UInt64 := (image.read offset 8).map UInt64.ofNat

end ElfImage

namespace Elf

def ehdrSize : Nat := 64
def eEntry : UInt64 := 24
def ePhoff : UInt64 := 32
def ePhnum : UInt64 := 56

def phdrSize : UInt64 := 56
def pOffset : UInt64 := 8
def pVaddr : UInt64 := 16
def pFilesz : UInt64 := 32
def pMemsz : UInt64 := 40

def ELFMAG : Nat := 0x464C457F
def PT_LOAD : Nat := 1

structure Segment where
  vaddr : UInt64
  memsz : UInt64
  offset : UInt64
  filesz : UInt64
  deriving DecidableEq, Repr

variable {paging : Paging}

def userFlags : PageFlags := ⟨true, true, false, false⟩

def copyPage (image : ElfImage) (segment : Segment) (page frame : UInt64) : Action (Memory paging) Unit :=
  let copyStart := max page segment.vaddr
  let copyEnd := min (page + PAGE_SIZE) (segment.vaddr + segment.filesz)
  if copyStart < copyEnd then do
    let copyLen := copyEnd - copyStart
    let source := segment.offset + (copyStart - segment.vaddr)
    require ((List.range copyLen.toNat).all fun i => (image.byte (source + UInt64.ofNat i)).isSome)
    Action.modify fun mem => { mem with
      ram := mem.ram.copy (frame + (copyStart - page)) copyLen fun i => (image.byte (source + i)).getD 0 }
  else pure ()

def loadPage (image : ElfImage) (segment : Segment) (cr3 page : UInt64) : Action (Memory paging) Unit := do
  let frame ← Memory.expectFrame
  Memory.expectMapTo cr3 page frame userFlags
  Memory.zeroFrame frame
  copyPage image segment page frame

def loadSegment (image : ElfImage) (cr3 phdrOffset : UInt64) : Action (Memory paging) Unit := do
  let pType ← expect (image.read phdrOffset 4)
  if pType = PT_LOAD then
    let vaddr ← expect (image.readU64 (phdrOffset + pVaddr))
    let memsz ← expect (image.readU64 (phdrOffset + pMemsz))
    let offset ← expect (image.readU64 (phdrOffset + pOffset))
    let filesz ← expect (image.readU64 (phdrOffset + pFilesz))
    Memory.forAddresses vaddr (vaddr + memsz - 1)
      (fun page _ => loadPage image ⟨vaddr, memsz, offset, filesz⟩ cr3 page) ()
  else pure ()

/-- One page of the stack, counted from the top; it is not zeroed. -/
def mapStackPage (cr3 : UInt64) (i : Nat) : Action (Memory paging) Unit := do
  let addr ← expect (VirtAddr.new (userStackTop - (UInt64.ofNat i + 1) * PAGE_SIZE))
  let frame ← Memory.expectFrame
  Memory.expectMapTo cr3 (containingAddress addr) frame userFlags

/-- The loops of `spawn_from_elf` over the program headers and over the stack pages, and the entry point. -/
def fillSpace (image : ElfImage) (cr3 : UInt64) : Action (Memory paging) (UInt64 × UInt64) := do
  let phoff ← expect (image.readU64 ePhoff)
  let phnum ← expect (image.read ePhnum 2)
  Action.forRange (fun i => loadSegment image cr3 (phoff + UInt64.ofNat i * phdrSize)) phnum 0
  Action.forRange (mapStackPage cr3) 4 0
  let entryPoint ← expect (image.readU64 eEntry)
  pure (entryPoint, cr3)

/-- `spawn_from_elf` up to the new thread: the entry point and the new address space. -/
def load (image : ElfImage) (currentCr3 : UInt64) : Action (Memory paging) (UInt64 × UInt64) := do
  require (ehdrSize ≤ image.len)
  require (image.read 0 4 = some ELFMAG)
  let cr3 ← Memory.expectFrame
  Memory.newTable cr3 currentCr3
  fillSpace image cr3

section Keeps

variable {relation : Memory paging → Memory paging → Prop} [Std.Refl relation] [IsTrans (Memory paging) relation]
  {image : ElfImage} {cr3 : UInt64}

theorem keeps_copyPage (stores : ∀ change : Memory paging → Ram,
      Action.Keeps relation (Action.modify fun mem => { mem with ram := change mem }))
    (segment : Segment) (page frame : UInt64) : Action.Keeps relation (@copyPage paging image segment page frame) := by
  unfold copyPage
  dsimp only
  split
  · exact (Action.keeps_require _).bind fun _ => stores _
  · exact Action.keeps_pure ()

theorem keeps_loadSegment (once : ∀ segment page, Action.Keeps relation (@loadPage paging image segment cr3 page))
    (phdrOffset : UInt64) : Action.Keeps relation (@loadSegment paging image cr3 phdrOffset) := by
  refine (Action.keeps_expect _).bind fun pType => ?_
  split
  · refine (Action.keeps_expect _).bind fun vaddr => ?_
    refine (Action.keeps_expect _).bind fun memsz => ?_
    refine (Action.keeps_expect _).bind fun offset => ?_
    refine (Action.keeps_expect _).bind fun filesz => ?_
    exact Memory.keeps_forAddresses (fun page _ => once _ page) _ _ _
  · exact Action.keeps_pure ()

/-- The loops of the loader keep what one page of a segment and one page of the stack keep. -/
theorem keeps_fillSpace (segments : ∀ segment page, Action.Keeps relation (@loadPage paging image segment cr3 page))
    (stack : ∀ i, Action.Keeps relation (@mapStackPage paging cr3 i)) :
    Action.Keeps relation (@fillSpace paging image cr3) := by
  refine (Action.keeps_expect _).bind fun phoff => (Action.keeps_expect _).bind fun phnum => ?_
  refine (Action.keeps_forRange (fun i => keeps_loadSegment segments _) phnum 0).bind fun _ => ?_
  refine (Action.keeps_forRange stack 4 0).bind fun _ => ?_
  exact (Action.keeps_expect _).bind fun entryPoint => Action.keeps_pure _

end Keeps

/-! ## The loader only takes frames -/

theorem takes_loadPage (image : ElfImage) (segment : Segment) (cr3 page : UInt64) :
    Action.Keeps Memory.Takes (@loadPage paging image segment cr3 page) := by
  refine Memory.takes_expectFrame.bind fun frame => ?_
  refine (Memory.takes_expectMapTo cr3 page frame userFlags).bind fun _ => ?_
  refine (Memory.takes_zeroFrame frame).bind fun _ => ?_
  exact keeps_copyPage (fun _ => Memory.takes_modify fun _ => rfl) segment page frame

theorem takes_mapStackPage (cr3 : UInt64) (i : Nat) : Action.Keeps Memory.Takes (@mapStackPage paging cr3 i) := by
  refine (Action.keeps_expect _).bind fun addr => Memory.takes_expectFrame.bind fun frame => ?_
  exact Memory.takes_expectMapTo cr3 _ frame userFlags

theorem takes_load (image : ElfImage) (currentCr3 : UInt64) :
    Action.Keeps Memory.Takes (@load paging image currentCr3) := by
  refine (Action.keeps_require _).bind fun _ => (Action.keeps_require _).bind fun _ => ?_
  refine Memory.takes_expectFrame.bind fun cr3 => (Memory.takes_newTable cr3 currentCr3).bind fun _ => ?_
  exact keeps_fillSpace (fun segment page => takes_loadPage image segment cr3 page) (takes_mapStackPage cr3)

/-! ## The loader takes nothing from other address spaces -/

theorem grows_loadPage (lawful : paging.Lawful) (image : ElfImage) (segment : Segment) (cr3 page : UInt64) :
    Action.Keeps Memory.Grows (@loadPage paging image segment cr3 page) := by
  refine Memory.grows_expectFrame.bind fun frame => ?_
  refine (Memory.grows_expectMapTo lawful cr3 page frame userFlags).bind fun _ => ?_
  refine (Memory.grows_zeroFrame frame).bind fun _ => ?_
  exact keeps_copyPage (fun _ => Memory.grows_modify (fun _ => rfl) fun _ => rfl) segment page frame

theorem grows_mapStackPage (lawful : paging.Lawful) (cr3 : UInt64) (i : Nat) :
    Action.Keeps Memory.Grows (@mapStackPage paging cr3 i) := by
  refine (Action.keeps_expect _).bind fun addr => Memory.grows_expectFrame.bind fun frame => ?_
  exact Memory.grows_expectMapTo lawful cr3 _ frame userFlags

theorem grows_fillSpace (lawful : paging.Lawful) (image : ElfImage) (cr3 : UInt64) :
    Action.Keeps Memory.Grows (@fillSpace paging image cr3) :=
  keeps_fillSpace (fun segment page => grows_loadPage lawful image segment cr3 page) (grows_mapStackPage lawful cr3)

theorem grows_load (lawful : paging.Lawful) (image : ElfImage) (currentCr3 : UInt64) :
    Action.Keeps Memory.Grows (@load paging image currentCr3) := by
  rw [load]
  refine (Action.keeps_require _).bind fun _ => (Action.keeps_require _).bind fun _ => ?_
  exact Memory.grows_inNewSpace lawful (grows_fillSpace lawful image) currentCr3

theorem fillSpace_cr3 {image : ElfImage} {cr3 entryPoint table : UInt64} {mem after : Memory paging}
    (filled : fillSpace image cr3 mem = (after, some (entryPoint, table))) : table = cr3 := by
  obtain ⟨_, _, _, filled⟩ := Action.bind_eq_some filled
  obtain ⟨_, _, _, filled⟩ := Action.bind_eq_some filled
  obtain ⟨_, _, _, filled⟩ := Action.bind_eq_some filled
  obtain ⟨_, _, _, filled⟩ := Action.bind_eq_some filled
  obtain ⟨_, _, _, filled⟩ := Action.bind_eq_some filled
  cases filled
  rfl

/-- A load that succeeds allocated the new table and then filled its address space. -/
theorem load_spec {image : ElfImage} {currentCr3 entryPoint cr3 : UInt64} {mem after : Memory paging}
    (loaded : load image currentCr3 mem = (after, some (entryPoint, cr3))) :
    ∃ middle, Memory.expectFrame mem = (middle, some cr3) ∧
      fillSpace image cr3 (Memory.newTable cr3 currentCr3 middle).1 = (after, some (entryPoint, cr3)) := by
  rw [load] at loaded
  obtain ⟨_, _, sized, checked⟩ := Action.bind_eq_some loaded
  obtain ⟨_, rfl⟩ := Action.require_eq_some sized
  obtain ⟨_, _, magic, started⟩ := Action.bind_eq_some checked
  obtain ⟨_, rfl⟩ := Action.require_eq_some magic
  obtain ⟨middle, frame, allocated, filled⟩ := Action.bind_eq_some started
  have filled : fillSpace image frame (Memory.newTable frame currentCr3 middle).1 = (after, some (entryPoint, cr3)) :=
    filled
  obtain rfl := fillSpace_cr3 filled
  exact ⟨middle, allocated, filled⟩

theorem inUse_load (lawful : paging.Lawful) {image : ElfImage} {currentCr3 entryPoint cr3 : UInt64}
    {mem after : Memory paging} (ready : mem.allocator.Ready)
    (loaded : load image currentCr3 mem = (after, some (entryPoint, cr3))) : after.allocator.InUse cr3 := by
  obtain ⟨middle, allocated, filled⟩ := load_spec loaded
  obtain ⟨grown, used⟩ := Memory.grows_newSpace lawful currentCr3 allocated
  have kept := grows_fillSpace lawful image cr3 (Memory.newTable cr3 currentCr3 middle).1 (grown ready).1
  rw [filled] at kept
  exact (kept.2 cr3 (used ready)).1

end Elf

end ElseOS
