import ElseOS.Base.Bitmap
import ElseOS.Base.Transition
import ElseOS.Memory.Address

/-! The bitmap allocator of physical frames and the passes that build it at boot.

A function that panics, by an index past the bitmap or on purpose, returns `none`.
Sizes and indices are `usize` values that stay far below its range and are numbers
here; byte addresses wrap as in the release build. -/

set_option autoImplicit false

namespace ElseOS

open Base (Bitmap)

inductive EntryType where
  | usable | reserved | acpiReclaimable | acpiNvs | badMemory | bootloaderReclaimable | executableAndModules
  | framebuffer
  deriving DecidableEq, Repr

structure MemoryMapEntry where
  base : UInt64
  length : UInt64
  entryType : EntryType
  deriving DecidableEq, Repr

namespace MemoryMapEntry

def isUsable (entry : MemoryMapEntry) : Bool := entry.entryType = .usable

def isRam (entry : MemoryMapEntry) : Bool :=
  match entry.entryType with
  | .usable | .bootloaderReclaimable | .executableAndModules | .acpiReclaimable | .acpiNvs => true
  | _ => false

def frames (entry : MemoryMapEntry) : List Nat :=
  let startFrame := (entry.base / PAGE_SIZE).toNat
  let endFrame := ((entry.base + entry.length) / PAGE_SIZE).toNat
  List.range' startFrame (endFrame - startFrame)

end MemoryMapEntry

structure BitmapAllocator where
  bitmap : Option Bitmap
  totalFrames : Nat
  freeFrames : UInt64
  lastAllocIdx : Nat
  bitmapPhysAddr : UInt64
  deriving DecidableEq, Repr

namespace BitmapAllocator

def new : BitmapAllocator := ⟨none, 0, 0, 0, 0⟩

def setBit (allocator : BitmapAllocator) (frameIdx : Nat) (used : Bool) : Option BitmapAllocator :=
  match allocator.bitmap with
  | some bitmap => (bitmap.setBit frameIdx used).map fun bitmap => { allocator with bitmap := some bitmap }
  | none => some allocator

def getBit (allocator : BitmapAllocator) (frameIdx : Nat) : Option Bool :=
  match allocator.bitmap with
  | some bitmap => bitmap.getBit frameIdx
  | none => some true

/-- The loop of `allocate_frame` over the `count` frames from `lastAllocIdx + i` on. -/
def allocateFrom (allocator : BitmapAllocator) : (count i : Nat) → Option (BitmapAllocator × Option UInt64)
  | 0, _ => some (allocator, none)
  | count + 1, i =>
    let idx := (allocator.lastAllocIdx + i) % allocator.totalFrames
    (allocator.getBit idx).bind fun used =>
      if used then allocator.allocateFrom count (i + 1)
      else (allocator.setBit idx true).bind fun marked =>
        (PhysAddr.new (UInt64.ofNat idx * PAGE_SIZE)).map fun physAddr =>
          ({ marked with freeFrames := marked.freeFrames - 1, lastAllocIdx := idx + 1 },
            some (containingAddress physAddr))

def allocateFrame (allocator : BitmapAllocator) : Option (BitmapAllocator × Option UInt64) :=
  if allocator.freeFrames = 0 ∨ allocator.bitmap = none then some (allocator, none)
  else allocator.allocateFrom allocator.totalFrames 0

def deallocateFrame (allocator : BitmapAllocator) (frame : UInt64) : Option BitmapAllocator :=
  let idx := (frame / PAGE_SIZE).toNat
  if idx < allocator.totalFrames then
    (allocator.getBit idx).bind fun used =>
      if used then
        (allocator.setBit idx false).map fun cleared => { cleared with freeFrames := cleared.freeFrames + 1 }
      else some allocator
  else some allocator

/-! ## Passes over the memory map -/

def maxPhysAddr (entries : List MemoryMapEntry) : UInt64 :=
  entries.foldl (fun most entry => if entry.isRam && most < entry.base + entry.length then entry.base + entry.length
    else most) 0

/-- Where the bitmap is kept; 0 when no usable entry is long enough. -/
def bitmapRegion (entries : List MemoryMapEntry) (size : Nat) : UInt64 :=
  match entries.find? fun entry => entry.isUsable && size ≤ entry.length.toNat with
  | some entry => entry.base
  | none => 0

def unmarkFrames (allocator : BitmapAllocator) : List Nat → Option BitmapAllocator
  | [] => some allocator
  | i :: rest => (allocator.setBit i false).bind fun cleared =>
      unmarkFrames { cleared with freeFrames := cleared.freeFrames + 1 } rest

def unmarkUsable (allocator : BitmapAllocator) : List MemoryMapEntry → Option BitmapAllocator
  | [] => some allocator
  | entry :: rest =>
    if entry.isUsable then (allocator.unmarkFrames entry.frames).bind fun cleared => cleared.unmarkUsable rest
    else allocator.unmarkUsable rest

def reserveFree (allocator : BitmapAllocator) : List Nat → Option BitmapAllocator
  | [] => some allocator
  | i :: rest => (allocator.getBit i).bind fun used =>
      if used then allocator.reserveFree rest
      else (allocator.setBit i true).bind fun marked =>
        reserveFree { marked with freeFrames := marked.freeFrames - 1 } rest

def dmaPages : Nat := 16

def searchDma (allocator : BitmapAllocator) : (count i runStart currentRun : Nat) → Option Nat
  | 0, _, _, _ => some 0
  | count + 1, i, runStart, currentRun =>
    (allocator.getBit i).bind fun used =>
      if used then allocator.searchDma count (i + 1) runStart 0
      else
        let runStart := if currentRun = 0 then i else runStart
        if currentRun + 1 = dmaPages then some runStart
        else allocator.searchDma count (i + 1) runStart (currentRun + 1)

def markFrames (allocator : BitmapAllocator) : List Nat → Option BitmapAllocator
  | [] => some allocator
  | i :: rest => (allocator.setBit i true).bind fun marked =>
      markFrames { marked with freeFrames := marked.freeFrames - 1 } rest

def bitmapFrames (bitmapPhysAddr : UInt64) (size : Nat) : List Nat :=
  let startFrame := (bitmapPhysAddr / PAGE_SIZE).toNat
  let endFrame := ((bitmapPhysAddr + UInt64.ofNat size + PAGE_SIZE - 1) / PAGE_SIZE).toNat
  List.range' startFrame (endFrame - startFrame)

/-- `init`: the allocator and `DMA_POOL_PHYS`. -/
def init (entries : List MemoryMapEntry) : Option (BitmapAllocator × UInt64) :=
  let totalFrames := (maxPhysAddr entries / PAGE_SIZE).toNat
  let bitmapSizeBytes := (totalFrames + 7) / 8
  let bitmapPhysAddr := bitmapRegion entries bitmapSizeBytes
  if bitmapPhysAddr = 0 then none
  else
    let full : BitmapAllocator := {
      bitmap := some (List.replicate bitmapSizeBytes 0xFF)
      totalFrames := totalFrames
      freeFrames := 0
      lastAllocIdx := 0
      bitmapPhysAddr := bitmapPhysAddr }
    (full.unmarkUsable entries).bind fun freed =>
      (freed.reserveFree (bitmapFrames bitmapPhysAddr bitmapSizeBytes)).bind fun reserved =>
        (reserved.searchDma reserved.totalFrames 0 0 0).bind fun dmaStartFrame =>
          if dmaStartFrame = 0 then none
          else (reserved.markFrames (List.range' dmaStartFrame dmaPages)).map fun ready =>
            (ready, UInt64.ofNat dmaStartFrame * PAGE_SIZE)

end BitmapAllocator

end ElseOS
