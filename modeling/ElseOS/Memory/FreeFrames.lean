import ElseOS.Memory.Supply

/-! The bitmap allocator is a finite set of frames.

The set is that of the clear bits below `totalFrames`. The passes of `init` and both
operations keep the counter equal to its size, so the shortcut at zero is right in every
history, and the search behind the cursor meets a clear bit whenever the counter is not
zero. -/

set_option autoImplicit false

namespace ElseOS

/-- A `PhysFrame` of the paging library: its address passed `PhysAddr::new`. -/
structure PhysFrame where
  start : UInt64
  small : start.toNat < 2 ^ 52
  aligned : start.toNat % 4096 = 0

def PhysFrame.number (frame : PhysFrame) : Nat := (frame.start / PAGE_SIZE).toNat

theorem PhysFrame.number_lt (frame : PhysFrame) : frame.number < 2 ^ 40 := by
  have small := frame.small
  rw [number, UInt64.toNat_div, PAGE_SIZE_toNat]
  omega

namespace BitmapAllocator

inductive FrameCall where
  | allocate
  | deallocate (frame : PhysFrame)

def call (allocator : BitmapAllocator) : FrameCall → Option BitmapAllocator
  | .allocate => allocator.allocateFrame.map Prod.fst
  | .deallocate frame => allocator.deallocateFrame frame.start

/-- Usable entries are page-aligned and apart, and lie in the physical address space. -/
structure UsableMap (entries : List MemoryMapEntry) : Prop where
  aligned : ∀ entry ∈ entries, entry.isUsable = true → entry.base.toNat % 4096 = 0 ∧ entry.length.toNat % 4096 = 0
  disjoint : entries.Pairwise fun first second => first.isUsable = true → second.isUsable = true →
    first.base.toNat + first.length.toNat ≤ second.base.toNat ∨
      second.base.toNat + second.length.toNat ≤ first.base.toNat
  physical : ∀ entry ∈ entries, entry.isUsable = true → entry.base.toNat + entry.length.toNat ≤ 2 ^ 52

/-! ## The counter -/

/-- There is a bit for every frame, the counter is the number of clear ones, and each of
them stands for a frame with an address. -/
structure Exact (allocator : BitmapAllocator) : Prop where
  present : allocator.bitmap.isSome = true
  readable : ∀ idx < allocator.totalFrames, (allocator.getBit idx).isSome = true
  counted : allocator.freeFrames.toNat = allocator.free.card
  addressed : ∀ idx ∈ allocator.free, idx < 2 ^ 40

variable {allocator after : BitmapAllocator} {idx : Nat}

theorem Rewrites.free_insert (rewrites : Rewrites allocator after (· = idx) false)
    (inside : idx < allocator.totalFrames) :
    after.free = insert idx allocator.free := by
  ext other
  rw [Finset.mem_insert, mem_free, mem_free, rewrites.total]
  by_cases here : other = idx
  · subst here
    simp [rewrites.inside rfl, inside]
  · simp [here, rewrites.outside here]

theorem Rewrites.readable {touched : Nat → Prop} {value : Bool} (rewrites : Rewrites allocator after touched value)
    (readable : ∀ idx < allocator.totalFrames, (allocator.getBit idx).isSome = true) (idx : Nat)
    (inside : idx < after.totalFrames) : (after.getBit idx).isSome = true := by
  by_cases here : touched idx
  · rw [rewrites.inside here]
    rfl
  · rw [rewrites.outside here]
    exact readable idx (rewrites.total ▸ inside)

theorem Exact.card_le (exact : allocator.Exact) : allocator.free.card ≤ 2 ^ 40 := by
  have below : allocator.free ⊆ Finset.range (2 ^ 40) :=
    fun idx isFree => Finset.mem_range.mpr (exact.addressed idx isFree)
  have card := Finset.card_le_card below
  rw [Finset.card_range] at card
  exact card

theorem Exact.clear (exact : allocator.Exact) (inside : idx < allocator.totalFrames) (used : idx ∉ allocator.free)
    (small : idx < 2 ^ 40) :
    ∃ cleared, allocator.setBit idx false = some cleared ∧
      let after := { cleared with freeFrames := cleared.freeFrames + 1 }
      Rewrites allocator after (· = idx) false ∧ after.Exact ∧ after.free = insert idx allocator.free := by
  obtain ⟨bit, read⟩ := Option.isSome_iff_exists.mp (exact.readable idx inside)
  obtain ⟨cleared, written, counter⟩ := setBit_of_getBit read exact.present false
  have rewrites := (rewrites_setBit exact.present written).count (cleared.freeFrames + 1)
  have free := rewrites.free_insert inside
  refine ⟨cleared, written, rewrites, ⟨rewrites.present, rewrites.readable exact.readable, ?_, ?_⟩, free⟩
  · have bound := exact.card_le
    rw [free, Finset.card_insert_of_notMem used, ← exact.counted]
    rw [← exact.counted] at bound
    dsimp only
    rw [counter, UInt64.toNat_add]
    show (allocator.freeFrames.toNat + 1) % 2 ^ 64 = _
    omega
  · intro other isFree
    rw [free, Finset.mem_insert] at isFree
    rcases isFree with rfl | before
    · exact small
    · exact exact.addressed other before

theorem Exact.mark (exact : allocator.Exact) (isFree : idx ∈ allocator.free) (lastAllocIdx : Nat) :
    ∃ marked, allocator.setBit idx true = some marked ∧
      let after := { marked with freeFrames := marked.freeFrames - 1, lastAllocIdx := lastAllocIdx }
      Rewrites allocator after (· = idx) true ∧ after.Exact ∧ after.free = allocator.free.erase idx ∧
      after.freeFrames.toNat + 1 = allocator.freeFrames.toNat := by
  obtain ⟨marked, written, counter⟩ := setBit_of_getBit (mem_free.mp isFree).2 exact.present true
  have rewrites := (rewrites_setBit exact.present written).moved (marked.freeFrames - 1) lastAllocIdx
  have free := rewrites.free
  have positive : 1 ≤ allocator.freeFrames.toNat := exact.counted ▸ Finset.card_pos.mpr ⟨idx, isFree⟩
  have less : (marked.freeFrames - 1).toNat = allocator.freeFrames.toNat - 1 := by
    have atLeast : 1 ≤ allocator.freeFrames := UInt64.le_iff_toNat_le.mpr positive
    rw [counter, UInt64.toNat_sub_of_le _ _ atLeast]
    rfl
  refine ⟨marked, written, rewrites, ⟨rewrites.present, rewrites.readable exact.readable, ?_, ?_⟩, free, ?_⟩
  · rw [free, Finset.card_erase_of_mem isFree, ← exact.counted]
    exact less
  · intro other stillFree
    rw [free] at stillFree
    exact exact.addressed other (Finset.mem_of_mem_erase stillFree)
  · dsimp only
    omega

/-! ## The operations -/

structure Refines (allocator : BitmapAllocator) : Prop where
  counted : allocator.freeFrames.toNat = allocator.free.card
  allocates : allocator.free.Nonempty → ∃ after idx, allocator.NextFree idx ∧
    allocator.allocateFrame = some (after, some (frameAddress idx)) ∧ after.free = allocator.free.erase idx ∧
    Rewrites allocator after (· = idx) true ∧ after.lastAllocIdx = idx + 1 ∧
    after.freeFrames.toNat + 1 = allocator.freeFrames.toNat
  exhausted : allocator.free = ∅ → allocator.allocateFrame = some (allocator, none)
  deallocates : ∀ frame : PhysFrame, frame.number < allocator.totalFrames → frame.number ∉ allocator.free →
    ∃ after, allocator.deallocateFrame frame.start = some after ∧ after.free = insert frame.number allocator.free ∧
      Rewrites allocator after (· = frame.number) false ∧ after.lastAllocIdx = allocator.lastAllocIdx ∧
      after.freeFrames.toNat = allocator.freeFrames.toNat + 1
  ignores : ∀ frame : PhysFrame, frame.number ∈ allocator.free ∨ allocator.totalFrames ≤ frame.number →
    allocator.deallocateFrame frame.start = some allocator

theorem deallocateFrame_eq (allocator : BitmapAllocator) (frame : PhysFrame) :
    allocator.deallocateFrame frame.start =
      if frame.number < allocator.totalFrames then
        (allocator.getBit frame.number).bind fun used =>
          if used then (allocator.setBit frame.number false).map fun cleared =>
            { cleared with freeFrames := cleared.freeFrames + 1 }
          else some allocator
      else some allocator := rfl

theorem setBit_cursor {value : Bool} (written : allocator.setBit idx value = some after) :
    after.lastAllocIdx = allocator.lastAllocIdx := by
  unfold setBit at written
  split at written
  · obtain ⟨bitmap, _, rfl⟩ := Option.map_eq_some_iff.mp written
    rfl
  · cases written
    rfl

theorem Exact.allocates (exact : allocator.Exact) (nonempty : allocator.free.Nonempty) :
    ∃ after idx, allocator.NextFree idx ∧ allocator.allocateFrame = some (after, some (frameAddress idx)) ∧
      after.Exact ∧ after.free = allocator.free.erase idx ∧ Rewrites allocator after (· = idx) true ∧
      after.lastAllocIdx = idx + 1 ∧ after.freeFrames.toNat + 1 = allocator.freeFrames.toNat := by
  obtain ⟨idx, next⟩ := exists_nextFree nonempty
  have nonzero : allocator.freeFrames ≠ 0 := by
    intro zero
    have counted := exact.counted
    rw [zero] at counted
    exact absurd counted.symm (Finset.card_ne_zero.mpr nonempty)
  obtain ⟨marked, written, _, called⟩ :=
    allocateFrame_first exact.present exact.readable nonzero next (exact.addressed idx next.isFree)
  obtain ⟨again, same, rewrites, stillExact, free, less⟩ := exact.mark next.isFree (idx + 1)
  obtain rfl := Option.some.inj (written.symm.trans same)
  exact ⟨_, idx, next, called, stillExact, free, rewrites, rfl, less⟩

theorem Exact.exhausted (exact : allocator.Exact) (empty : allocator.free = ∅) :
    allocator.allocateFrame = some (allocator, none) := by
  have zero : allocator.freeFrames = 0 := by
    apply UInt64.toNat_inj.mp
    rw [exact.counted, empty]
    rfl
  rw [allocateFrame, if_pos (.inl zero)]

theorem Exact.deallocates (exact : allocator.Exact) {frame : PhysFrame} (inside : frame.number < allocator.totalFrames)
    (used : frame.number ∉ allocator.free) :
    ∃ after, allocator.deallocateFrame frame.start = some after ∧ after.Exact ∧
      after.free = insert frame.number allocator.free ∧ Rewrites allocator after (· = frame.number) false ∧
      after.lastAllocIdx = allocator.lastAllocIdx ∧ after.freeFrames.toNat = allocator.freeFrames.toNat + 1 := by
  obtain ⟨cleared, written, rewrites, stillExact, free⟩ := exact.clear inside used frame.number_lt
  have isUsed : allocator.getBit frame.number = some true := by
    obtain ⟨bit, read⟩ := Option.isSome_iff_exists.mp (exact.readable _ inside)
    cases bit with
    | true => exact read
    | false => exact absurd (mem_free.mpr ⟨inside, read⟩) used
  have cursor : cleared.lastAllocIdx = allocator.lastAllocIdx := setBit_cursor written
  refine ⟨_, ?_, stillExact, free, rewrites, cursor, ?_⟩
  · rw [deallocateFrame_eq, if_pos inside, isUsed, Option.bind_some, if_pos rfl, written, Option.map_some]
  · rw [stillExact.counted, free, Finset.card_insert_of_notMem used, exact.counted]

theorem ignored {frame : PhysFrame} (idle : frame.number ∈ allocator.free ∨ allocator.totalFrames ≤ frame.number) :
    allocator.deallocateFrame frame.start = some allocator := by
  rw [deallocateFrame_eq]
  rcases idle with isFree | outside
  · obtain ⟨inside, clear⟩ := mem_free.mp isFree
    rw [if_pos inside, clear, Option.bind_some, if_neg Bool.false_ne_true]
  · rw [if_neg (Nat.not_lt.mpr outside)]

theorem Exact.refines (exact : allocator.Exact) : allocator.Refines where
  counted := exact.counted
  allocates := by
    intro nonempty
    obtain ⟨after, idx, next, called, _, free, rewrites, cursor, less⟩ := exact.allocates nonempty
    exact ⟨after, idx, next, called, free, rewrites, cursor, less⟩
  exhausted := exact.exhausted
  deallocates := by
    intro frame inside used
    obtain ⟨after, called, _, effect⟩ := exact.deallocates inside used
    exact ⟨after, called, effect⟩
  ignores := fun _ idle => ignored idle

theorem Exact.call (exact : allocator.Exact) {request : FrameCall} (taken : allocator.call request = some after) :
    after.Exact := by
  cases request with
  | allocate =>
    change allocator.allocateFrame.map Prod.fst = some after at taken
    rcases allocator.free.eq_empty_or_nonempty with empty | nonempty
    · rw [exact.exhausted empty] at taken
      cases taken
      exact exact
    · obtain ⟨_, _, _, called, stillExact, _⟩ := exact.allocates nonempty
      rw [called] at taken
      cases taken
      exact stillExact
  | deallocate frame =>
    change allocator.deallocateFrame frame.start = some after at taken
    by_cases idle : frame.number ∈ allocator.free ∨ allocator.totalFrames ≤ frame.number
    · rw [ignored idle] at taken
      cases taken
      exact exact
    · rw [not_or, Nat.not_le] at idle
      obtain ⟨_, called, stillExact, _⟩ := exact.deallocates idle.2 idle.1
      rw [called] at taken
      cases taken
      exact stillExact

/-! ## The passes of `init` -/

theorem Exact.unmarkFrames {frames : List Nat} (exact : allocator.Exact) (distinct : frames.Nodup)
    (fresh : ∀ idx ∈ frames, idx < allocator.totalFrames ∧ idx < 2 ^ 40 ∧ idx ∉ allocator.free) :
    ∃ after, allocator.unmarkFrames frames = some after ∧ after.Exact ∧ after.totalFrames = allocator.totalFrames ∧
      ∀ idx, idx ∈ after.free ↔ idx ∈ allocator.free ∨ idx ∈ frames := by
  induction frames generalizing allocator with
  | nil => exact ⟨allocator, rfl, exact, rfl, by simp⟩
  | cons idx rest ih =>
    obtain ⟨notInRest, distinctRest⟩ := List.nodup_cons.mp distinct
    obtain ⟨inside, small, used⟩ := fresh idx List.mem_cons_self
    obtain ⟨cleared, written, rewrites, stillExact, free⟩ := exact.clear inside used small
    obtain ⟨after, continued, lastExact, total, lastFree⟩ := ih stillExact distinctRest (by
      intro other member
      obtain ⟨otherInside, otherSmall, otherUsed⟩ := fresh other (List.mem_cons_of_mem _ member)
      refine ⟨rewrites.total ▸ otherInside, otherSmall, ?_⟩
      rw [free, Finset.mem_insert, not_or]
      exact ⟨fun same => notInRest (same ▸ member), otherUsed⟩)
    refine ⟨after, ?_, lastExact, total.trans rewrites.total, ?_⟩
    · rw [BitmapAllocator.unmarkFrames, written, Option.bind_some]
      exact continued
    · intro other
      rw [lastFree, free, Finset.mem_insert, List.mem_cons]
      tauto

theorem Exact.unmarkUsable {entries : List MemoryMapEntry} (exact : allocator.Exact)
    (apart : entries.Pairwise fun first second => first.isUsable = true → second.isUsable = true →
      ∀ idx ∈ first.frames, idx ∉ second.frames)
    (fresh : ∀ entry ∈ entries, entry.isUsable = true → ∀ idx ∈ entry.frames,
      idx < allocator.totalFrames ∧ idx < 2 ^ 40 ∧ idx ∉ allocator.free) :
    ∃ after, allocator.unmarkUsable entries = some after ∧ after.Exact ∧ after.totalFrames = allocator.totalFrames := by
  induction entries generalizing allocator with
  | nil => exact ⟨allocator, rfl, exact, rfl⟩
  | cons entry rest ih =>
    obtain ⟨apartHere, apartRest⟩ := List.pairwise_cons.mp apart
    rw [BitmapAllocator.unmarkUsable]
    split
    next usable =>
      have distinct : entry.frames.Nodup := List.nodup_range'
      obtain ⟨cleared, first, stillExact, total, free⟩ :=
        exact.unmarkFrames distinct (fresh entry List.mem_cons_self usable)
      obtain ⟨after, continued, lastExact, lastTotal⟩ := ih stillExact apartRest (by
        intro other member otherUsable idx inOther
        obtain ⟨inside, small, used⟩ := fresh other (List.mem_cons_of_mem _ member) otherUsable idx inOther
        refine ⟨total ▸ inside, small, ?_⟩
        rw [free, not_or]
        exact ⟨used, fun inEntry => apartHere other member usable otherUsable idx inEntry inOther⟩)
      exact ⟨after, by rw [first, Option.bind_some, continued], lastExact, lastTotal.trans total⟩
    next => exact ih exact apartRest fun other member => fresh other (List.mem_cons_of_mem _ member)

theorem Exact.reserveFree (exact : allocator.Exact) (frames : List Nat)
    (inside : ∀ idx ∈ frames, idx < allocator.totalFrames) :
    ∃ after, allocator.reserveFree frames = some after ∧ after.Exact ∧ after.totalFrames = allocator.totalFrames := by
  induction frames generalizing allocator with
  | nil => exact ⟨allocator, rfl, exact, rfl⟩
  | cons idx rest ih =>
    have here := inside idx List.mem_cons_self
    have behind := fun other member => inside other (List.mem_cons_of_mem idx member)
    obtain ⟨used, read⟩ := Option.isSome_iff_exists.mp (exact.readable idx here)
    rw [BitmapAllocator.reserveFree, read, Option.bind_some]
    cases used with
    | true => exact ih exact behind
    | false =>
      obtain ⟨marked, written, rewrites, stillExact, _⟩ := exact.mark (mem_free.mpr ⟨here, read⟩) allocator.lastAllocIdx
      have cursor := setBit_cursor written
      rw [← cursor] at rewrites stillExact
      obtain ⟨after, continued, lastExact, total⟩ :=
        ih stillExact fun other member => rewrites.total ▸ behind other member
      refine ⟨after, ?_, lastExact, total.trans rewrites.total⟩
      rw [if_neg Bool.false_ne_true, written, Option.bind_some]
      exact continued

theorem Exact.markFrames {frames : List Nat} (exact : allocator.Exact) (distinct : frames.Nodup)
    (free : ∀ idx ∈ frames, idx ∈ allocator.free) :
    ∃ after, allocator.markFrames frames = some after ∧ after.Exact := by
  induction frames generalizing allocator with
  | nil => exact ⟨allocator, rfl, exact⟩
  | cons idx rest ih =>
    obtain ⟨notInRest, distinctRest⟩ := List.nodup_cons.mp distinct
    obtain ⟨marked, written, _, stillExact, left, _⟩ := exact.mark (free idx List.mem_cons_self) allocator.lastAllocIdx
    have cursor := setBit_cursor written
    rw [← cursor] at stillExact left
    obtain ⟨after, continued, lastExact⟩ := ih stillExact distinctRest (by
      intro other member
      rw [left, Finset.mem_erase]
      exact ⟨fun same => notInRest (same ▸ member), free other (List.mem_cons_of_mem _ member)⟩)
    refine ⟨after, ?_, lastExact⟩
    rw [BitmapAllocator.markFrames, written, Option.bind_some]
    exact continued

def full (entries : List MemoryMapEntry) : BitmapAllocator :=
  let totalFrames := (maxPhysAddr entries / PAGE_SIZE).toNat
  let bitmapSizeBytes := (totalFrames + 7) / 8
  ⟨some (List.replicate bitmapSizeBytes 0xFF), totalFrames, 0, 0, bitmapRegion entries bitmapSizeBytes⟩

theorem full_used (entries : List MemoryMapEntry) (inside : idx < (full entries).totalFrames) :
    (full entries).getBit idx = some true := by
  have bound : idx / 8 < ((full entries).totalFrames + 7) / 8 := by omega
  exact (Base.Bitmap.getBit_full _ idx).trans (if_pos bound)

theorem full_free (entries : List MemoryMapEntry) : (full entries).free = ∅ := by
  apply Finset.eq_empty_of_forall_notMem
  intro idx isFree
  obtain ⟨inside, clear⟩ := mem_free.mp isFree
  rw [full_used entries inside] at clear
  cases clear

theorem full_exact (entries : List MemoryMapEntry) : (full entries).Exact where
  present := rfl
  readable := by
    intro idx inside
    rw [full_used entries inside]
    rfl
  counted := by
    rw [full_free]
    rfl
  addressed := by
    intro idx isFree
    rw [full_free] at isFree
    cases isFree

/-- The fold never goes back, and reaches the end of every entry of RAM. -/
theorem le_foldl (entries : List MemoryMapEntry) (most : UInt64) :
    let last := entries.foldl (fun most entry => if entry.isRam && most < entry.base + entry.length then
      entry.base + entry.length else most) most
    most ≤ last ∧ ∀ entry ∈ entries, entry.isRam = true → entry.base + entry.length ≤ last := by
  induction entries generalizing most with
  | nil => exact ⟨UInt64.le_refl most, fun _ member => by cases member⟩
  | cons first rest ih =>
    dsimp only
    rw [List.foldl_cons]
    split
    next higher =>
      rw [Bool.and_eq_true, decide_eq_true_eq] at higher
      obtain ⟨onward, covered⟩ := ih (first.base + first.length)
      refine ⟨UInt64.le_trans (UInt64.le_of_lt higher.2) onward, ?_⟩
      intro entry member ram
      rcases List.mem_cons.mp member with rfl | behind
      · exact onward
      · exact covered entry behind ram
    next lower =>
      rw [Bool.and_eq_true, decide_eq_true_eq] at lower
      obtain ⟨onward, covered⟩ := ih most
      refine ⟨onward, ?_⟩
      intro entry member ram
      rcases List.mem_cons.mp member with rfl | behind
      · exact UInt64.le_trans (UInt64.not_lt.mp fun higher => lower ⟨ram, higher⟩) onward
      · exact covered entry behind ram

theorem isRam_of_isUsable {entry : MemoryMapEntry} (usable : entry.isUsable = true) : entry.isRam = true := by
  have isUsable : entry.entryType = .usable := of_decide_eq_true usable
  rw [MemoryMapEntry.isRam, isUsable]

section Passes

variable {entries : List MemoryMapEntry} {entry : MemoryMapEntry} (usable : UsableMap entries)

include usable

theorem UsableMap.end_le (member : entry ∈ entries) (isUsable : entry.isUsable = true) :
    entry.base.toNat + entry.length.toNat ≤ 4096 * (full entries).totalFrames := by
  have reached := UInt64.le_iff_toNat_le.mp ((le_foldl entries 0).2 entry member (isRam_of_isUsable isUsable))
  have physical := usable.physical entry member isUsable
  obtain ⟨baseAligned, lengthAligned⟩ := usable.aligned entry member isUsable
  change (entry.base + entry.length).toNat ≤ (maxPhysAddr entries).toNat at reached
  rw [UInt64.toNat_add] at reached
  change _ ≤ 4096 * (maxPhysAddr entries / PAGE_SIZE).toNat
  rw [UInt64.toNat_div, PAGE_SIZE_toNat]
  omega

theorem UsableMap.frames_inside (member : entry ∈ entries) (isUsable : entry.isUsable = true)
    (inEntry : idx ∈ entry.frames) :
    entry.base.toNat ≤ idx * 4096 ∧ idx * 4096 + 4096 ≤ entry.base.toNat + entry.length.toNat := by
  have bounds := frames_bounds (usable.aligned entry member isUsable).1 inEntry
  have physical := usable.physical entry member isUsable
  omega

theorem UsableMap.frames_apart : entries.Pairwise fun first second => first.isUsable = true → second.isUsable = true →
    ∀ idx ∈ first.frames, idx ∉ second.frames := by
  apply usable.disjoint.imp_of_mem
  intro first second member otherMember apart isUsable otherUsable idx inFirst inSecond
  have bounds := usable.frames_inside member isUsable inFirst
  have otherBounds := usable.frames_inside otherMember otherUsable inSecond
  have either := apart isUsable otherUsable
  omega

theorem UsableMap.bitmapFrames_inside {size : Nat} (found : bitmapRegion entries size ≠ 0)
    (inBitmap : idx ∈ bitmapFrames (bitmapRegion entries size) size) : idx < (full entries).totalFrames := by
  obtain ⟨home, member, isUsable, fits, base⟩ := bitmapRegion_spec found
  have reached := usable.end_le member isUsable
  have physical := usable.physical home member isUsable
  obtain ⟨baseAligned, lengthAligned⟩ := usable.aligned home member isUsable
  rw [base, mem_bitmapFrames_iff (by omega)] at inBitmap
  omega

/-- The passes return with an exact counter each. `init` panics only on purpose: no usable
entry is long enough for the bitmap, or sixteen free frames in a row are not found. -/
def PassesReturn (entries : List MemoryMapEntry) : Prop :=
  let size := ((full entries).totalFrames + 7) / 8
  bitmapRegion entries size = 0 ∨
  ∃ freed reserved start, (full entries).unmarkUsable entries = some freed ∧ freed.Exact ∧
    freed.reserveFree (bitmapFrames (bitmapRegion entries size) size) = some reserved ∧ reserved.Exact ∧
    reserved.searchDma reserved.totalFrames 0 0 0 = some start ∧
    (start = 0 ∨ ∃ ready, reserved.markFrames (List.range' start dmaPages) = some ready ∧ ready.Exact)

theorem UsableMap.passesReturn : PassesReturn entries := by
  unfold PassesReturn
  dsimp only
  by_cases missing : bitmapRegion entries (((full entries).totalFrames + 7) / 8) = 0
  · exact .inl missing
  right
  obtain ⟨freed, cleared, exact, total⟩ := (full_exact entries).unmarkUsable usable.frames_apart (by
    intro entry member isUsable idx inEntry
    have bounds := usable.frames_inside member isUsable inEntry
    have reached := usable.end_le member isUsable
    have physical := usable.physical entry member isUsable
    rw [full_free]
    exact ⟨by omega, by omega, Finset.notMem_empty idx⟩)
  obtain ⟨reserved, kept, stillExact, sameTotal⟩ := exact.reserveFree
    (bitmapFrames (bitmapRegion entries (((full entries).totalFrames + 7) / 8)) (((full entries).totalFrames + 7) / 8))
    (by
    intro idx inBitmap
    rw [total]
    exact usable.bitmapFrames_inside missing inBitmap)
  obtain ⟨start, search⟩ := searchDma_returns stillExact.readable reserved.totalFrames 0 (by omega) 0 0
  refine ⟨freed, reserved, start, cleared, exact, kept, stillExact, search, ?_⟩
  rcases searchDma_spec search with least | ⟨none, _⟩
  · right
    apply stillExact.markFrames List.nodup_range'
    intro idx member
    have bound := least.1.inside
    have inside := List.mem_range'_1.mp member
    exact mem_free.mpr ⟨by omega, least.1.free member⟩
  · exact .inl none

end Passes

theorem PassesReturn.exact {entries : List MemoryMapEntry} {booted : BitmapAllocator} {pool : UInt64}
    (returns : PassesReturn entries) (initialised : init entries = some (booted, pool)) : booted.Exact := by
  unfold init at initialised
  change (if bitmapRegion entries (((full entries).totalFrames + 7) / 8) = 0 then none
    else ((full entries).unmarkUsable entries).bind _) = _ at initialised
  rcases returns with missing | ⟨freed, reserved, start, cleared, _, kept, _, search, last⟩
  · rw [if_pos missing] at initialised
    cases initialised
  · split at initialised
    next => cases initialised
    next =>
      rw [cleared, Option.bind_some] at initialised
      change (freed.reserveFree (bitmapFrames (bitmapRegion entries (((full entries).totalFrames + 7) / 8))
        (((full entries).totalFrames + 7) / 8))).bind _ = _ at initialised
      rw [kept, Option.bind_some, search, Option.bind_some] at initialised
      rcases last with zero | ⟨ready, marked, exact⟩
      · rw [if_pos zero] at initialised
        cases initialised
      · split at initialised
        next => cases initialised
        next =>
          rw [marked, Option.map_some] at initialised
          cases initialised
          exact exact

/-- For every map of usable memory, the passes of `init` return with exact counters, and in
every state reached from there by any calls the operations are those of the set of free frames. -/
theorem refines_free_frames {entries : List MemoryMapEntry} (usable : UsableMap entries) :
    PassesReturn entries ∧ ∀ booted pool, init entries = some (booted, pool) →
      ∀ history allocator, Base.Run call booted history allocator → allocator.Refines := by
  refine ⟨usable.passesReturn, ?_⟩
  intro booted pool initialised history allocator run
  have exact := run.always Exact (usable.passesReturn.exact initialised) fun exact taken => exact.call taken
  exact exact.refines

/-- Two usable regions. A frame is taken, given back twice and taken again; a frame outside is
given back as well. -/
theorem refines_after_calls : ∃ booted pool history allocator,
    init [⟨0x1000, 0x9000, .usable⟩, ⟨0x100000, 0x40000, .usable⟩] = some (booted, pool) ∧
    Base.Run call booted history allocator ∧ history.length = 5 ∧ allocator.freeFrames + 1 = booted.freeFrames ∧
    allocator.Refines := by
  have usable : UsableMap [⟨0x1000, 0x9000, .usable⟩, ⟨0x100000, 0x40000, .usable⟩] := ⟨by decide, by decide, by decide⟩
  have checked : ((init [⟨0x1000, 0x9000, .usable⟩, ⟨0x100000, 0x40000, .usable⟩]).bind fun boot =>
      Base.execute call (fun _ _ => true) boot.1 [.allocate, .deallocate ⟨0x2000, by decide, by decide⟩,
        .deallocate ⟨0x2000, by decide, by decide⟩, .deallocate ⟨0x900000, by decide, by decide⟩, .allocate]).any
      (fun allocator => (init [⟨0x1000, 0x9000, .usable⟩, ⟨0x100000, 0x40000, .usable⟩]).any
        fun boot => allocator.freeFrames + 1 = boot.1.freeFrames) = true := by decide +kernel
  obtain ⟨⟨booted, pool⟩, initialised⟩ : ∃ boot, init [⟨0x1000, 0x9000, .usable⟩, ⟨0x100000, 0x40000, .usable⟩] =
      some boot := Option.isSome_iff_exists.mp (by decide +kernel)
  rw [initialised, Option.bind_some] at checked
  obtain ⟨history, allocator, run, labels, _, counted⟩ := Base.Run.of_check call (fun _ _ => true) booted _ _ checked
  refine ⟨booted, pool, history, allocator, initialised, run, ?_, ?_,
    (refines_free_frames usable).2 booted pool initialised history allocator run⟩
  · rw [← List.length_map, labels]
    rfl
  · exact of_decide_eq_true counted

end BitmapAllocator

end ElseOS
