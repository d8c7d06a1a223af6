import ElseOS.Memory.FrameExclusivity
import ElseOS.Memory.Paging
import Mathlib.Data.Finset.Card

/-! What the frame allocator has left, and what it is spent on.

A frame is free while its bit is clear. Frames are only ever taken, so a frame in use
stays in use; an address space whose table is in use loses no translation. -/

set_option autoImplicit false

namespace ElseOS

open Base (Action)
open Base.Action (Returns)

namespace BitmapAllocator

/-! ## Free frames -/

def free (allocator : BitmapAllocator) : Finset Nat :=
  (Finset.range allocator.totalFrames).filter fun idx => allocator.getBit idx = some false

/-- No call of `allocate_frame` returns this frame. -/
def InUse (allocator : BitmapAllocator) (frame : UInt64) : Prop := ∀ idx ∈ allocator.free, frameAddress idx ≠ frame

structure Ready (allocator : BitmapAllocator) : Prop where
  present : allocator.bitmap.isSome = true
  total : allocator.totalFrames ≤ 2 ^ 52

/-- Enough is left for this many calls of `allocate_frame`: the bitmap has a bit for every
frame, all frames have a physical address, and both the counter and the bits promise as many. -/
structure Stocked (allocator : BitmapAllocator) (count : Nat) : Prop where
  present : allocator.bitmap.isSome = true
  readable : ∀ idx < allocator.totalFrames, (allocator.getBit idx).isSome = true
  total : allocator.totalFrames ≤ 2 ^ 40
  counter : count ≤ allocator.freeFrames.toNat
  free : count ≤ allocator.free.card

instance (allocator : BitmapAllocator) (count : Nat) : Decidable (allocator.Stocked count) :=
  decidable_of_iff (allocator.bitmap.isSome = true ∧
      (∀ idx < allocator.totalFrames, (allocator.getBit idx).isSome = true) ∧ allocator.totalFrames ≤ 2 ^ 40 ∧
      count ≤ allocator.freeFrames.toNat ∧ count ≤ allocator.free.card)
    ⟨fun ⟨present, readable, total, counter, free⟩ => ⟨present, readable, total, counter, free⟩,
      fun stocked => ⟨stocked.present, stocked.readable, stocked.total, stocked.counter, stocked.free⟩⟩

variable {allocator after : BitmapAllocator} {count : Nat} {frame : UInt64}

theorem mem_free {idx : Nat} :
    idx ∈ allocator.free ↔ idx < allocator.totalFrames ∧ allocator.getBit idx = some false := by
  simp [free]

theorem Stocked.ready (stocked : allocator.Stocked count) : allocator.Ready :=
  ⟨stocked.present, stocked.total.trans (by decide)⟩

theorem Stocked.fewer {less : Nat} (stocked : allocator.Stocked count) (fewer : less ≤ count) :
    allocator.Stocked less :=
  ⟨stocked.present, stocked.readable, stocked.total, fewer.trans stocked.counter, fewer.trans stocked.free⟩

theorem Ready.frame_small (ready : allocator.Ready) {idx : Nat} (isFree : idx ∈ allocator.free) : idx < 2 ^ 52 :=
  Nat.lt_of_lt_of_le (mem_free.mp isFree).1 ready.total

theorem Ready.frame_inj (ready : allocator.Ready) {first second : Nat} (isFree : first ∈ allocator.free)
    (alsoFree : second ∈ allocator.free) (same : frameAddress first = frameAddress second) : first = second :=
  frameAddress_inj (ready.frame_small isFree) (ready.frame_small alsoFree) same

theorem Rewrites.free {idx : Nat} (rewrites : Rewrites allocator after (· = idx) true) :
    after.free = allocator.free.erase idx := by
  ext other
  rw [Finset.mem_erase, mem_free, mem_free, rewrites.total]
  by_cases here : other = idx
  · subst here
    simp [rewrites.inside rfl]
  · simp [here, rewrites.outside here]

theorem Ready.rewrites {touched : Nat → Prop} {value : Bool} (ready : allocator.Ready)
    (rewrites : Rewrites allocator after touched value) : after.Ready :=
  ⟨rewrites.present, rewrites.total ▸ ready.total⟩

theorem Ready.allocate (ready : allocator.Ready) (returned : allocator.allocateFrame = some (after, some frame)) :
    ∃ idx ∈ allocator.free, frame = frameAddress idx ∧ Rewrites allocator after (· = idx) true := by
  rcases allocateFrame_spec ready.present ready.total returned with ⟨none, _⟩ | ⟨idx, inside, clear, same, rewrites⟩
  · cases none
  · exact ⟨idx, mem_free.mpr ⟨inside, clear⟩, Option.some.inj same, rewrites⟩

theorem setBit_of_getBit {idx : Nat} {used : Bool} (read : allocator.getBit idx = some used)
    (present : allocator.bitmap.isSome = true) (value : Bool) :
    ∃ written, allocator.setBit idx value = some written ∧ written.freeFrames = allocator.freeFrames := by
  obtain ⟨bitmap, isBitmap⟩ := Option.isSome_iff_exists.mp present
  simp only [getBit, isBitmap, Base.Bitmap.getBit] at read
  obtain ⟨byte, found, _⟩ := Option.map_eq_some_iff.mp read
  simp only [setBit, isBitmap, Base.Bitmap.setBit, found]
  exact ⟨_, rfl, rfl⟩

/-- The loop takes the first free frame of those it looks at. -/
theorem allocateFrom_first (present : allocator.bitmap.isSome = true)
    (readable : ∀ idx < allocator.totalFrames, (allocator.getBit idx).isSome = true)
    (i : Nat) {left j idx : Nat} (inside : j < left)
    (here : (allocator.lastAllocIdx + i + j) % allocator.totalFrames = idx)
    (isFree : idx ∈ allocator.free) (small : idx < 2 ^ 40)
    (earlier : ∀ k < j, (allocator.lastAllocIdx + i + k) % allocator.totalFrames ∉ allocator.free) :
    ∃ marked, allocator.setBit idx true = some marked ∧ marked.freeFrames = allocator.freeFrames ∧
      allocator.allocateFrom left i =
      some ({ marked with freeFrames := marked.freeFrames - 1, lastAllocIdx := idx + 1 },
        some (frameAddress idx)) := by
  have nonempty : 0 < allocator.totalFrames := Nat.zero_lt_of_lt (mem_free.mp isFree).1
  induction left generalizing i j with
  | zero => exact absurd inside (Nat.not_lt_zero j)
  | succ left ih =>
    cases j with
    | zero =>
      rw [Nat.add_zero] at here
      have clear := (mem_free.mp isFree).2
      obtain ⟨marked, written, counter⟩ := setBit_of_getBit clear present true
      have address : (frameAddress idx).toNat < 2 ^ 52 := by
        rw [frameAddress_toNat (by omega)]
        omega
      have valid : PhysAddr.new (UInt64.ofNat idx * PAGE_SIZE) = some (frameAddress idx) := if_pos address
      refine ⟨marked, written, counter, ?_⟩
      rw [allocateFrom, here, clear, Option.bind_some, if_neg Bool.false_ne_true, written, Option.bind_some, valid,
        Option.map_some, containingAddress_frameAddress (by omega)]
    | succ j =>
      -- the frame the loop looks at is in use
      have bound := Nat.mod_lt (allocator.lastAllocIdx + i) nonempty
      obtain ⟨used, read⟩ := Option.isSome_iff_exists.mp (readable _ bound)
      have taken : used = true := by
        cases used with
        | true => rfl
        | false => exact absurd (mem_free.mpr ⟨bound, read⟩) (earlier 0 (Nat.succ_pos j))
      have later : ∀ k, allocator.lastAllocIdx + i + (k + 1) = allocator.lastAllocIdx + (i + 1) + k := by omega
      rw [allocateFrom, read, Option.bind_some, if_pos taken]
      apply ih (i + 1) (Nat.lt_of_succ_lt_succ inside)
      · rw [← later]
        exact here
      · intro k before
        rw [← later]
        exact earlier (k + 1) (Nat.succ_lt_succ before)

/-- The search begins behind the last frame handed out and comes to every frame. -/
theorem search_reaches {total idx : Nat} (last : Nat) (inside : idx < total) :
    ∃ j < total, (last + j) % total = idx := by
  have bound := Nat.mod_lt last (Nat.zero_lt_of_lt inside)
  by_cases behind : last % total ≤ idx
  · refine ⟨idx - last % total, by omega, ?_⟩
    rw [← Nat.mod_add_mod, Nat.add_sub_cancel' behind, Nat.mod_eq_of_lt inside]
  · refine ⟨idx + total - last % total, by omega, ?_⟩
    have around : last % total + (idx + total - last % total) = idx + total := by omega
    rw [← Nat.mod_add_mod, around, Nat.add_mod_right, Nat.mod_eq_of_lt inside]

def NextFree (allocator : BitmapAllocator) (idx : Nat) : Prop :=
  ∃ j < allocator.totalFrames, (allocator.lastAllocIdx + j) % allocator.totalFrames = idx ∧ idx ∈ allocator.free ∧
    ∀ k < j, (allocator.lastAllocIdx + k) % allocator.totalFrames ∉ allocator.free

theorem NextFree.isFree {idx : Nat} (next : allocator.NextFree idx) : idx ∈ allocator.free := by
  obtain ⟨_, _, _, isFree, _⟩ := next
  exact isFree

theorem exists_nextFree (some : allocator.free.Nonempty) : ∃ idx, allocator.NextFree idx := by
  obtain ⟨found, isFree⟩ := some
  obtain ⟨j, within, reached⟩ := search_reaches allocator.lastAllocIdx (mem_free.mp isFree).1
  have reachable : ∃ j, (allocator.lastAllocIdx + j) % allocator.totalFrames ∈ allocator.free := ⟨j, reached ▸ isFree⟩
  refine ⟨_, Nat.find reachable, ?_, rfl, Nat.find_spec reachable, fun k => Nat.find_min reachable⟩
  exact Nat.lt_of_le_of_lt (Nat.find_min' reachable (reached ▸ isFree)) within

theorem allocateFrame_first (present : allocator.bitmap.isSome = true)
    (readable : ∀ idx < allocator.totalFrames, (allocator.getBit idx).isSome = true)
    (counter : allocator.freeFrames ≠ 0) {idx : Nat} (next : allocator.NextFree idx) (small : idx < 2 ^ 40) :
    ∃ marked, allocator.setBit idx true = some marked ∧ marked.freeFrames = allocator.freeFrames ∧
      allocator.allocateFrame = some ({ marked with freeFrames := marked.freeFrames - 1, lastAllocIdx := idx + 1 },
        some (frameAddress idx)) := by
  obtain ⟨j, within, here, isFree, earlier⟩ := next
  obtain ⟨marked, written, counted, returned⟩ :=
    allocateFrom_first present readable 0 within here isFree small earlier
  refine ⟨marked, written, counted, ?_⟩
  rw [allocateFrame, if_neg]
  · exact returned
  · rintro (zero | absent)
    · exact counter zero
    · rw [absent] at present
      cases present

theorem Stocked.allocate (stocked : allocator.Stocked (count + 1)) :
    ∃ after idx, allocator.allocateFrame = some (after, some (frameAddress idx)) ∧ idx ∈ allocator.free ∧
      after.free = allocator.free.erase idx ∧ after.Stocked count := by
  have counter := stocked.counter
  have nonzero : allocator.freeFrames ≠ 0 := by
    intro zero
    rw [zero] at counter
    exact absurd counter (Nat.not_succ_le_zero count)
  obtain ⟨idx, next⟩ := exists_nextFree (Finset.card_pos.mp (Nat.lt_of_lt_of_le (Nat.succ_pos count) stocked.free))
  have wasFree := next.isFree
  obtain ⟨marked, written, sameCount, called⟩ := allocateFrame_first stocked.present stocked.readable nonzero next
    (Nat.lt_of_lt_of_le (mem_free.mp wasFree).1 stocked.total)
  have rewrites := (rewrites_setBit stocked.present written).moved (marked.freeFrames - 1) (idx + 1)
  refine ⟨_, idx, called, wasFree, rewrites.free, rewrites.present, ?_, ?_, ?_, ?_⟩
  · intro other below
    rw [rewrites.total] at below
    by_cases touched : other = idx
    · rw [rewrites.inside touched]
      rfl
    · rw [rewrites.outside touched]
      exact stocked.readable other below
  · rw [rewrites.total]
    exact stocked.total
  · dsimp only
    rw [sameCount, UInt64.toNat_sub_of_le]
    · exact Nat.le_sub_one_of_lt counter
    · exact UInt64.le_iff_toNat_le.mpr (Nat.le_trans (Nat.succ_le_succ (Nat.zero_le count)) counter)
  · rw [rewrites.free, Finset.card_erase_of_mem wasFree]
    exact Nat.le_sub_one_of_lt stocked.free

/-! ## Frames that were taken -/

theorem InUse.mono (used : allocator.InUse frame) (less : after.free ⊆ allocator.free) : after.InUse frame :=
  fun idx isFree => used idx (less isFree)

theorem Ready.inUse (ready : allocator.Ready) {idx : Nat} (isFree : idx ∈ allocator.free)
    (less : after.free ⊆ allocator.free) (taken : idx ∉ after.free) : after.InUse (frameAddress idx) := by
  intro other stillFree same
  have equal := ready.frame_inj (less stillFree) isFree same
  exact taken (equal ▸ stillFree)

theorem Takes.free {frames : List UInt64} (takes : allocator.Takes frames after) (ready : allocator.Ready) :
    after.Ready ∧ after.free ⊆ allocator.free := by
  induction takes with
  | nil => exact ⟨ready, Finset.Subset.refl _⟩
  | cons taken _ ih =>
    obtain ⟨idx, _, _, rewrites⟩ := ready.allocate taken
    obtain ⟨last, less⟩ := ih (ready.rewrites rewrites)
    exact ⟨last, less.trans (rewrites.free ▸ Finset.erase_subset _ _)⟩

theorem Takes.stocked {frames : List UInt64} (takes : allocator.Takes frames after)
    (stocked : allocator.Stocked (count + frames.length)) : after.Stocked count := by
  induction takes with
  | nil => exact stocked
  | cons taken _ ih =>
    obtain ⟨second, idx, called, _, _, left⟩ := stocked.allocate
    rw [taken] at called
    cases called
    exact ih left

end BitmapAllocator

/-! ## Page tables -/

/-- What the results about whole address spaces use of `OffsetPageTable` besides: a page that is
not mapped can be mapped, with at most three new tables on the way; nothing that is mapped is
lost; and filling the table in a frame does not touch address spaces with another table. -/
structure Paging.Lawful (paging : Paging) : Prop where
  maps : ∀ tables allocator cr3 page frame flags, paging.lookup tables cr3 page = none → allocator.Stocked 3 →
    (paging.mapTo tables allocator cr3 page frame flags).2.2 = .ok
  fewTables : ∀ tables allocator cr3 page frame flags, ∃ frames, frames.length ≤ 3 ∧
    BitmapAllocator.Takes allocator frames (paging.mapTo tables allocator cr3 page frame flags).2.1
  keeps : ∀ tables allocator cr3 page frame flags space other entry, paging.lookup tables space other = some entry →
    paging.lookup (paging.mapTo tables allocator cr3 page frame flags).1 space other = some entry
  newTable : ∀ tables cr3 current space page, space ≠ cr3 →
    paging.lookup (paging.newTable tables cr3 current) space page = paging.lookup tables space page

namespace Paging

variable {tables : FlatTables} {cr3 page : UInt64}

theorem flatMapTo_absent (absent : tables.lookup (cr3, page) = none) (allocator : BitmapAllocator) (frame : UInt64)
    (flags : PageFlags) :
    flatMapTo tables allocator cr3 page frame flags = (((cr3, page), frame, flags) :: tables, allocator, .ok) := by
  simp [flatMapTo, absent]

theorem flatMapTo_present {entry : UInt64 × PageFlags} (present : tables.lookup (cr3, page) = some entry)
    (allocator : BitmapAllocator) (frame : UInt64) (flags : PageFlags) :
    flatMapTo tables allocator cr3 page frame flags = (tables, allocator, .error .pageAlreadyMapped) := by
  simp [flatMapTo, present]

theorem flat_keeps (allocator : BitmapAllocator) (frame : UInt64) (flags : PageFlags) {space other : UInt64}
    {entry : UInt64 × PageFlags} (mapped : tables.lookup (space, other) = some entry) :
    (flatMapTo tables allocator cr3 page frame flags).1.lookup (space, other) = some entry := by
  cases here : tables.lookup (cr3, page) with
  | none =>
    have apart : ((space, other) == (cr3, page)) = false := by
      rw [beq_eq_false_iff_ne]
      intro same
      rw [same, here] at mapped
      cases mapped
    rw [flatMapTo_absent here, List.lookup_cons, apart]
    exact mapped
  | some present =>
    rw [flatMapTo_present here]
    exact mapped

theorem lookup_copies (copied : FlatTables) {space : UInt64} (different : space ≠ cr3) :
    (copied.map (fun entry => ((cr3, entry.1.2), entry.2)) ++ tables).lookup (space, page) =
      tables.lookup (space, page) := by
  have absent : (copied.map fun entry => ((cr3, entry.1.2), entry.2)).lookup (space, page) = none := by
    rw [List.lookup_eq_none_iff]
    intro entry member
    obtain ⟨old, _, rfl⟩ := List.mem_map.mp member
    simp [different]
  rw [List.lookup_append, absent, Option.none_or]

theorem flat_lawful : flat.Lawful where
  maps tables allocator cr3 page frame flags unmapped _ :=
    congrArg (fun result => result.2.2) (flatMapTo_absent unmapped allocator frame flags)
  fewTables tables allocator cr3 page frame flags := by
    refine ⟨[], Nat.zero_le 3, ?_⟩
    change allocator.Takes [] (flatMapTo tables allocator cr3 page frame flags).2.1
    unfold flatMapTo
    split <;> exact .nil _
  keeps _ allocator _ _ frame flags _ _ _ mapped := flat_keeps allocator frame flags mapped
  newTable _ _ _ _ _ different := lookup_copies _ different

end Paging

namespace Memory

variable {paging : Paging} {mem after : Memory paging}

def lookup (mem : Memory paging) (cr3 page : UInt64) : Option (UInt64 × PageFlags) :=
  paging.lookup mem.tables cr3 page

theorem expectMapTo_eq (mem : Memory paging) (cr3 page frame : UInt64) (flags : PageFlags) :
    let called := paging.mapTo mem.tables mem.allocator cr3 page frame flags
    expectMapTo cr3 page frame flags mem =
      ({ mem with tables := called.1, allocator := called.2.1 }, if called.2.2 = .ok then some () else none) := by
  rcases called : paging.mapTo mem.tables mem.allocator cr3 page frame flags with ⟨tables, allocator, outcome⟩
  have first : mapTo cr3 page frame flags mem =
      ({ mem with tables := tables, allocator := allocator }, outcome.value) := by
    rw [mapTo, called]
  cases outcome with
  | ok => exact Action.bind_some first
  | error error => exact Action.bind_some first
  | panicked => exact Action.bind_none first

theorem expectMapTo_spec {cr3 page frame : UInt64} {flags : PageFlags} {result : Option Unit}
    (ran : expectMapTo cr3 page frame flags mem = (after, result)) :
    (result = some () ∧ mem.lookup cr3 page = none ∧
      after.lookup cr3 = Function.update (mem.lookup cr3) page (some (frame, flags))) ∨
    (result = none ∧ after.lookup cr3 = mem.lookup cr3) := by
  have mapped := paging.mapped mem.tables mem.allocator cr3 page frame flags
  have otherPages := paging.otherPages mem.tables mem.allocator cr3 page frame flags
  have refused := paging.refused mem.tables mem.allocator cr3 page frame flags
  rw [expectMapTo_eq] at ran
  cases ran
  by_cases ok : (paging.mapTo mem.tables mem.allocator cr3 page frame flags).2.2 = .ok
  · refine .inl ⟨if_pos ok, (mapped ok).1, ?_⟩
    funext other
    by_cases same : other = page
    · subst same
      rw [Function.update_self]
      exact (mapped ok).2
    · rw [Function.update_of_ne same]
      exact otherPages other same
  · refine .inr ⟨if_neg ok, ?_⟩
    funext other
    by_cases same : other = page
    · subst same
      exact refused ok
    · exact otherPages other same

theorem returns_expectFrame {count : Nat} (stocked : mem.allocator.Stocked (count + 1)) :
    Returns expectFrame mem fun frame after => after.tables = mem.tables ∧ after.ram = mem.ram ∧
      after.allocator.Stocked count ∧ ∃ idx ∈ mem.allocator.free, frame = BitmapAllocator.frameAddress idx ∧
        after.allocator.free = mem.allocator.free.erase idx := by
  obtain ⟨allocator, idx, returned, isFree, left, stillStocked⟩ := stocked.allocate
  have asked : allocateFrame mem = ({ mem with allocator := allocator },
    some (some (BitmapAllocator.frameAddress idx))) := by
    rw [allocateFrame, returned]
  refine ⟨_, _, Action.bind_some asked, rfl, rfl, stillStocked, idx, isFree, rfl, left⟩

theorem returns_expectMapTo (lawful : paging.Lawful) {cr3 page : UInt64} {count : Nat} (frame : UInt64)
    (flags : PageFlags) (unmapped : mem.lookup cr3 page = none) (stocked : mem.allocator.Stocked (count + 3)) :
    Returns (expectMapTo cr3 page frame flags) mem fun _ after => after.ram = mem.ram ∧
      after.tables = (paging.mapTo mem.tables mem.allocator cr3 page frame flags).1 ∧ after.allocator.Stocked count ∧
      after.allocator.free ⊆ mem.allocator.free ∧
      after.lookup cr3 = Function.update (mem.lookup cr3) page (some (frame, flags)) := by
  have ok := lawful.maps mem.tables mem.allocator cr3 page frame flags unmapped (stocked.fewer (by omega))
  obtain ⟨frames, few, takes⟩ := lawful.fewTables mem.tables mem.allocator cr3 page frame flags
  have called := expectMapTo_eq mem cr3 page frame flags
  dsimp only at called
  rw [if_pos ok] at called
  refine ⟨_, _, called, rfl, rfl, takes.stocked (stocked.fewer (by omega)), (takes.free stocked.ready).2, ?_⟩
  rcases expectMapTo_spec called with ⟨_, _, updated⟩ | ⟨none, _⟩
  · exact updated
  · cases none

/-- Nothing is lost: a table in use stays in use, and its address space keeps every translation. -/
def Grows (before after : Memory paging) : Prop :=
  before.allocator.Ready → after.allocator.Ready ∧ ∀ cr3, before.allocator.InUse cr3 → after.allocator.InUse cr3 ∧
    ∀ page entry, before.lookup cr3 page = some entry → after.lookup cr3 page = some entry

instance : Std.Refl (@Grows paging) := ⟨fun _ ready => ⟨ready, fun _ used => ⟨used, fun _ _ mapped => mapped⟩⟩⟩

instance : IsTrans (Memory paging) Grows where
  trans first second third left right := by
    intro ready
    obtain ⟨middle, keeps⟩ := left ready
    obtain ⟨last, keepsToo⟩ := right middle
    refine ⟨last, ?_⟩
    intro cr3 used
    obtain ⟨used, mapped⟩ := keeps cr3 used
    obtain ⟨used, mappedToo⟩ := keepsToo cr3 used
    exact ⟨used, fun page entry present => mappedToo page entry (mapped page entry present)⟩

theorem Takes.grows (takes : mem.Takes after)
    (keeps : ∀ cr3 page entry, mem.lookup cr3 page = some entry → after.lookup cr3 page = some entry) :
    mem.Grows after := by
  intro ready
  obtain ⟨frames, takes⟩ := takes
  obtain ⟨last, less⟩ := takes.free ready
  exact ⟨last, fun cr3 used => ⟨used.mono less, keeps cr3⟩⟩

theorem tables_allocateFrame (mem : Memory paging) : (allocateFrame mem).1.tables = mem.tables := by
  unfold allocateFrame
  split <;> rfl

theorem tables_expectFrame (mem : Memory paging) : (expectFrame mem).1.tables = mem.tables := by
  have asked := tables_allocateFrame mem
  rcases called : allocateFrame mem with ⟨middle, _ | frame⟩ <;> rw [called] at asked
  · rw [expectFrame, Action.bind_none called]
    exact asked
  · rw [expectFrame, Action.bind_some called]
    cases frame with
    | none => exact asked
    | some frame => exact asked

theorem grows_expectFrame : Action.Keeps Grows (@expectFrame paging) := by
  intro mem
  apply (takes_expectFrame mem).grows
  intro cr3 page entry mapped
  rw [lookup, tables_expectFrame]
  exact mapped

theorem grows_modify {change : Memory paging → Memory paging}
    (allocator : ∀ mem, (change mem).allocator = mem.allocator)
    (tables : ∀ mem, (change mem).tables = mem.tables) : Action.Keeps Grows (Action.modify change) := by
  intro mem
  apply (takes_modify allocator mem).grows
  intro cr3 page entry mapped
  have same : (Action.modify change mem).1.tables = mem.tables := tables mem
  rw [lookup, same]
  exact mapped

theorem grows_zeroFrame (frame : UInt64) : Action.Keeps Grows (@zeroFrame paging frame) :=
  grows_modify (fun _ => rfl) fun _ => rfl

theorem grows_mapTo (lawful : paging.Lawful) (cr3 page frame : UInt64) (flags : PageFlags) :
    Action.Keeps Grows (@mapTo paging cr3 page frame flags) := by
  intro mem
  apply (takes_mapTo cr3 page frame flags mem).grows
  intro space other entry mapped
  exact lawful.keeps _ _ _ _ _ _ _ _ _ mapped

theorem grows_expectMapTo (lawful : paging.Lawful) (cr3 page frame : UInt64) (flags : PageFlags) :
    Action.Keeps Grows (@expectMapTo paging cr3 page frame flags) :=
  (grows_mapTo lawful cr3 page frame flags).bind fun result => Action.keeps_expect result.toOption

theorem expectFrame_takes {frame : UInt64} (ready : mem.allocator.Ready)
    (called : expectFrame mem = (after, some frame)) :
    after.tables = mem.tables ∧ after.ram = mem.ram ∧ ∃ idx ∈ mem.allocator.free,
    frame = BitmapAllocator.frameAddress idx ∧
      mem.allocator.Rewrites after.allocator (· = idx) true := by
  obtain ⟨middle, found, asked, handed⟩ := Action.bind_eq_some called
  cases found with
  | none => cases handed
  | some found =>
    cases handed
    unfold allocateFrame at asked
    split at asked
    next allocator result returned =>
      cases asked
      obtain ⟨idx, isFree, same, rewrites⟩ := ready.allocate returned
      exact ⟨rfl, rfl, idx, isFree, same, rewrites⟩
    next => cases asked

theorem grows_newSpace (lawful : paging.Lawful) {frame : UInt64} (current : UInt64)
    (called : expectFrame mem = (after, some frame)) :
    mem.Grows (newTable frame current after).1 ∧
      (mem.allocator.Ready → (newTable frame current after).1.allocator.InUse frame) := by
  have used (ready : mem.allocator.Ready) : after.allocator.InUse frame := by
    obtain ⟨_, _, idx, isFree, rfl, rewrites⟩ := expectFrame_takes ready called
    apply ready.inUse isFree
    · rw [rewrites.free]
      exact Finset.erase_subset _ _
    · rw [rewrites.free]
      exact Finset.notMem_erase _ _
  refine ⟨?_, used⟩
  intro ready
  have grown := grows_expectFrame mem ready
  rw [called] at grown
  refine ⟨grown.1, ?_⟩
  intro cr3 isUsed
  obtain ⟨stillUsed, mapped⟩ := grown.2 cr3 isUsed
  refine ⟨stillUsed, ?_⟩
  intro page entry present
  -- the fresh frame was free, so no table in use is in it
  have different : cr3 ≠ frame := by
    obtain ⟨_, _, idx, isFree, rfl, _⟩ := expectFrame_takes ready called
    exact (isUsed idx isFree).symm
  have same := lawful.newTable after.tables frame current cr3 page different
  exact same.trans (mapped page entry present)

/-- What is done in a fresh address space, if it loses nothing itself. -/
theorem grows_inNewSpace (lawful : paging.Lawful) {Value : Type} {body : UInt64 → Action (Memory paging) Value}
    (grows : ∀ cr3, Action.Keeps Grows (body cr3)) (current : UInt64) :
    Action.Keeps Grows (do
      let cr3 ← expectFrame
      newTable cr3 current
      body cr3) := by
  intro mem
  rcases called : expectFrame mem with ⟨middle, _ | cr3⟩
  · rw [Action.bind_none called]
    have grown := grows_expectFrame mem
    rw [called] at grown
    exact grown
  · rw [Action.bind_some called]
    exact IsTrans.trans _ _ _ (grows_newSpace lawful current called).1 (grows cr3 _)

end Memory

end ElseOS
