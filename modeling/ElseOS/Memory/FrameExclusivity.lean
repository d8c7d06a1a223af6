import ElseOS.Memory.FrameAllocator
import Mathlib.Data.List.Pairwise
import Mathlib.Order.Bounds.Basic

/-! Which frames the allocator can hand out.

The passes of `init` clear the bits of frames inside usable entries and then set those
of the bitmap and of the DMA pool again. From there on a bit is cleared only for a frame
that was handed out before, so a clear bit always stands for a frame nobody uses. -/

set_option autoImplicit false

namespace ElseOS

namespace BitmapAllocator

/-! ## The loops -/

structure Rewrites (before after : BitmapAllocator) (touched : Nat → Prop) (value : Bool) : Prop where
  present : after.bitmap.isSome = true
  total : after.totalFrames = before.totalFrames
  home : after.bitmapPhysAddr = before.bitmapPhysAddr
  size : after.bitmap.map List.length = before.bitmap.map List.length
  inside : ∀ {idx}, touched idx → after.getBit idx = some value
  outside : ∀ {idx}, ¬ touched idx → after.getBit idx = before.getBit idx

variable {before middle after : BitmapAllocator}

theorem rewrites_none (present : before.bitmap.isSome = true) (value : Bool) :
    Rewrites before before (fun _ => False) value :=
  ⟨present, rfl, rfl, rfl, False.elim, fun _ => rfl⟩

theorem rewrites_setBit {idx : Nat} {value : Bool} (present : before.bitmap.isSome = true)
    (written : before.setBit idx value = some after) : Rewrites before after (· = idx) value := by
  obtain ⟨bitmap, isBitmap⟩ := Option.isSome_iff_exists.mp present
  simp only [setBit, isBitmap] at written
  obtain ⟨changed, stored, rfl⟩ := Option.map_eq_some_iff.mp written
  have bits : ∀ other, getBit { before with bitmap := some changed } other =
      if other = idx then some value else before.getBit other := by
    intro other
    simp only [getBit, isBitmap]
    exact Base.Bitmap.getBit_setBit stored other
  refine ⟨rfl, rfl, rfl, ?_, ?_, ?_⟩
  · rw [isBitmap, Option.map_some, Option.map_some, Base.Bitmap.length_setBit stored]
  · intro other same
    rw [bits, if_pos same]
  · intro other different
    rw [bits, if_neg different]

theorem Rewrites.trans {first second : Nat → Prop} {value : Bool} (left : Rewrites before middle first value)
    (right : Rewrites middle after second value) :
    Rewrites before after (fun idx => first idx ∨ second idx) value := by
  refine ⟨right.present, right.total.trans left.total, right.home.trans left.home, right.size.trans left.size, ?_, ?_⟩
  · intro idx touched
    by_cases later : second idx
    · exact right.inside later
    · rw [right.outside later]
      exact left.inside (touched.resolve_right later)
  · intro idx untouched
    rw [not_or] at untouched
    rw [right.outside untouched.2, left.outside untouched.1]

theorem Rewrites.congr {touched others : Nat → Prop} {value : Bool} (rewrites : Rewrites before after touched value)
    (same : ∀ idx, others idx ↔ touched idx) : Rewrites before after others value := by
  have equal : others = touched := funext fun idx => propext (same idx)
  rw [equal]
  exact rewrites

theorem Rewrites.moved {touched : Nat → Prop} {value : Bool} (rewrites : Rewrites before after touched value)
    (freeFrames : UInt64) (lastAllocIdx : Nat) :
    Rewrites before { after with freeFrames := freeFrames, lastAllocIdx := lastAllocIdx } touched value :=
  ⟨rewrites.present, rewrites.total, rewrites.home, rewrites.size, rewrites.inside, rewrites.outside⟩

theorem Rewrites.count {touched : Nat → Prop} {value : Bool} (rewrites : Rewrites before after touched value)
    (freeFrames : UInt64) : Rewrites before { after with freeFrames := freeFrames } touched value :=
  rewrites.moved freeFrames after.lastAllocIdx

theorem rewrites_unmarkFrames {frames : List Nat} (present : before.bitmap.isSome = true)
    (cleared : before.unmarkFrames frames = some after) : Rewrites before after (· ∈ frames) false := by
  induction frames generalizing before with
  | nil =>
    cases cleared
    exact (rewrites_none present false).congr (by simp)
  | cons idx rest ih =>
    obtain ⟨middle, written, continued⟩ := Option.bind_eq_some_iff.mp cleared
    have first := (rewrites_setBit present written).count (middle.freeFrames + 1)
    exact (first.trans (ih first.present continued)).congr (by simp)

theorem rewrites_markFrames {frames : List Nat} (present : before.bitmap.isSome = true)
    (marked : before.markFrames frames = some after) : Rewrites before after (· ∈ frames) true := by
  induction frames generalizing before with
  | nil =>
    cases marked
    exact (rewrites_none present true).congr (by simp)
  | cons idx rest ih =>
    obtain ⟨middle, written, continued⟩ := Option.bind_eq_some_iff.mp marked
    have first := (rewrites_setBit present written).count (middle.freeFrames - 1)
    exact (first.trans (ih first.present continued)).congr (by simp)

theorem rewrites_reserveFree {frames : List Nat} (present : before.bitmap.isSome = true)
    (reserved : before.reserveFree frames = some after) : Rewrites before after (· ∈ frames) true := by
  induction frames generalizing before with
  | nil =>
    cases reserved
    exact (rewrites_none present true).congr (by simp)
  | cons idx rest ih =>
    obtain ⟨used, read, continued⟩ := Option.bind_eq_some_iff.mp reserved
    cases used with
    | true =>
      have kept : Rewrites before before (· = idx) true :=
        ⟨present, rfl, rfl, rfl, fun same => same ▸ read, fun _ => rfl⟩
      exact (kept.trans (ih present continued)).congr (by simp)
    | false =>
      obtain ⟨middle, written, continued⟩ := Option.bind_eq_some_iff.mp continued
      have first := (rewrites_setBit present written).count (middle.freeFrames - 1)
      exact (first.trans (ih first.present continued)).congr (by simp)

theorem rewrites_unmarkUsable {entries : List MemoryMapEntry} (present : before.bitmap.isSome = true)
    (cleared : before.unmarkUsable entries = some after) :
    Rewrites before after (fun idx => ∃ entry ∈ entries, entry.isUsable = true ∧ idx ∈ entry.frames) false := by
  induction entries generalizing before with
  | nil =>
    cases cleared
    exact (rewrites_none present false).congr (by simp)
  | cons entry rest ih =>
    unfold unmarkUsable at cleared
    split at cleared
    next usable =>
      obtain ⟨middle, first, continued⟩ := Option.bind_eq_some_iff.mp cleared
      have here := rewrites_unmarkFrames present first
      exact (here.trans (ih here.present continued)).congr (by simp [usable])
    next unusable => exact (ih present cleared).congr (by simp [unusable])

/-! ## The search for the DMA pool

The scan keeps the length of the run of free frames it is in. Between its rounds no run of
sixteen starts before the current one, so the first that is full is the lowest. -/

def FreeRun (allocator : BitmapAllocator) (start : Nat) : Prop :=
  ∀ k < dmaPages, start + k < allocator.totalFrames ∧ allocator.getBit (start + k) = some false

variable {allocator : BitmapAllocator}

theorem FreeRun.inside {start : Nat} (run : allocator.FreeRun start) : start + dmaPages ≤ allocator.totalFrames := by
  have last := (run (dmaPages - 1) (by decide)).1
  rw [show dmaPages = 16 from rfl] at last ⊢
  omega

theorem FreeRun.free {start : Nat} (run : allocator.FreeRun start) {idx : Nat}
    (member : idx ∈ List.range' start dmaPages) : allocator.getBit idx = some false := by
  obtain ⟨k, below, rfl⟩ := List.mem_range'.mp member
  rw [Nat.one_mul]
  exact (run k below).2

/-- The scan between two rounds: how long the current run is, and that no full run starts
before it. -/
structure Scanning (allocator : BitmapAllocator) (i runStart currentRun : Nat) : Prop where
  begun : currentRun ≠ 0 → runStart + currentRun = i
  seen : currentRun ≤ i
  short : currentRun < dmaPages
  free : ∀ idx, idx < i → i ≤ idx + currentRun → allocator.getBit idx = some false
  none : ∀ start, start + currentRun < i → ¬ allocator.FreeRun start

theorem Scanning.used {i runStart currentRun : Nat} (scan : Scanning allocator i runStart currentRun)
    (read : allocator.getBit i = some true) : Scanning allocator (i + 1) runStart 0 where
  begun := fun nonzero => absurd rfl nonzero
  seen := Nat.zero_le _
  short := by decide
  free := fun idx below above => absurd above (by omega)
  none := by
    intro start below run
    by_cases earlier : start + currentRun < i
    · exact scan.none start earlier run
    · -- the used frame lies in the run
      have short := scan.short
      have inside := (run (i - start) (by omega)).2
      rw [show start + (i - start) = i by omega, read] at inside
      cases inside

theorem Scanning.runStart_eq {i runStart currentRun : Nat} (scan : Scanning allocator i runStart currentRun) :
    (if currentRun = 0 then i else runStart) + (currentRun + 1) = i + 1 := by
  split
  next zero => omega
  next nonzero =>
    have begun := scan.begun nonzero
    omega

theorem Scanning.free_here {i runStart currentRun : Nat} (scan : Scanning allocator i runStart currentRun)
    (read : allocator.getBit i = some false) (idx : Nat) (below : idx < i + 1)
    (above : i + 1 ≤ idx + (currentRun + 1)) :
    allocator.getBit idx = some false := by
  rcases Nat.lt_succ_iff_lt_or_eq.mp below with earlier | same
  · exact scan.free idx earlier (by omega)
  · exact same ▸ read

theorem Scanning.more {i runStart currentRun : Nat} (scan : Scanning allocator i runStart currentRun)
    (read : allocator.getBit i = some false) (short : currentRun + 1 ≠ dmaPages) :
    Scanning allocator (i + 1) (if currentRun = 0 then i else runStart) (currentRun + 1) where
  begun := fun _ => scan.runStart_eq
  seen := Nat.succ_le_succ scan.seen
  short := Nat.lt_of_le_of_ne scan.short short
  free := scan.free_here read
  none := fun start below => scan.none start (by omega)

theorem Scanning.full {i runStart currentRun : Nat} (scan : Scanning allocator i runStart currentRun)
    (inside : i < allocator.totalFrames) (read : allocator.getBit i = some false) (full : currentRun + 1 = dmaPages) :
    IsLeast {start | allocator.FreeRun start} (if currentRun = 0 then i else runStart) := by
  have begun := scan.runStart_eq
  constructor
  · intro k below
    exact ⟨by omega, scan.free_here read _ (by omega) (by omega)⟩
  · intro start run
    apply Nat.le_of_not_lt
    intro lower
    exact scan.none start (by omega) run

theorem Scanning.search {count i runStart currentRun found : Nat} (scan : Scanning allocator i runStart currentRun)
    (ends : i + count = allocator.totalFrames) (search : allocator.searchDma count i runStart currentRun = some found) :
    IsLeast {start | allocator.FreeRun start} found ∨ found = 0 ∧ ∀ start, ¬ allocator.FreeRun start := by
  induction count generalizing i runStart currentRun with
  | zero =>
    cases search
    -- a full run that starts in the unfinished one would end behind the last frame
    refine .inr ⟨rfl, fun start run => ?_⟩
    have short := scan.short
    have last := run.inside
    exact scan.none start (by omega) run
  | succ count ih =>
    obtain ⟨used, read, continued⟩ := Option.bind_eq_some_iff.mp search
    cases used with
    | true => exact ih (scan.used read) (by omega) continued
    | false =>
      simp only [Bool.false_eq_true, if_false] at continued
      split at continued
      next full =>
        cases continued
        exact .inl (scan.full (by omega) read full)
      next short => exact ih (scan.more read short) (by omega) continued

/-- The scan returns the start of the lowest run, or 0 when there is none. -/
theorem searchDma_spec {found : Nat} (search : allocator.searchDma allocator.totalFrames 0 0 0 = some found) :
    IsLeast {start | allocator.FreeRun start} found ∨ found = 0 ∧ ∀ start, ¬ allocator.FreeRun start := by
  have begins : Scanning allocator 0 0 0 :=
    ⟨fun nonzero => absurd rfl nonzero, Nat.le_refl 0, by decide, fun _ below => absurd below (Nat.not_lt_zero _),
      fun _ below => absurd below (Nat.not_lt_zero _)⟩
  exact begins.search (Nat.zero_add _) search

theorem searchDma_returns (readable : ∀ idx < allocator.totalFrames, (allocator.getBit idx).isSome = true)
    (count i : Nat) (inside : i + count ≤ allocator.totalFrames) (runStart currentRun : Nat) :
    ∃ start, allocator.searchDma count i runStart currentRun = some start := by
  induction count generalizing i runStart currentRun with
  | zero => exact ⟨0, rfl⟩
  | succ count ih =>
    obtain ⟨used, read⟩ := Option.isSome_iff_exists.mp (readable i (by omega))
    rw [searchDma, read, Option.bind_some]
    dsimp only
    split
    · exact ih (i + 1) (by omega) _ _
    · split
      · exact ⟨_, rfl⟩
      · exact ih (i + 1) (by omega) _ _

/-! ## What `init` leaves clear -/

theorem bitmapRegion_spec {entries : List MemoryMapEntry} {size : Nat} (found : bitmapRegion entries size ≠ 0) :
    ∃ entry ∈ entries, entry.isUsable = true ∧ size ≤ entry.length.toNat ∧ bitmapRegion entries size = entry.base := by
  unfold bitmapRegion at found ⊢
  cases search : entries.find? fun entry => entry.isUsable && size ≤ entry.length.toNat with
  | none =>
    rw [search] at found
    exact absurd rfl found
  | some entry =>
    have fits := List.find?_some search
    simp only [Bool.and_eq_true, decide_eq_true_eq] at fits
    exact ⟨entry, List.mem_of_find?_eq_some search, fits.1, fits.2, rfl⟩

structure Prepared (entries : List MemoryMapEntry) (allocator : BitmapAllocator) (home : MemoryMapEntry)
    (size dmaStartFrame : Nat) : Prop where
  present : allocator.bitmap.isSome = true
  length : allocator.bitmap.map List.length = some size
  total : allocator.totalFrames ≤ 2 ^ 52
  homeMember : home ∈ entries
  homeUsable : home.isUsable = true
  homeSize : size ≤ home.length.toNat
  homeBase : allocator.bitmapPhysAddr = home.base
  dmaBound : dmaStartFrame + dmaPages < 2 ^ 52
  dmaUsable : ∀ idx ∈ List.range' dmaStartFrame dmaPages, ∃ entry ∈ entries, entry.isUsable = true ∧ idx ∈ entry.frames
  clear : ∀ {idx}, allocator.getBit idx = some false →
    (∃ entry ∈ entries, entry.isUsable = true ∧ idx ∈ entry.frames) ∧
    idx ∉ bitmapFrames home.base size ∧ idx ∉ List.range' dmaStartFrame dmaPages

theorem prepared_of_init {entries : List MemoryMapEntry} {allocator : BitmapAllocator} {pool : UInt64}
    (booted : init entries = some (allocator, pool)) :
    ∃ home size dmaStartFrame, Prepared entries allocator home size dmaStartFrame ∧
      pool = UInt64.ofNat dmaStartFrame * PAGE_SIZE := by
  unfold init at booted
  dsimp only at booted
  have total : (maxPhysAddr entries / PAGE_SIZE).toNat < 2 ^ 52 := by
    have small := (maxPhysAddr entries).toNat_lt
    rw [UInt64.toNat_div, PAGE_SIZE_toNat]
    omega
  generalize (maxPhysAddr entries / PAGE_SIZE).toNat = totalFrames at booted total
  generalize sized : (totalFrames + 7) / 8 = size at booted
  split at booted
  next => cases booted
  next found =>
    obtain ⟨home, member, usable, fits, base⟩ := bitmapRegion_spec found
    obtain ⟨freed, cleared, booted⟩ := Option.bind_eq_some_iff.mp booted
    obtain ⟨reserved, kept, booted⟩ := Option.bind_eq_some_iff.mp booted
    obtain ⟨dmaStartFrame, search, booted⟩ := Option.bind_eq_some_iff.mp booted
    split at booted
    next => cases booted
    next nonzero =>
      obtain ⟨ready, marked, same⟩ := Option.map_eq_some_iff.mp booted
      cases same
      have first := rewrites_unmarkUsable rfl cleared
      have second := rewrites_reserveFree first.present kept
      have third := rewrites_markFrames second.present marked
      have sameTotal : reserved.totalFrames = totalFrames := second.total.trans first.total
      have run : reserved.FreeRun dmaStartFrame :=
        ((searchDma_spec search).resolve_right fun never => nonzero never.1).1
      have bound := run.inside
      -- a clear bit survived the pass that sets bits, and one pass alone clears any
      have usableOf : ∀ {idx}, reserved.getBit idx = some false → idx ∉ bitmapFrames home.base size ∧
          ∃ entry ∈ entries, entry.isUsable = true ∧ idx ∈ entry.frames := by
        intro idx clear
        have outsideBitmap : idx ∉ bitmapFrames (bitmapRegion entries size) size := by
          intro inside
          rw [second.inside inside] at clear
          cases clear
        rw [second.outside outsideBitmap] at clear
        refine ⟨base ▸ outsideBitmap, ?_⟩
        by_contra unusable
        rw [first.outside unusable] at clear
        simp only [getBit, Base.Bitmap.getBit_full] at clear
        split at clear <;> cases clear
      refine ⟨home, size, dmaStartFrame, ⟨third.present, ?_, ?_, member, usable, fits, ?_, ?_, ?_, ?_⟩, rfl⟩
      · rw [third.size, second.size, first.size]
        simp
      · rw [third.total, sameTotal]
        exact Nat.le_of_lt total
      · rw [third.home, second.home, first.home]
        exact base
      · omega
      · exact fun idx member => (usableOf (run.free member)).2
      · intro idx clear
        have outsidePool : idx ∉ List.range' dmaStartFrame dmaPages := by
          intro inside
          rw [third.inside inside] at clear
          cases clear
        rw [third.outside outsidePool] at clear
        exact ⟨(usableOf clear).2, (usableOf clear).1, outsidePool⟩

/-! ## Frames as byte ranges -/

def bitmapBytes (allocator : BitmapAllocator) : Nat := (allocator.bitmap.getD []).length

def Apart (first second : MemoryMapEntry) : Prop :=
  first.isUsable = true ∨ second.isUsable = true →
    first.base.toNat + first.length.toNat ≤ second.base.toNat ∨
    second.base.toNat + second.length.toNat ≤ first.base.toNat

instance (first second : MemoryMapEntry) : Decidable (Apart first second) :=
  inferInstanceAs (Decidable (_ → _))

instance apart_symm : Std.Symm Apart := ⟨fun _ _ apart usable => (apart usable.symm).symm⟩

/-- Limine's promises about the entries it marks usable. -/
structure LimineMap (entries : List MemoryMapEntry) : Prop where
  aligned : ∀ entry ∈ entries, entry.isUsable = true →
    entry.base.toNat % 4096 = 0 ∧ entry.length.toNat % 4096 = 0
  low : ∀ entry ∈ entries, entry.isUsable = true → 0x1000 ≤ entry.base.toNat
  disjoint : entries.Pairwise Apart

def frameAddress (idx : Nat) : UInt64 := UInt64.ofNat idx * PAGE_SIZE

theorem frameAddress_toNat {idx : Nat} (small : idx < 2 ^ 52) : (frameAddress idx).toNat = idx * 4096 := by
  rw [frameAddress, UInt64.toNat_mul, PAGE_SIZE_toNat, UInt64.toNat_ofNat']
  omega

theorem frameAddress_inj {first second : Nat} (small : first < 2 ^ 52) (otherSmall : second < 2 ^ 52)
    (same : frameAddress first = frameAddress second) : first = second := by
  have equal := congrArg UInt64.toNat same
  rw [frameAddress_toNat small, frameAddress_toNat otherSmall] at equal
  omega

/-- A frame of an entry lies between its ends, also when the sum of base and length wrapped. -/
theorem frames_bounds {entry : MemoryMapEntry} {idx : Nat} (aligned : entry.base.toNat % 4096 = 0)
    (member : idx ∈ entry.frames) :
    entry.base.toNat ≤ idx * 4096 ∧ idx * 4096 + 4096 ≤ (entry.base.toNat + entry.length.toNat) % 2 ^ 64 := by
  unfold MemoryMapEntry.frames at member
  simp only [List.mem_range'_1, UInt64.toNat_div, UInt64.toNat_add, PAGE_SIZE_toNat] at member
  omega

theorem bitmapEnd_toNat {base : UInt64} {size : Nat} (room : base.toNat + size + 4095 < 2 ^ 64) :
    (base + UInt64.ofNat size + PAGE_SIZE - 1).toNat = base.toNat + size + 4095 := by
  rw [UInt64.toNat_sub, UInt64.toNat_add, UInt64.toNat_add, UInt64.toNat_ofNat', PAGE_SIZE_toNat]
  have one : (1 : UInt64).toNat = 1 := rfl
  omega

theorem mem_bitmapFrames_iff {base : UInt64} {size idx : Nat} (room : base.toNat + size + 4095 < 2 ^ 64) :
    idx ∈ bitmapFrames base size ↔ base.toNat / 4096 ≤ idx ∧ idx < (base.toNat + size + 4095) / 4096 := by
  unfold bitmapFrames
  simp only [List.mem_range'_1, UInt64.toNat_div, bitmapEnd_toNat room, PAGE_SIZE_toNat]
  omega

theorem mem_bitmapFrames {base : UInt64} {size idx : Nat} (room : base.toNat + size + 4095 < 2 ^ 64)
    (low : base.toNat / 4096 ≤ idx) (high : idx * 4096 < base.toNat + size) : idx ∈ bitmapFrames base size :=
  (mem_bitmapFrames_iff room).mpr ⟨low, by omega⟩

structure Eligible (entries : List MemoryMapEntry) (bitmapPhysAddr : UInt64) (bitmapSize : Nat) (pool frame : UInt64) :
    Prop where
  usable : ∃ entry ∈ entries, entry.isUsable = true ∧ entry.base.toNat ≤ frame.toNat ∧
    frame.toNat + 4096 ≤ entry.base.toNat + entry.length.toNat
  outsideBitmap : frame.toNat + 4096 ≤ bitmapPhysAddr.toNat ∨ bitmapPhysAddr.toNat + bitmapSize ≤ frame.toNat
  outsidePool : frame.toNat + 4096 ≤ pool.toNat ∨ pool.toNat + 65536 ≤ frame.toNat

theorem Prepared.eligible {entries : List MemoryMapEntry} {allocator : BitmapAllocator} {home : MemoryMapEntry}
    {size dmaStartFrame idx : Nat} (prepared : Prepared entries allocator home size dmaStartFrame)
    (limine : LimineMap entries) (inside : idx < allocator.totalFrames) (clear : allocator.getBit idx = some false) :
    Eligible entries allocator.bitmapPhysAddr size (frameAddress dmaStartFrame) (frameAddress idx) := by
  obtain ⟨⟨entry, member, usable, inEntry⟩, notBitmap, notPool⟩ := prepared.clear clear
  have small : idx < 2 ^ 52 := Nat.lt_of_lt_of_le inside prepared.total
  have bounds := frames_bounds (limine.aligned entry member usable).1 inEntry
  have wrapped := Nat.mod_le (entry.base.toNat + entry.length.toNat) (2 ^ 64)
  refine ⟨⟨entry, member, usable, ?_⟩, ?_, ?_⟩
  · rw [frameAddress_toNat small]
    omega
  · rw [frameAddress_toNat small, prepared.homeBase]
    by_cases same : entry = home
    · -- the entry that holds the bitmap does not wrap, for one of its frames is clear
      subst same
      by_contra overlap
      refine notBitmap (mem_bitmapFrames ?_ ?_ ?_)
      · have lengthAligned := (limine.aligned entry member usable).2
        have baseAligned := (limine.aligned entry member usable).1
        have fits := prepared.homeSize
        have baseSmall := entry.base.toNat_lt
        have lengthSmall := entry.length.toNat_lt
        omega
      · omega
      · omega
    · have apart := limine.disjoint.forall member prepared.homeMember same (.inl usable)
      have fits := prepared.homeSize
      omega
  · have poolSmall := prepared.dmaBound
    rw [frameAddress_toNat small, frameAddress_toNat (by omega)]
    simp only [List.mem_range'_1, dmaPages] at notPool
    omega

/-! ## Handing out and taking back -/

theorem containingAddress_frameAddress {idx : Nat} (small : idx < 2 ^ 52) :
    containingAddress (frameAddress idx) = frameAddress idx := by
  apply UInt64.toNat_inj.mp
  rw [containingAddress_toNat, frameAddress_toNat small]
  omega

/-- A call that hands out nothing changes nothing; otherwise the frame's bit was clear and is set. -/
theorem allocateFrom_spec {allocator : BitmapAllocator} {count i : Nat} {result : Option UInt64}
    (present : allocator.bitmap.isSome = true) (small : allocator.totalFrames ≤ 2 ^ 52)
    (nonempty : 0 < allocator.totalFrames) (returned : allocator.allocateFrom count i = some (after, result)) :
    (result = none ∧ after = allocator) ∨
    ∃ idx < allocator.totalFrames, allocator.getBit idx = some false ∧ result = some (frameAddress idx) ∧
      Rewrites allocator after (· = idx) true := by
  induction count generalizing i with
  | zero =>
    cases returned
    exact .inl ⟨rfl, rfl⟩
  | succ count ih =>
    obtain ⟨used, read, continued⟩ := Option.bind_eq_some_iff.mp returned
    cases used with
    | true => exact ih continued
    | false =>
      right
      obtain ⟨marked, written, continued⟩ := Option.bind_eq_some_iff.mp continued
      obtain ⟨physAddr, valid, same⟩ := Option.map_eq_some_iff.mp continued
      cases same
      have inside := Nat.mod_lt (allocator.lastAllocIdx + i) nonempty
      have bound := Nat.lt_of_lt_of_le inside small
      refine ⟨_, inside, read, ?_, ?_⟩
      · rw [(PhysAddr.new_eq valid).1]
        exact congrArg some (containingAddress_frameAddress bound)
      · exact (rewrites_setBit present written).moved _ _

theorem allocateFrame_spec {allocator : BitmapAllocator} {result : Option UInt64}
    (present : allocator.bitmap.isSome = true) (small : allocator.totalFrames ≤ 2 ^ 52)
    (returned : allocator.allocateFrame = some (after, result)) :
    (result = none ∧ after = allocator) ∨
    ∃ idx < allocator.totalFrames, allocator.getBit idx = some false ∧ result = some (frameAddress idx) ∧
      Rewrites allocator after (· = idx) true := by
  unfold allocateFrame at returned
  split at returned
  next =>
    cases returned
    exact .inl ⟨rfl, rfl⟩
  next =>
    rcases Nat.eq_zero_or_pos allocator.totalFrames with empty | nonempty
    · rw [empty] at returned
      cases returned
      exact .inl ⟨rfl, rfl⟩
    · exact allocateFrom_spec present small nonempty returned

theorem deallocateFrame_spec {allocator : BitmapAllocator} {idx : Nat} (present : allocator.bitmap.isSome = true)
    (small : idx < 2 ^ 52) (returned : allocator.deallocateFrame (frameAddress idx) = some after) :
    after = allocator ∨ Rewrites allocator after (· = idx) false := by
  have index : (frameAddress idx / PAGE_SIZE).toNat = idx := by
    rw [UInt64.toNat_div, frameAddress_toNat small, PAGE_SIZE_toNat]
    omega
  unfold deallocateFrame at returned
  simp only [index] at returned
  split at returned
  next =>
    obtain ⟨used, read, continued⟩ := Option.bind_eq_some_iff.mp returned
    cases used with
    | false =>
      cases continued
      exact .inl rfl
    | true =>
      obtain ⟨cleared, written, rfl⟩ := Option.map_eq_some_iff.mp continued
      exact .inr ((rewrites_setBit present written).count _)
  next =>
    cases returned
    exact .inl rfl

end BitmapAllocator

open BitmapAllocator

structure Ledger where
  allocator : BitmapAllocator
  returned : List UInt64
  live : List UInt64
  deriving DecidableEq, Repr

inductive FrameOp where
  | allocateFrame
  | deallocateFrame (frame : UInt64)
  deriving DecidableEq, Repr

namespace Ledger

/-- Only frames that were returned before are ever given back. -/
def step (ledger : Ledger) : FrameOp → Option Ledger
  | .allocateFrame => ledger.allocator.allocateFrame.map fun (allocator, result) =>
    ⟨allocator, result.toList ++ ledger.returned, result.toList ++ ledger.live⟩
  | .deallocateFrame frame =>
    if frame ∈ ledger.returned then
      (ledger.allocator.deallocateFrame frame).map fun allocator =>
        ⟨allocator, ledger.returned, ledger.live.filter (· ≠ frame)⟩
    else none

/-- A clear bit stands for a frame that may be handed out and that nobody holds. -/
structure Sound (eligible : UInt64 → Prop) (ledger : Ledger) : Prop where
  present : ledger.allocator.bitmap.isSome = true
  total : ledger.allocator.totalFrames ≤ 2 ^ 52
  clear : ∀ {idx}, idx < ledger.allocator.totalFrames → ledger.allocator.getBit idx = some false →
    eligible (frameAddress idx) ∧ frameAddress idx ∉ ledger.live
  returned : ∀ frame ∈ ledger.returned, ∃ idx < 2 ^ 52, frame = frameAddress idx ∧ eligible frame

variable {eligible : UInt64 → Prop} {ledger after : Ledger}

theorem Sound.allocate (sound : ledger.Sound eligible) {allocator : BitmapAllocator} {result : Option UInt64}
    (returned : ledger.allocator.allocateFrame = some (allocator, result)) :
    Sound eligible ⟨allocator, result.toList ++ ledger.returned, result.toList ++ ledger.live⟩ := by
  rcases allocateFrame_spec sound.present sound.total returned with ⟨rfl, rfl⟩ | ⟨idx, inside, clear, rfl, rewrites⟩
  · exact ⟨sound.present, sound.total, sound.clear, sound.returned⟩
  · have small : idx < 2 ^ 52 := Nat.lt_of_lt_of_le inside sound.total
    refine ⟨rewrites.present, by rw [rewrites.total]; exact sound.total, ?_, ?_⟩
    · intro other within free
      rw [rewrites.total] at within
      have different : other ≠ idx := by
        rintro rfl
        rw [rewrites.inside rfl] at free
        cases free
      rw [rewrites.outside different] at free
      obtain ⟨may, unheld⟩ := sound.clear within free
      refine ⟨may, ?_⟩
      simp only [Option.toList_some, List.singleton_append, List.mem_cons, not_or]
      exact ⟨fun same => different (frameAddress_inj (Nat.lt_of_lt_of_le within sound.total) small same), unheld⟩
    · intro frame member
      simp only [Option.toList_some, List.singleton_append, List.mem_cons] at member
      rcases member with rfl | earlier
      · exact ⟨idx, small, rfl, (sound.clear inside clear).1⟩
      · exact sound.returned frame earlier

theorem Sound.deallocate (sound : ledger.Sound eligible) {allocator : BitmapAllocator} {frame : UInt64}
    (known : frame ∈ ledger.returned) (done : ledger.allocator.deallocateFrame frame = some allocator) :
    Sound eligible ⟨allocator, ledger.returned, ledger.live.filter (· ≠ frame)⟩ := by
  obtain ⟨idx, small, rfl, may⟩ := sound.returned frame known
  rcases deallocateFrame_spec sound.present small done with rfl | rewrites
  · refine ⟨sound.present, sound.total, ?_, sound.returned⟩
    intro other within free
    obtain ⟨may, unheld⟩ := sound.clear within free
    exact ⟨may, fun member => unheld (List.mem_of_mem_filter member)⟩
  · refine ⟨rewrites.present, by rw [rewrites.total]; exact sound.total, ?_, sound.returned⟩
    intro other within free
    by_cases same : other = idx
    · subst same
      exact ⟨may, by simp⟩
    · rw [rewrites.total] at within
      rw [rewrites.outside same] at free
      obtain ⟨may, unheld⟩ := sound.clear within free
      exact ⟨may, fun member => unheld (List.mem_of_mem_filter member)⟩

theorem sound_of_init {entries : List MemoryMapEntry} {booted : BitmapAllocator} {pool : UInt64}
    (limine : LimineMap entries) (initialised : BitmapAllocator.init entries = some (booted, pool)) :
    Sound (Eligible entries booted.bitmapPhysAddr booted.bitmapBytes pool) ⟨booted, [], []⟩ ∧
      pool.toNat % 4096 = 0 := by
  obtain ⟨home, size, dmaStartFrame, prepared, rfl⟩ := prepared_of_init initialised
  have sized : booted.bitmapBytes = size := by
    obtain ⟨bitmap, holds, length⟩ := Option.map_eq_some_iff.mp prepared.length
    simp [bitmapBytes, holds, length]
  rw [sized]
  refine ⟨⟨prepared.present, prepared.total, ?_, by simp⟩, ?_⟩
  · intro idx inside clear
    exact ⟨prepared.eligible limine inside clear, by simp⟩
  · have poolSmall := prepared.dmaBound
    have start : (frameAddress dmaStartFrame).toNat = dmaStartFrame * 4096 := frameAddress_toNat (by omega)
    rw [frameAddress] at start
    omega

theorem Sound.step (sound : ledger.Sound eligible) {op : FrameOp} (taken : ledger.step op = some after) :
    after.Sound eligible := by
  cases op with
  | allocateFrame =>
    obtain ⟨⟨allocator, result⟩, returned, rfl⟩ := Option.map_eq_some_iff.mp taken
    exact sound.allocate returned
  | deallocateFrame frame =>
    simp only [Ledger.step] at taken
    split at taken
    next known =>
      obtain ⟨allocator, done, rfl⟩ := Option.map_eq_some_iff.mp taken
      exact sound.deallocate known done
    next => cases taken

/-- In every run from a boot that succeeded, a frame that is returned lies in a usable entry,
outside the bitmap and the DMA pool, and is not allocated at that moment. -/
theorem allocateFrame_exclusive {entries : List MemoryMapEntry} {booted allocator : BitmapAllocator}
    {pool frame : UInt64} {history : List (Ledger × FrameOp)} (limine : LimineMap entries)
    (initialised : BitmapAllocator.init entries = some (booted, pool))
    (run : Base.Run Ledger.step ⟨booted, [], []⟩ history ledger)
    (returned : ledger.allocator.allocateFrame = some (allocator, some frame)) :
    Eligible entries booted.bitmapPhysAddr booted.bitmapBytes pool frame ∧ frame ∉ ledger.live := by
  obtain ⟨initial, _⟩ := sound_of_init limine initialised
  have sound := run.always (Sound _) initial fun sound taken => sound.step taken
  rcases allocateFrame_spec sound.present sound.total returned with ⟨none, _⟩ | ⟨idx, inside, clear, same, _⟩
  · cases none
  · cases same
    exact sound.clear inside clear

/-- Two usable regions; a frame is given back and the next one is returned. -/
theorem exclusive_after_release : ∃ booted pool history ledger allocator,
    BitmapAllocator.init [⟨0x1000, 0x9000, .usable⟩, ⟨0x100000, 0x40000, .usable⟩] = some (booted, pool) ∧
    Base.Run Ledger.step ⟨booted, [], []⟩ history ledger ∧
    history.map Prod.snd = [.allocateFrame, .allocateFrame, .deallocateFrame 0x2000] ∧
    ledger.allocator.allocateFrame = some (allocator, some 0x4000) ∧
    Eligible [⟨0x1000, 0x9000, .usable⟩, ⟨0x100000, 0x40000, .usable⟩] booted.bitmapPhysAddr booted.bitmapBytes pool
      0x4000 ∧ 0x4000 ∉ ledger.live := by
  have limine : LimineMap [⟨0x1000, 0x9000, .usable⟩, ⟨0x100000, 0x40000, .usable⟩] :=
    ⟨by decide, by decide, by decide⟩
  have checked : ((BitmapAllocator.init [⟨0x1000, 0x9000, .usable⟩, ⟨0x100000, 0x40000, .usable⟩]).bind fun boot =>
      Base.execute Ledger.step (fun _ _ => true) ⟨boot.1, [], []⟩
        [.allocateFrame, .allocateFrame, .deallocateFrame 0x2000]).any
      (fun ledger => (ledger.allocator.allocateFrame.bind Prod.snd) == some 0x4000) = true := by decide +kernel
  obtain ⟨⟨booted, pool⟩, initialised⟩ : ∃ boot, BitmapAllocator.init [⟨0x1000, 0x9000, .usable⟩,
      ⟨0x100000, 0x40000, .usable⟩] = some boot := Option.isSome_iff_exists.mp (by decide +kernel)
  rw [initialised, Option.bind_some] at checked
  obtain ⟨history, ledger, run, labels, _, next⟩ := Base.Run.of_check Ledger.step (fun _ _ => true) ⟨booted, [], []⟩
    [.allocateFrame, .allocateFrame, .deallocateFrame 0x2000] _ checked
  obtain ⟨⟨allocator, result⟩, returned, rfl⟩ := Option.bind_eq_some_iff.mp (eq_of_beq next)
  exact ⟨booted, pool, history, ledger, allocator, initialised, run, labels, returned,
    allocateFrame_exclusive limine initialised run returned⟩

end Ledger

end ElseOS
