import ElseOS.Memory.Ownership
import ElseOS.Syscall.Mapping
import ElseOS.Syscall.Minting
import ElseOS.Syscall.Windows
import ElseOS.Task.Homes

/-! What a process can reach.

Every frame the allocator handed out has one use: it holds a page table, it was granted as a
capability, or it is data of the one address space it was loaded for. A page of a process
leads to its own data, or to memory that a capability in its own space is about. -/

set_option autoImplicit false

namespace ElseOS

open Base (Action Region)
open BitmapAllocator (LimineMap)
open DmaPool (grantRegion)

/-- Some byte of the frame lies in the range. -/
def Meets (frame : UInt64) (range : UInt64 × UInt64) : Prop :=
  ∃ byte, (grantRegion (frame, 4096)).Covers byte ∧ (grantRegion range).Covers byte

namespace Ledger

variable {eligible : UInt64 → Prop} {before after : BitmapAllocator} {taken frames : List UInt64}

theorem Sound.takes_fresh (sound : Sound eligible ⟨before, taken, taken⟩) (takes : before.Takes frames after) :
    Sound eligible ⟨after, frames.reverse ++ taken, frames.reverse ++ taken⟩ ∧ frames.Nodup ∧
      ∀ frame ∈ frames, frame ∉ taken := by
  induction takes generalizing taken with
  | nil => exact ⟨sound, .nil, by simp⟩
  | @cons first second third frame frames returned _ ih =>
    obtain ⟨unheld, _⟩ := sound.fresh returned
    obtain ⟨last, distinct, fresh⟩ := ih (sound.allocate returned)
    refine ⟨?_, ?_, ?_⟩
    · rw [List.reverse_cons, List.append_assoc]
      exact last
    · refine List.nodup_cons.mpr ⟨fun member => ?_, distinct⟩
      exact fresh frame member List.mem_cons_self
    · intro other member
      rcases List.mem_cons.mp member with rfl | later
      · exact unheld
      · exact fun old => fresh other later (List.mem_cons_of_mem _ old)

end Ledger

namespace Machine

variable {paging : Paging} {separate : paging.Separate} {platform : Platform} {entries : List MemoryMapEntry}
  {m after : Machine paging}

/-! ## The uses of frames -/

structure Uses where
  taken : List UInt64
  granted : List UInt64
  tables : List UInt64
  /-- The address space the frame is data of. -/
  owner : UInt64 → Option UInt64

/-- A table made before the kernel started is in memory that is neither usable nor a device's. -/
def Reserved (platform : Platform) (entries : List MemoryMapEntry) (home : UInt64) : Prop :=
  (∀ byte, (grantRegion (home, 4096)).Covers byte → ¬ Usable entries byte) ∧
  ∀ range ∈ deviceRanges platform, ¬ Meets home range

/-- Pages of the address space lead to its data or to memory of capabilities in the space. -/
def Reaches (memory : Memory paging) (owner : UInt64 → Option UInt64) (held : CSpace) (space : UInt64) : Prop :=
  ∀ frame, memory.Leads space frame → owner frame = some space ∨
    ∃ start len, held.Holds (.memoryMap start len) ∧ Meets frame (start, len)

def Backed (platform : Platform) (pool : Region) (granted : List UInt64) (range : UInt64 × UInt64) : Prop :=
  range ∈ deviceRanges platform ∨ (grantRegion range).Within pool ∨ ∃ frame ∈ granted, range = (frame, 4096)

structure Partitioned (separate : paging.Separate) (platform : Platform) (entries : List MemoryMapEntry)
    (m : Machine paging) (uses : Uses) : Prop where
  frames : Ledger.Sound (Spare entries m.dmaPool.region) ⟨m.memory.allocator, uses.taken, uses.taken⟩
  room : m.dmaPool.used.toNat ≤ 65536
  addressable : m.dmaPool.phys.toNat + 65536 < 2 ^ 64
  poolUsable : ∀ byte, m.dmaPool.region.Covers byte → Usable entries byte
  granted : ∀ frame ∈ uses.granted, frame ∈ uses.taken ∧ frame ∉ uses.tables ∧ uses.owner frame = none
  owned : ∀ frame space, uses.owner frame = some space → frame ∈ uses.taken ∧ frame ∉ uses.tables
  tables : ∀ home ∈ uses.tables, home ∈ uses.taken
  made : ∀ home, separate.table m.memory.tables home → home ∈ uses.tables ∨ Reserved platform entries home
  held : ∀ range, HoldsRange m.kernel range → Backed platform m.dmaPool.region uses.granted range
  homes : ∀ who, Kernel.Listed m.kernel.roster who → ∃ space cs, who.cr3 = some space ∧ who.cspace = some cs ∧
    space ∈ uses.tables ∧ cs < m.kernel.nextCSpace ∧ Reaches m.memory uses.owner (m.kernel.cspaces cs) space
  /-- Threads of one address space hold the same capabilities. -/
  together : ∀ who other, Kernel.Listed m.kernel.roster who → Kernel.Listed m.kernel.roster other →
    who.cr3 = other.cr3 → who.cspace = other.cspace

/-! ## Changes of the kernel alone -/

theorem Reaches.endures {memory : Memory paging} {owner : UInt64 → Option UInt64} {before after : Kernel}
    {cs : CSpaceRef} {space : UInt64} (endures : before.Endures after) (known : cs < before.nextCSpace)
    (reaches : Reaches memory owner (before.cspaces cs) space) : Reaches memory owner (after.cspaces cs) space := by
  intro frame leads
  rcases reaches frame leads with own | ⟨start, len, holds, meets⟩
  · exact .inl own
  · exact .inr ⟨start, len, endures.holds known holds, meets⟩

theorem Partitioned.kernel {uses : Uses} {kernel : Kernel} {ports : List PortAccess}
    (partitioned : Partitioned separate platform entries m uses) (endures : m.kernel.Endures kernel)
    (ranges : ∀ range, HoldsRange kernel range →
      HoldsRange m.kernel range ∨ Backed platform m.dmaPool.region uses.granted range)
    (arrivals : ∀ who, Kernel.Listed kernel.roster who →
      (∃ other, Kernel.Listed m.kernel.roster other ∧ Kernel.SharesHome other who) ∨
      ∃ space, who.cr3 = some space ∧ who.cspace = some m.kernel.nextCSpace ∧ space ∈ uses.tables ∧
        m.kernel.nextCSpace < kernel.nextCSpace ∧
        (∀ other, Kernel.Listed m.kernel.roster other → other.cr3 ≠ some space) ∧
        ∀ frame, m.memory.Leads space frame → uses.owner frame = some space) :
    Partitioned separate platform entries ⟨kernel, m.memory, m.dmaPool, ports⟩ uses := by
  refine ⟨partitioned.frames, partitioned.room, partitioned.addressable, partitioned.poolUsable, partitioned.granted,
    partitioned.owned, partitioned.tables, partitioned.made, ?_, ?_, ?_⟩
  · exact fun range holds => (ranges range holds).elim (partitioned.held range) id
  · intro who listed
    rcases arrivals who listed with ⟨other, stood, table, caps⟩ | ⟨space, isTable, isSpace, root, known, _, own⟩
    · obtain ⟨space, cs, isTable, isSpace, root, known, reaches⟩ := partitioned.homes other stood
      refine ⟨space, cs, table ▸ isTable, caps ▸ isSpace, root, Nat.lt_of_lt_of_le known endures.1, ?_⟩
      exact reaches.endures endures known
    · exact ⟨space, _, isTable, isSpace, root, known, fun frame leads => .inl (own frame leads)⟩
  · intro who other listed alsoListed sameTable
    rcases arrivals who listed with ⟨first, stood, table, caps⟩ | ⟨space, isTable, isSpace, _, _, alone, _⟩
    · rcases arrivals other alsoListed
        with ⟨second, alsoStood, otherTable, otherCaps⟩ | ⟨space, isTable, _, _, _, alone, _⟩
      · rw [← caps, ← otherCaps]
        exact partitioned.together first second stood alsoStood (by rw [table, otherTable, sameTable])
      · exact absurd (by rw [table, sameTable, isTable]) (alone first stood)
    · rcases arrivals other alsoListed with ⟨second, alsoStood, otherTable, _⟩ | ⟨_, _, alsoSpace, _⟩
      · exact absurd (by rw [otherTable, ← sameTable, isTable]) (alone second alsoStood)
      · rw [isSpace, alsoSpace]

theorem Partitioned.panic {uses : Uses} (partitioned : Partitioned separate platform entries m uses) :
    Partitioned separate platform entries m.panic.1 uses :=
  partitioned.kernel (.refl m.kernel) (fun _ holds => .inl holds) fun who listed => .inl ⟨who, listed, rfl, rfl⟩

theorem settles_of_continues {before after : Kernel} (orderly : before.Orderly) (populated : before.Populated)
    (continues : Continues before after) : before.Endures after ∧ Kernel.Settles before after := by
  obtain ⟨acts, run, isPlain⟩ := continues
  have all : after.Orderly ∧ after.Populated ∧ before.Endures after ∧ Kernel.Settles before after := by
    refine run.invariant (fun k => k.Orderly ∧ k.Populated ∧ before.Endures k ∧ Kernel.Settles before k)
      (fun _ op => plain op = true) ⟨orderly, populated, .refl before, Kernel.settles_refl before⟩ ?_ isPlain
    rintro k op next ⟨tidy, native, endures, settles⟩ isPlain taken
    refine ⟨tidy.step taken, native.step tidy taken, endures.trans (Kernel.endures_of_step native taken), ?_⟩
    apply settles.trans
    intro who listed
    rcases Kernel.home_of_step tidy taken listed with old | ⟨_, _, _, _, rfl, _⟩ | ⟨_, _, rfl⟩
    · exact old
    · cases isPlain
    · cases isPlain
  exact all.2.2

theorem Partitioned.plain {uses : Uses} (partitioned : Partitioned separate platform entries m uses)
    (orderly : m.kernel.Orderly) (populated : m.kernel.Populated) (isPlain : Plain m after) :
    Partitioned separate platform entries after uses := by
  obtain ⟨kernel, memory, pool, ports⟩ := after
  obtain ⟨continues, rfl, rfl⟩ := isPlain
  obtain ⟨endures, settles⟩ := settles_of_continues orderly populated continues
  refine partitioned.kernel endures ?_ fun who listed => .inl (settles who listed)
  exact fun range holds => .inl (holdsRange_of_schedules continues.schedules holds)

theorem Partitioned.grant {uses : Uses} {start len : UInt64}
    (partitioned : Partitioned separate platform entries m uses)
    (orderly : m.kernel.Orderly) (populated : m.kernel.Populated) (running : m.kernel.cpu.isRunning = true)
    (backed : Backed platform m.dmaPool.region uses.granted (start, len)) :
    Partitioned separate platform entries (m.call (m.kernel.grantMemory start len) UInt64.ofNat).1 uses := by
  have taken : m.kernel.step (.grantMemory start len) = some (m.kernel.grantMemory start len).1 :=
    step_of_running running
  refine partitioned.kernel (Kernel.endures_of_step populated taken) ?_ ?_
  · intro range holds
    rcases holdsRange_of_step taken holds with new | old
    · cases new
      exact .inr backed
    · exact .inl old
  · intro who listed
    rcases Kernel.home_of_step orderly taken listed with old | ⟨_, _, _, _, other, _⟩ | ⟨_, _, other⟩
    · exact .inl old
    · cases other
    · cases other

/-! ## Changes of memory alone -/

def Uses.take (uses : Uses) (frames data tables : List UInt64) (space : Option UInt64) : Uses where
  taken := frames.reverse ++ uses.taken
  granted := uses.granted
  tables := tables ++ uses.tables
  owner frame := if frame ∈ data then space else uses.owner frame

theorem Partitioned.take {uses : Uses} {memory : Memory paging} {frames data tables : List UInt64}
    {space : Option UInt64} (partitioned : Partitioned separate platform entries m uses)
    (takes : m.memory.allocator.Takes frames memory.allocator) (split : frames.Perm (data ++ tables))
    (made : ∀ home, separate.table memory.tables home → separate.table m.memory.tables home ∨ home ∈ tables)
    (leads : ∀ who other cs, Kernel.Listed m.kernel.roster who → who.cr3 = some other → who.cspace = some cs →
      ∀ frame, memory.Leads other frame → m.memory.Leads other frame ∨ (frame ∈ data ∧ space = some other) ∨
        ∃ start len, (m.kernel.cspaces cs).Holds (.memoryMap start len) ∧ Meets frame (start, len)) :
    Partitioned separate platform entries { m with memory := memory } (uses.take frames data tables space) := by
  obtain ⟨sound, distinct, fresh⟩ := partitioned.frames.takes_fresh takes
  have apart := (List.nodup_append.mp (split.nodup_iff.mp distinct)).2.2
  have isData : ∀ frame ∈ data, frame ∈ frames := fun frame member => split.mem_iff.mpr (List.mem_append_left _ member)
  have isTable : ∀ frame ∈ tables, frame ∈ frames :=
    fun frame member => split.mem_iff.mpr (List.mem_append_right _ member)
  -- a frame that was in use keeps its use
  have old : ∀ frame ∈ uses.taken, frame ∉ data ∧ frame ∉ tables := fun frame member =>
    ⟨fun new => fresh frame (isData frame new) member, fun new => fresh frame (isTable frame new) member⟩
  have owner : ∀ frame ∈ uses.taken, (uses.take frames data tables space).owner frame = uses.owner frame :=
    fun frame member => if_neg (old frame member).1
  refine ⟨sound, partitioned.room, partitioned.addressable, partitioned.poolUsable, ?_, ?_, ?_, ?_,
    partitioned.held, ?_, partitioned.together⟩
  · intro frame member
    obtain ⟨taken, noTable, unowned⟩ := partitioned.granted frame member
    refine ⟨List.mem_append_right _ taken, ?_, (owner frame taken).trans unowned⟩
    exact fun table => (List.mem_append.mp table).elim (old frame taken).2 noTable
  · intro frame other owned
    by_cases new : frame ∈ data
    · refine ⟨List.mem_append_left _ (List.mem_reverse.mpr (isData frame new)), fun table => ?_⟩
      rcases List.mem_append.mp table with also | earlier
      · exact apart frame new frame also rfl
      · exact (old frame (partitioned.tables frame earlier)).1 new
    · have before : uses.owner frame = some other := (if_neg new).symm.trans owned
      obtain ⟨taken, noTable⟩ := partitioned.owned frame other before
      refine ⟨List.mem_append_right _ taken, fun table => ?_⟩
      exact (List.mem_append.mp table).elim (old frame taken).2 noTable
  · intro home table
    rcases List.mem_append.mp table with new | earlier
    · exact List.mem_append_left _ (List.mem_reverse.mpr (isTable home new))
    · exact List.mem_append_right _ (partitioned.tables home earlier)
  · intro home table
    rcases made home table with earlier | new
    · exact (partitioned.made home earlier).imp_left (List.mem_append_right _)
    · exact .inl (List.mem_append_left _ new)
  · intro who listed
    obtain ⟨other, cs, hasTable, hasSpace, root, known, reaches⟩ := partitioned.homes who listed
    refine ⟨other, cs, hasTable, hasSpace, List.mem_append_right _ root, known, ?_⟩
    intro frame leadsThere
    rcases leads who other cs listed hasTable hasSpace frame leadsThere with earlier | ⟨new, isOwner⟩ | granted
    · rcases reaches frame earlier with own | granted
      · exact .inl ((owner frame (partitioned.owned frame other own).1).trans own)
      · exact .inr granted
    · exact .inl ((if_pos new).trans isOwner)
    · exact .inr granted

theorem Partitioned.pool {uses : Uses} {pool : DmaPool} (partitioned : Partitioned separate platform entries m uses)
    (phys : pool.phys = m.dmaPool.phys) (room : pool.used.toNat ≤ 65536) (ram : Ram) :
    Partitioned separate platform entries { m with dmaPool := pool, memory := { m.memory with ram := ram } } uses := by
  have region : pool.region = m.dmaPool.region := by
    unfold DmaPool.region
    rw [phys]
  refine ⟨region ▸ partitioned.frames, room, phys ▸ partitioned.addressable, region ▸ partitioned.poolUsable,
    partitioned.granted, partitioned.owned, partitioned.tables, partitioned.made, ?_, partitioned.homes,
    partitioned.together⟩
  change ∀ range, HoldsRange m.kernel range → Backed platform pool.region uses.granted range
  rw [region]
  exact partitioned.held

theorem Partitioned.enlist {uses : Uses} {frame : UInt64} (partitioned : Partitioned separate platform entries m uses)
    (taken : frame ∈ uses.taken) (noTable : frame ∉ uses.tables) (unowned : uses.owner frame = none) :
    Partitioned separate platform entries m { uses with granted := frame :: uses.granted } := by
  refine ⟨partitioned.frames, partitioned.room, partitioned.addressable, partitioned.poolUsable, ?_, partitioned.owned,
    partitioned.tables, partitioned.made, ?_, partitioned.homes, partitioned.together⟩
  · intro other member
    rcases List.mem_cons.mp member with rfl | earlier
    · exact ⟨taken, noTable, unowned⟩
    · exact partitioned.granted other earlier
  · intro range holds
    rcases partitioned.held range holds with device | pool | ⟨other, earlier, same⟩
    · exact .inl device
    · exact .inr (.inl pool)
    · exact .inr (.inr ⟨other, List.mem_cons_of_mem _ earlier, same⟩)

/-! ## Mapping memory -/

theorem windowPages_inside {virtAddr len : UInt64} {i : Nat} (aligned : virtAddr.toNat % 4096 = 0)
    (positive : virtAddr ≠ 0) (inside : i < windowPages virtAddr len) : i * 4096 < len.toNat := by
  have start : virtAddr.toNat ≠ 0 := fun zero => positive (UInt64.toNat_inj.mp zero)
  have last : (virtAddr + len - 1).toNat = (2 ^ 64 - 1 + (virtAddr.toNat + len.toNat) % 2 ^ 64) % 2 ^ 64 := by
    rw [UInt64.toNat_sub, UInt64.toNat_add]
    rfl
  have lastBlock := containingAddress_toNat (virtAddr + len - 1)
  have virtSmall := virtAddr.toNat_lt
  have lenSmall := len.toNat_lt
  unfold windowPages pagesInclusive at inside
  rw [containingAddress_aligned aligned] at inside
  split at inside
  next ordered =>
    have order := UInt64.le_iff_toNat_le.mp ordered
    rw [UInt64.toNat_div, UInt64.toNat_sub_of_le _ _ ordered, PAGE_SIZE_toNat] at inside
    omega
  next => omega

/-- Every frame of an allowed request lies in part in the capability's range. -/
theorem meets_of_allowed {start len virtAddr frame : UInt64} {actual : UInt64 × UInt64} {i : Nat}
    (allowed : mapAllowed start len actual = true) (aligned : virtAddr.toNat % 4096 = 0) (positive : virtAddr ≠ 0)
    (physical : actual.1.toNat < 2 ^ 52) (inside : i < windowPages virtAddr actual.2)
    (address : frame.toNat = actual.1.toNat / 4096 * 4096 + i * 4096) : Meets frame (start, len) := by
  have before := windowPages_inside aligned positive inside
  simp only [mapAllowed, Bool.and_eq_true, decide_eq_true_eq, UInt64.le_iff_toNat_le] at allowed
  obtain ⟨⟨low, high⟩, _⟩ := allowed
  have frameSmall := frame.toNat_lt
  have four : (4096 : UInt64).toNat = 4096 := rfl
  have top : u64Max.toNat = 2 ^ 64 - 1 := rfl
  have stop : max frame.toNat actual.1.toNat < start.toNat + len.toNat := by
    unfold saturatingAdd at high
    split at high <;> split at high <;> simp only [UInt64.toNat_add, top] at high <;> omega
  refine ⟨max frame.toNat actual.1.toNat, ?_, ?_⟩
  · simp only [grantRegion, Region.Covers, Region.stop, four]
    omega
  · simp only [grantRegion, Region.Covers, Region.stop]
    omega

theorem mapLoop_invalid {cr3 page phys : UInt64} {count : Nat} {mem after : Memory paging} {result : Option UInt64}
    (invalid : PhysAddr.new phys = none) (ran : forPages (mapPage cr3) count page phys mem = (after, result)) :
    after = mem := by
  have stops : mapPage cr3 page phys mem = (mem, none) := by
    unfold mapPage
    rw [invalid]
    rfl
  cases count with
  | zero =>
    cases ran
    rfl
  | succ count =>
    rw [forPages] at ran
    cases advanced : nextPage page with
    | none =>
      rw [advanced] at ran
      cases ran
      rfl
    | some next =>
      rw [advanced, Action.expect_some_bind, Action.bind_none stops] at ran
      cases ran
      rfl

/-- A new page leads to a frame of the request; an address that is not physical maps nothing. -/
theorem leads_mapWindow {cr3 virtAddr phys len frame : UInt64} {mem : Memory paging}
    (leads : (mapWindow cr3 virtAddr phys len mem).1.Leads cr3 frame) :
    mem.Leads cr3 frame ∨ (phys.toNat < 2 ^ 52 ∧ ∃ i < windowPages virtAddr len,
      frame.toNat = phys.toNat / 4096 * 4096 + i * 4096) := by
  rcases ran : mapWindow cr3 virtAddr phys len mem with ⟨after, result⟩
  rw [ran] at leads
  obtain ⟨page, flags, low, mapped⟩ := leads
  rcases Memory.forAddresses_cases ran with ⟨rfl, _⟩ | looped
  · exact .inl ⟨page, flags, low, mapped⟩
  · rcases mapLoop_makes looped page with same | ⟨_, i, inside, other, made, address⟩
    · exact .inl ⟨page, flags, low, same ▸ mapped⟩
    · cases valid : PhysAddr.new phys with
      | none =>
        rw [mapLoop_invalid valid looped] at mapped
        exact .inl ⟨page, flags, low, mapped⟩
      | some addr =>
        rw [made] at mapped
        cases mapped
        exact .inr ⟨(PhysAddr.new_eq valid).2, i, inside, address⟩

theorem fills_mapPage (cr3 page currentPhys : UInt64) :
    Action.Keeps (Memory.Fills separate (fun _ => True) cr3) (mapPage cr3 page currentPhys) := by
  refine (Action.keeps_expect _).bind fun addr => Action.Keeps.bind (fun mem => ?_) fun _ => Action.keeps_pure _
  exact ⟨[], Memory.extends_expectMapTo mem page mmioFlags trivial⟩

theorem fills_mapWindow (separate : paging.Separate) (cr3 virtAddr actualPhys actualLen : UInt64) :
    Action.Keeps (Memory.Fills separate (fun _ => True) cr3) (mapWindow cr3 virtAddr actualPhys actualLen) :=
  Memory.keeps_forAddresses (fills_mapPage cr3) virtAddr (virtAddr + actualLen - 1) actualPhys

/-- The capability is in the caller's space, and so in that of every thread that sees the pages. -/
theorem Partitioned.mapWindow {uses : Uses} (partitioned : Partitioned separate platform entries m uses)
    {current : Thread} {cs : CSpaceRef} {start len virtAddr cr3 : UInt64} {actual : UInt64 × UInt64}
    {memory : Memory paging} {result : Option UInt64}
    (isCurrent : m.kernel.scheduler.current = some current) (hasSpace : current.cspace = some cs)
    (holds : (m.kernel.cspaces cs).Holds (.memoryMap start len)) (allowed : mapAllowed start len actual = true)
    (aligned : virtAddr.toNat % 4096 = 0) (positive : virtAddr ≠ 0) (table : current.cr3 = some cr3)
    (ran : mapWindow cr3 virtAddr actual.1 actual.2 m.memory = (memory, result)) :
    ∃ uses, Partitioned separate platform entries { m with memory := memory } uses := by
  have fills := fills_mapWindow separate cr3 virtAddr actual.1 actual.2 m.memory
  have reached {frame : UInt64} := @leads_mapWindow _ cr3 virtAddr actual.1 actual.2 frame m.memory
  rw [ran] at fills reached
  obtain ⟨data, tables, filled⟩ := fills
  obtain ⟨frames, takes, split⟩ := filled.takes
  have listed : Kernel.Listed m.kernel.roster current.identity :=
    ⟨.current, by rw [Kernel.roster_current isCurrent]; exact List.mem_singleton_self _⟩
  refine ⟨uses.take frames data tables none, partitioned.take takes split filled.made ?_⟩
  intro who other space isListed hasTable isSpace frame leads
  by_cases same : other = cr3
  · subst same
    rcases reached leads with old | ⟨physical, i, inside, address⟩
    · exact .inl old
    · have hasCaps := partitioned.together who current.identity isListed listed (hasTable.trans table.symm)
      obtain rfl : space = cs := Option.some.inj (isSpace.symm.trans (hasCaps.trans hasSpace))
      exact .inr (.inr ⟨start, len, holds, meets_of_allowed allowed aligned positive physical inside address⟩)
  · obtain ⟨page, flags, low, mapped⟩ := leads
    exact .inl ⟨page, flags, low, (filled.elsewhere other page same low).symm.trans mapped⟩

theorem Partitioned.mapRange {uses : Uses} (partitioned : Partitioned separate platform entries m uses)
    {current : Thread} {cs : CSpaceRef} {start len virtAddr : UInt64} {actual : UInt64 × UInt64}
    (isCurrent : m.kernel.scheduler.current = some current) (hasSpace : current.cspace = some cs)
    (holds : (m.kernel.cspaces cs).Holds (.memoryMap start len)) (allowed : mapAllowed start len actual = true)
    (aligned : virtAddr.toNat % 4096 = 0) (positive : virtAddr ≠ 0) :
    ∃ uses, Partitioned separate platform entries (m.mapRange current.cr3 virtAddr actual).1 uses := by
  unfold Machine.mapRange
  cases table : current.cr3 with
  | none => exact ⟨uses, partitioned.panic⟩
  | some cr3 =>
    dsimp only
    split
    next memory ran =>
      obtain ⟨uses, mapped⟩ := partitioned.mapWindow isCurrent hasSpace holds allowed aligned positive table ran
      exact ⟨uses, mapped.panic⟩
    next memory last ran => exact partitioned.mapWindow isCurrent hasSpace holds allowed aligned positive table ran

/-! ## The calls -/

theorem Partitioned.sysMapPhys {uses : Uses} (partitioned : Partitioned separate platform entries m uses)
    {handle : UInt64} (positive : windowAddr handle ≠ 0) (physAddr length : UInt64) :
    ∃ uses, Partitioned separate platform entries (m.sysMapPhys handle physAddr length).1 uses := by
  unfold Machine.sysMapPhys
  split
  · exact ⟨uses, partitioned.panic⟩
  next current cs start len found =>
    obtain ⟨isCurrent, hasSpace, held⟩ := Kernel.lookup_eq found
    dsimp only
    split
    next allowed => exact partitioned.mapRange isCurrent hasSpace ⟨_, held⟩ allowed (windowAddr_aligned handle) positive
    next => exact ⟨uses, partitioned⟩
  · exact ⟨uses, partitioned⟩

theorem Partitioned.sysFrameAlloc {uses : Uses} (partitioned : Partitioned separate platform entries m uses)
    (orderly : m.kernel.Orderly) (populated : m.kernel.Populated) (running : m.kernel.cpu.isRunning = true)
    (size : UInt64) : ∃ uses, Partitioned separate platform entries (m.sysFrameAlloc size).1 uses := by
  unfold Machine.sysFrameAlloc
  split
  · exact ⟨uses, partitioned⟩
  · rcases Memory.allocateFrame_cases m.memory with ⟨allocator, frame, asked, takes⟩ | asked | asked <;> rw [asked]
    · let memory : Memory paging := ⟨allocator, m.memory.tables, m.memory.ram.fill frame PAGE_SIZE 0⟩
      have taken :
        Partitioned separate platform entries { m with memory := memory } (uses.take [frame] [frame] [] none) :=
        partitioned.take takes (.refl _) (fun _ table => .inl table) fun _ _ _ _ _ _ _ leads => .inl leads
      obtain ⟨_, _, fresh⟩ := partitioned.frames.takes_fresh takes
      have unused := fresh frame List.mem_cons_self
      have inTaken : frame ∈ (uses.take [frame] [frame] [] none).taken := List.mem_cons_self
      have granted := taken.enlist inTaken (fun table => unused (partitioned.tables frame table))
        (if_pos List.mem_cons_self)
      exact ⟨_, granted.grant orderly populated running (.inr (.inr ⟨frame, List.mem_cons_self, rfl⟩))⟩
    · exact ⟨uses, partitioned⟩
    · exact ⟨uses, partitioned.panic⟩

theorem Partitioned.sysDmaAlloc {uses : Uses} (partitioned : Partitioned separate platform entries m uses)
    (orderly : m.kernel.Orderly) (populated : m.kernel.Populated) (running : m.kernel.cpu.isRunning = true)
    {size : UInt64} (small : size.toNat ≤ 2 ^ 64 - 4096) :
    ∃ uses, Partitioned separate platform entries (m.sysDmaAlloc platform size).1 uses := by
  unfold Machine.sysDmaAlloc
  split
  next pool ram result called =>
    have allocates := DmaPool.allocate_spec small partitioned.room called
    have served := partitioned.pool allocates.phys allocates.used ram
    match result with
    | none => exact ⟨uses, served.panic⟩
    | some none => exact ⟨uses, served⟩
    | some (some phys) =>
      refine ⟨uses, served.grant orderly populated running (.inr (.inl ?_))⟩
      obtain ⟨rfl, moved⟩ := allocates.granted rfl
      have bound := allocates.used
      have addressable := partitioned.addressable
      have start := UInt64.toNat_add m.dmaPool.phys m.dmaPool.used
      simp only [grantRegion, DmaPool.region, Region.Within, Region.stop, allocates.phys]
      omega

theorem Partitioned.load {uses : Uses} (partitioned : Partitioned separate platform entries m uses) {image : ElfImage}
    {currentCr3 : UInt64} {memory : Memory paging} {result : Option (UInt64 × UInt64)}
    (loaded : Elf.load image currentCr3 m.memory = (memory, result)) :
    ∃ uses, Partitioned separate platform entries { m with memory := memory } uses ∧
      ∀ entryPoint cr3, result = some (entryPoint, cr3) → cr3 ∈ uses.tables ∧
        (∀ who, Kernel.Listed m.kernel.roster who → who.cr3 ≠ some cr3) ∧
        ∀ frame, memory.Leads cr3 frame → uses.owner frame = some cr3 := by
  obtain ⟨data, tables, loads⟩ := Elf.installs_load separate image currentCr3 m.memory
  rw [loaded] at loads
  obtain ⟨frames, takes, split⟩ := loads.takes
  obtain ⟨_, _, fresh⟩ := partitioned.frames.takes_fresh takes
  -- the tables of threads were there before
  have apart : ∀ who, Kernel.Listed m.kernel.roster who → ∀ space, who.cr3 = some space → space ∉ tables := by
    intro who listed space table new
    obtain ⟨_, _, hasTable, _, root, _⟩ := partitioned.homes who listed
    obtain rfl := Option.some.inj (hasTable.symm.trans table)
    exact fresh _ (split.mem_iff.mpr (List.mem_append_right _ new)) (partitioned.tables _ root)
  refine ⟨uses.take frames data tables (result.map Prod.snd), partitioned.take takes split loads.made ?_, ?_⟩
  · rintro who other cs listed hasTable _ frame ⟨page, flags, low, mapped⟩
    exact .inl ⟨page, flags, low, (loads.elsewhere other page (apart who listed other hasTable) low).symm.trans mapped⟩
  · rintro entryPoint cr3 rfl
    obtain ⟨root, reached⟩ := loads.space entryPoint cr3 rfl
    refine ⟨List.mem_append_left _ root, ?_, ?_⟩
    · exact fun who listed hasTable => apart who listed cr3 hasTable root
    · exact fun frame leads => if_pos (reached frame leads)

theorem Partitioned.spawnChild {uses : Uses} (partitioned : Partitioned separate platform entries m uses)
    (orderly : m.kernel.Orderly) (populated : m.kernel.Populated) (running : m.kernel.cpu.isRunning = true)
    {cr3 : UInt64} (epHandle entryPoint stackBase : UInt64) (root : cr3 ∈ uses.tables)
    (alone : ∀ who, Kernel.Listed m.kernel.roster who → who.cr3 ≠ some cr3)
    (own : ∀ frame, m.memory.Leads cr3 frame → uses.owner frame = some cr3) :
    Partitioned separate platform entries
      (m.call (m.kernel.spawnChild epHandle entryPoint cr3 stackBase) UInt64.ofNat).1 uses := by
  have taken : m.kernel.step (.spawnChild epHandle entryPoint cr3 stackBase) =
      some (m.kernel.spawnChild epHandle entryPoint cr3 stackBase).1 := step_of_running running
  have native := populated.step orderly taken
  refine partitioned.kernel (Kernel.endures_of_step populated taken) ?_ ?_
  · intro range holds
    exact .inl ((holdsRange_of_step taken holds).resolve_left nofun)
  · intro who listed
    rcases Kernel.home_of_step orderly taken listed with old | ⟨_, _, _, _, spawned, table, space⟩ | ⟨_, _, other⟩
    · exact .inl old
    · cases spawned
      obtain ⟨place, member⟩ := listed
      obtain ⟨cs, known, hasSpace⟩ := (native place who member).cspace
      obtain rfl := Option.some.inj (hasSpace.symm.trans space)
      exact .inr ⟨cr3, table, space, root, known, alone, own⟩
    · cases other

theorem Partitioned.sysSpawn {uses : Uses} (partitioned : Partitioned separate platform entries m uses)
    (orderly : m.kernel.Orderly) (populated : m.kernel.Populated) (running : m.kernel.cpu.isRunning = true)
    (namePtr nameLen epHandle : UInt64) (env : CallEnv) :
    ∃ uses, Partitioned separate platform entries (m.sysSpawn platform namePtr nameLen epHandle env).1 uses := by
  unfold Machine.sysSpawn
  split
  · cases env.text with
    | none => exact ⟨uses, partitioned.panic⟩
    | some name =>
      dsimp only
      split
      · split
        · exact ⟨uses, partitioned.panic⟩
        · exact ⟨uses, partitioned⟩
        · split
          next memory loaded =>
            obtain ⟨uses, loading, _⟩ := partitioned.load loaded
            exact ⟨uses, loading.panic⟩
          next memory entryPoint cr3 loaded =>
            obtain ⟨uses, loading, spaces⟩ := partitioned.load loaded
            obtain ⟨root, alone, own⟩ := spaces entryPoint cr3 rfl
            exact ⟨uses, loading.spawnChild orderly populated running epHandle entryPoint env.stackBase root alone own⟩
      · exact ⟨uses, partitioned⟩
  · exact ⟨uses, partitioned⟩

/-! ## Boot -/

theorem builds_mapMmio (cr3 hhdmOffset : UInt64) (ranges : List (UInt64 × UInt64)) :
    Action.Keeps (Memory.Builds separate) (mapMmio cr3 hhdmOffset ranges) := by
  induction ranges with
  | nil => exact Action.keeps_pure ()
  | cons range rest ih => exact (Memory.builds_ensureMapped _ _ _ _).bind fun _ => ih

/-- What is taken before the first image is loaded is the kernel's own: its heap and its tables. -/
theorem builds_of_boot {args : BootArgs paging} {booted : Machine paging} (started : boot platform args = some booted) :
    ∃ allocator filled image entryPoint cr3, BitmapAllocator.init args.entries = some (allocator, booted.dmaPool.phys) ∧
      Memory.Builds separate ⟨allocator, args.tables, args.ram⟩ filled ∧
      Elf.load image args.cr3 filled = (booted.memory, some (entryPoint, cr3)) ∧ booted.dmaPool.used = 0 ∧
      booted.kernel = Kernel.booted args.cr3 ⟨platform.framebuffer, platform.nic, booted.dmaPool.phys⟩
        ⟨entryPoint, cr3, args.stackBase⟩ := by
  unfold boot at started
  obtain ⟨⟨allocator, dmaPoolPhys⟩, initialised, started⟩ := Option.bind_eq_some_iff.mp started
  obtain ⟨image, _, started⟩ := Option.bind_eq_some_iff.mp started
  split at started
  next => cases started
  next memory entryPoint cr3 ran =>
    cases started
    obtain ⟨middle, _, heap, ran⟩ := Action.bind_eq_some ran
    obtain ⟨filled, _, devices, loaded⟩ := Action.bind_eq_some ran
    have builtHeap := @Memory.builds_heapInit paging separate args.cr3 ⟨allocator, args.tables, args.ram⟩
    have builtDevices := @builds_mapMmio paging separate args.cr3 platform.hhdmOffset args.mmio middle
    rw [heap] at builtHeap
    rw [devices] at builtDevices
    exact ⟨allocator, filled, image, entryPoint, cr3, initialised, IsTrans.trans _ _ _ builtHeap builtDevices,
      loaded, rfl, rfl⟩

theorem partitioned_of_boot {args : BootArgs paging} {booted : Machine paging} (limine : LimineMap args.entries)
    (reserved : ∀ home, separate.table args.tables home → Reserved platform args.entries home)
    (started : boot platform args = some booted) :
    ∃ uses, Partitioned separate platform args.entries booted uses := by
  obtain ⟨allocator, filled, image, entryPoint, cr3, initialised, ⟨frames, takes, built⟩, loaded, unused, isBooted⟩ :=
    @builds_of_boot _ separate _ _ _ started
  obtain ⟨addressable, usable⟩ := pool_of_init limine initialised
  obtain ⟨data, tables, loads⟩ := Elf.installs_load separate image args.cr3 filled
  rw [loaded] at loads
  obtain ⟨further, takesMore, split⟩ := loads.takes
  obtain ⟨sound, _⟩ := Ledger.sound_of_init limine initialised
  obtain ⟨sound, _, _⟩ := (sound.mono fun frame => spare_of_eligible).takes_fresh takes
  obtain ⟨sound, distinct, fresh⟩ := sound.takes_fresh takesMore
  have apart := (List.nodup_append.mp (split.nodup_iff.mp distinct)).2.2
  have isData : ∀ frame ∈ data, frame ∈ further := fun frame member => split.mem_iff.mpr (List.mem_append_left _ member)
  obtain ⟨root, reached⟩ := loads.space entryPoint cr3 rfl
  have inhabitant : ∀ who, Kernel.Listed booted.kernel.roster who → who.cspace = some 0 ∧ who.cr3 = some cr3 := by
    rintro who ⟨place, member⟩
    rw [isBooted] at member
    obtain ⟨space, table, _⟩ := Kernel.init_of_booted member
    exact ⟨space, table⟩
  refine ⟨⟨further.reverse ++ (frames.reverse ++ []), [], tables ++ frames,
    fun frame => if frame ∈ data then some cr3 else none⟩,
    sound, by simp [unused], addressable, usable, by simp, ?_, ?_, ?_, ?_, ?_, ?_⟩
  · intro frame space owned
    have isOwned : frame ∈ data := by
      by_contra other
      simp [other] at owned
    refine ⟨List.mem_append_left _ (List.mem_reverse.mpr (isData frame isOwned)), fun table => ?_⟩
    rcases List.mem_append.mp table with new | old
    · exact apart frame isOwned frame new rfl
    · exact fresh frame (isData frame isOwned) (by simpa using old)
  · intro home table
    rcases List.mem_append.mp table with new | old
    · exact List.mem_append_left _ (List.mem_reverse.mpr (split.mem_iff.mpr (List.mem_append_right _ new)))
    · exact List.mem_append_right _ (by simpa using old)
  · intro home table
    rcases loads.made home table with old | new
    · rcases built home old with older | kernel
      · exact .inr (reserved home older)
      · exact .inl (List.mem_append_right _ kernel)
    · exact .inl (List.mem_append_left _ new)
  · rintro ⟨start, len⟩ ⟨cs, holds⟩
    rw [isBooted] at holds
    obtain ⟨_, handle, granted⟩ := Kernel.holds_booted holds
    rcases List.mem_append.mp (bootRanges_of_grants granted) with device | pool
    · exact .inl device
    · obtain ⟨nic, _, same⟩ := Option.map_eq_some_iff.mp (Option.mem_toList.mp pool)
      cases same
      exact .inr (.inl ⟨Nat.le_refl _, Nat.le_refl _⟩)
  · intro who listed
    obtain ⟨space, table⟩ := inhabitant who listed
    refine ⟨cr3, 0, table, space, List.mem_append_left _ root, ?_,
      fun frame leads => .inl (if_pos (reached frame leads))⟩
    rw [isBooted]
    exact Nat.one_pos
  · intro who other listed alsoListed _
    rw [(inhabitant who listed).1, (inhabitant other alsoListed).1]

/-! ## Runs -/

/-- The calls whose arithmetic does not wrap: the size of a DMA request can be rounded up, and the window
of a mapping is not at address 0. -/
def unwrapped : Act → Prop
  | .syscall regs _ => (regs.rax = 14 → regs.rdi.toNat ≤ 2 ^ 64 - 4096) ∧ (regs.rax = 11 → windowAddr regs.rdi ≠ 0)
  | _ => True

theorem Partitioned.step {uses : Uses} {act : Act} (partitioned : Partitioned separate platform entries m uses)
    (orderly : m.kernel.Orderly) (populated : m.kernel.Populated) (inRange : unwrapped act)
    (taken : m.step platform act = some after) : ∃ uses, Partitioned separate platform entries after uses := by
  rcases handled_of_step taken with ⟨regs, env, rfl, running, rfl⟩ | ⟨_, isPlain⟩
  · by_cases map : regs.rax = 11
    · rw [handler_map map]
      exact partitioned.sysMapPhys (inRange.2 map) _ _
    · by_cases frame : regs.rax = 13
      · rw [handler_frame frame]
        exact partitioned.sysFrameAlloc orderly populated running _
      · by_cases dma : regs.rax = 14
        · rw [handler_dma dma]
          exact partitioned.sysDmaAlloc orderly populated running (inRange.1 dma)
        · by_cases spawn : regs.rax = 6
          · rw [handler_spawn spawn]
            exact partitioned.sysSpawn orderly populated running _ _ _ env
          · exact ⟨uses, partitioned.plain orderly populated (plain_of_handler running env spawn map frame dma)⟩
  · exact ⟨uses, partitioned.plain orderly populated isPlain⟩

theorem partitioned_of_run {args : BootArgs paging} {booted : Machine paging} {history : List (Machine paging × Act)}
    (limine : LimineMap args.entries)
    (reserved : ∀ home, separate.table args.tables home → Reserved platform args.entries home)
    (started : boot platform args = some booted) (run : Base.Run (step platform) booted history m)
    (inRange : Base.Run.Guarded (fun _ act => unwrapped act) history) :
    ∃ uses, Partitioned separate platform args.entries m uses := by
  refine run.induct (fun history m => Base.Run.Guarded (fun _ act => unwrapped act) history →
    ∃ uses, Partitioned separate platform args.entries m uses) ?_ ?_ inRange
  · exact fun _ => partitioned_of_boot limine reserved started
  · intro past state act next earlier soFar taken guarded
    rw [Base.Run.guarded_append] at guarded
    obtain ⟨uses, partitioned⟩ := soFar guarded.1
    obtain ⟨_, _, kernelRun⟩ := kernelRun_of_run started earlier
    exact partitioned.step (Kernel.orderly_of_run kernelRun) (Kernel.populated_of_run kernelRun) guarded.2 taken

/-! ## What the uses say about reach -/

theorem Partitioned.unmet {uses : Uses} (partitioned : Partitioned separate platform entries m uses)
    (devices : DevicesApart platform entries) {frame : UInt64} {range : UInt64 × UInt64} (taken : frame ∈ uses.taken)
    (ungranted : frame ∉ uses.granted) (held : HoldsRange m.kernel range) : ¬ Meets frame range := by
  rintro ⟨byte, inFrame, inRange⟩
  obtain ⟨idx, small, rfl, spare⟩ := partitioned.frames.returned frame taken
  rcases partitioned.held range held with device | pool | ⟨other, granted, rfl⟩
  · exact devices range device byte inRange (spare.1 byte inFrame)
  · exact spare.2 byte inFrame (pool.covers inRange)
  · obtain ⟨otherIdx, otherSmall, rfl, _⟩ := partitioned.frames.returned other (partitioned.granted other granted).1
    refine frames_disjoint small otherSmall ?_ byte inFrame inRange
    intro same
    rw [same] at ungranted
    exact ungranted granted

theorem Partitioned.reserved_unmet {uses : Uses} (partitioned : Partitioned separate platform entries m uses)
    {home : UInt64} {range : UInt64 × UInt64} (reserved : Reserved platform entries home)
    (held : HoldsRange m.kernel range) : ¬ Meets home range := by
  rcases partitioned.held range held with device | pool | ⟨other, granted, rfl⟩
  · exact reserved.2 range device
  · rintro ⟨byte, inFrame, inRange⟩
    exact reserved.1 byte inFrame (partitioned.poolUsable byte (pool.covers inRange))
  · rintro ⟨byte, inFrame, inRange⟩
    obtain ⟨_, _, _, spare⟩ := partitioned.frames.returned other (partitioned.granted other granted).1
    exact reserved.1 byte inFrame (spare.1 byte inRange)

theorem Partitioned.owned_unreserved {uses : Uses} (partitioned : Partitioned separate platform entries m uses)
    {frame : UInt64} (taken : frame ∈ uses.taken) : ¬ Reserved platform entries frame := by
  intro reserved
  obtain ⟨_, _, _, spare⟩ := partitioned.frames.returned frame taken
  have first : (grantRegion (frame, 4096)).Covers frame.toNat :=
    ⟨Nat.le_refl _, Nat.lt_add_of_pos_right (show 0 < (4096 : UInt64).toNat by decide)⟩
  exact reserved.1 _ first (spare.1 _ first)

/-- No other address space leads to the frame, and no capability is about its memory. -/
def Private (m : Machine paging) (space frame : UInt64) : Prop :=
  (∀ who other, Kernel.Listed m.kernel.roster who → who.cr3 = some other → other ≠ space →
    ¬ m.memory.Leads other frame) ∧
  ∀ range, HoldsRange m.kernel range → ¬ Meets frame range

theorem Partitioned.owned_private {uses : Uses} (partitioned : Partitioned separate platform entries m uses)
    (devices : DevicesApart platform entries) {space frame : UInt64} (owned : uses.owner frame = some space) :
    Private m space frame := by
  have taken := (partitioned.owned frame space owned).1
  have ungranted : frame ∉ uses.granted := by
    intro granted
    rw [(partitioned.granted frame granted).2.2] at owned
    cases owned
  refine ⟨?_, fun range held => partitioned.unmet devices taken ungranted held⟩
  intro who other listed table different leads
  obtain ⟨_, cs, hasTable, _, _, _, reaches⟩ := partitioned.homes who listed
  obtain rfl := Option.some.inj (hasTable.symm.trans table)
  rcases reaches frame leads with own | ⟨start, len, holds, meets⟩
  · exact different (Option.some.inj (own.symm.trans owned))
  · exact partitioned.unmet devices taken ungranted ⟨cs, holds⟩ meets

theorem Partitioned.no_table {uses : Uses} (partitioned : Partitioned separate platform entries m uses)
    (devices : DevicesApart platform entries) {space frame : UInt64} {cs : CSpaceRef}
    (reached : uses.owner frame = some space ∨
      ∃ start len, (m.kernel.cspaces cs).Holds (.memoryMap start len) ∧ Meets frame (start, len)) :
    ¬ separate.table m.memory.tables frame := by
  intro table
  rcases reached with owned | ⟨start, len, holds, meets⟩
  · obtain ⟨taken, noTable⟩ := partitioned.owned frame space owned
    rcases partitioned.made frame table with made | reserved
    · exact noTable made
    · exact partitioned.owned_unreserved taken reserved
  · rcases partitioned.made frame table with made | reserved
    · refine partitioned.unmet devices (partitioned.tables frame made) ?_ ⟨cs, holds⟩ meets
      exact fun granted => (partitioned.granted frame granted).2.1 made
    · exact partitioned.reserved_unmet reserved ⟨cs, holds⟩ meets

def recordedArgs : BootArgs Paging.recorded where
  entries := sampleArgs.entries
  cr3 := sampleArgs.cr3
  tables := ⟨[], [sampleArgs.cr3]⟩
  ram := sampleArgs.ram
  mmio := sampleArgs.mmio
  stackBase := sampleArgs.stackBase

theorem recorded_reserved (home : UInt64) (table : Paging.recordedSeparate.table recordedArgs.tables home) :
    Reserved (samplePlatform none) recordedArgs.entries home := by
  obtain rfl := List.mem_singleton.mp table
  refine ⟨?_, by simp [deviceRanges, samplePlatform]⟩
  rintro byte ⟨low, high⟩ ⟨entry, member, _, start, stop⟩
  have first : (⟨0x1000, 0x1000, .usable⟩ : MemoryMapEntry).region = ⟨0x1000, 0x1000⟩ := rfl
  have second : (⟨0x100000, 0x80000, .usable⟩ : MemoryMapEntry).region = ⟨0x100000, 0x80000⟩ := rfl
  have here : grantRegion (sampleArgs.cr3, 4096) = ⟨0x2000, 0x1000⟩ := rfl
  simp only [here, Region.stop] at low high
  simp only [recordedArgs, sampleArgs, List.mem_cons, List.not_mem_nil, or_false] at member
  rcases member with rfl | rfl
  · simp only [first, Region.stop] at start stop
    omega
  · simp only [second, Region.stop] at start stop
    omega

end Machine

end ElseOS
