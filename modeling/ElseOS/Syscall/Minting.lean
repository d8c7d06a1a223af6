import ElseOS.Machine
import ElseOS.Memory.FrameExclusivity
import ElseOS.Task.Authority

/-! Which memory the capabilities granted by `SYS_FRAME_ALLOC` and `SYS_DMA_ALLOC` cover.

Every memory capability is accounted for: boot placed it, the frame ledger returned its
frame, or the DMA ledger granted it. The two ledgers draw from disjoint parts of usable
memory, but boot hands the whole DMA pool to `init` when there is a network card. -/

set_option autoImplicit false

namespace ElseOS

open Base (Region)
open BitmapAllocator
open DmaPool (grantRegion)

def MemoryMapEntry.region (entry : MemoryMapEntry) : Region := ⟨entry.base.toNat, entry.length.toNat⟩

def Usable (entries : List MemoryMapEntry) (byte : Nat) : Prop :=
  ∃ entry ∈ entries, entry.isUsable = true ∧ entry.region.Covers byte

/-! ## The frames and the pool -/

def Spare (entries : List MemoryMapEntry) (pool : Region) (frame : UInt64) : Prop :=
  (∀ byte, (grantRegion (frame, 4096)).Covers byte → Usable entries byte) ∧ (grantRegion (frame, 4096)).Disjoint pool

theorem spare_of_eligible {entries : List MemoryMapEntry} {bitmapPhysAddr pool frame : UInt64} {bitmapSize : Nat}
    (eligible : Eligible entries bitmapPhysAddr bitmapSize pool frame) : Spare entries ⟨pool.toNat, 65536⟩ frame := by
  constructor
  · rintro byte ⟨low, high⟩
    obtain ⟨entry, member, usable, start, stop⟩ := eligible.usable
    refine ⟨entry, member, usable, Nat.le_trans start low, ?_⟩
    exact Nat.lt_of_lt_of_le high stop
  · rcases eligible.outsidePool with before | after
    · exact Region.disjoint_of_le before
    · apply Region.Disjoint.symm
      exact Region.disjoint_of_le after

theorem pool_of_init {entries : List MemoryMapEntry} {booted : BitmapAllocator} {pool : UInt64}
    (limine : LimineMap entries) (initialised : BitmapAllocator.init entries = some (booted, pool)) :
    pool.toNat + 65536 < 2 ^ 64 ∧ ∀ byte, (⟨pool.toNat, 65536⟩ : Region).Covers byte → Usable entries byte := by
  obtain ⟨home, size, dmaStartFrame, prepared, rfl⟩ := prepared_of_init initialised
  have bound := prepared.dmaBound
  have start : (UInt64.ofNat dmaStartFrame * PAGE_SIZE).toNat = dmaStartFrame * 4096 :=
    @frameAddress_toNat dmaStartFrame (by omega)
  rw [start]
  simp only [dmaPages] at bound
  refine ⟨by omega, ?_⟩
  rintro byte ⟨low, high⟩
  simp only [Region.stop] at low high
  obtain ⟨entry, member, usable, inEntry⟩ := prepared.dmaUsable (byte / 4096) (by
    rw [List.mem_range'_1, dmaPages]
    omega)
  have bounds := frames_bounds (limine.aligned entry member usable).1 inEntry
  have wrapped := Nat.mod_le (entry.base.toNat + entry.length.toNat) (2 ^ 64)
  refine ⟨entry, member, usable, ?_, ?_⟩
  · change entry.base.toNat ≤ byte
    omega
  · change byte < entry.base.toNat + entry.length.toNat
    omega

namespace Ledger

variable {eligible weaker : UInt64 → Prop}

theorem Sound.mono {ledger : Ledger} (sound : ledger.Sound eligible) (weaken : ∀ frame, eligible frame → weaker frame) :
    ledger.Sound weaker := by
  refine ⟨sound.present, sound.total, ?_, ?_⟩
  · intro idx inside clear
    obtain ⟨may, unheld⟩ := sound.clear inside clear
    exact ⟨weaken _ may, unheld⟩
  · intro frame member
    obtain ⟨idx, small, same, may⟩ := sound.returned frame member
    exact ⟨idx, small, same, weaken _ may⟩

theorem Sound.takes {before after : BitmapAllocator} {taken frames : List UInt64}
    (sound : Sound eligible ⟨before, taken, taken⟩) (takes : before.Takes frames after) :
    ∃ more, (∀ frame ∈ taken, frame ∈ more) ∧ Sound eligible ⟨after, more, more⟩ := by
  induction takes generalizing taken with
  | nil => exact ⟨taken, fun _ member => member, sound⟩
  | @cons first second third frame frames returned _ ih =>
    obtain ⟨more, kept, sound⟩ := ih (sound.allocate returned)
    exact ⟨more, fun other member => kept other (List.mem_append_right _ member), sound⟩

theorem Sound.fresh {before after : BitmapAllocator} {taken : List UInt64} {frame : UInt64}
    (sound : Sound eligible ⟨before, taken, taken⟩) (returned : before.allocateFrame = some (after, some frame)) :
    frame ∉ taken ∧ eligible frame ∧ ∃ idx < 2 ^ 52, frame = frameAddress idx := by
  rcases allocateFrame_spec sound.present sound.total returned with ⟨none, _⟩ | ⟨idx, inside, clear, same, _⟩
  · cases none
  · cases same
    obtain ⟨may, unheld⟩ := sound.clear inside clear
    exact ⟨unheld, may, idx, Nat.lt_of_lt_of_le inside sound.total, rfl⟩

end Ledger

theorem frames_disjoint {first second : Nat} (small : first < 2 ^ 52) (otherSmall : second < 2 ^ 52)
    (different : frameAddress first ≠ frameAddress second) :
    (grantRegion (frameAddress first, 4096)).Disjoint (grantRegion (frameAddress second, 4096)) := by
  have distinct : first ≠ second := fun same => different (congrArg frameAddress same)
  have four : (4096 : UInt64).toNat = 4096 := rfl
  rintro byte ⟨low, high⟩ ⟨alsoLow, alsoHigh⟩
  simp only [grantRegion, Region.stop, frameAddress_toNat small, frameAddress_toNat otherSmall,
    four] at low high alsoLow alsoHigh
  omega

/-! ## What boot grants -/

/-- The device memory boot grants: the framebuffer and the registers of the network card. -/
def deviceRanges (platform : Platform) : List (UInt64 × UInt64) :=
  (platform.framebuffer.map fun fb => (fb.physicalAddress, fb.size)).toList ++
  (platform.nic.bind fun nic =>
    if nic.bar0IsIo then none else some (nic.bar0Base.toUInt64, nic.bar0Size.toUInt64)).toList

def DevicesApart (platform : Platform) (entries : List MemoryMapEntry) : Prop :=
  ∀ range ∈ deviceRanges platform, ∀ byte, (grantRegion range).Covers byte → ¬ Usable entries byte

def bootRanges (platform : Platform) (dmaPoolPhys : UInt64) : List (UInt64 × UInt64) :=
  deviceRanges platform ++ (platform.nic.map fun _ => (dmaPoolPhys, (65536 : UInt64))).toList

theorem bootRanges_of_grants {platform : Platform} {dmaPoolPhys start len : UInt64} {handle : Nat}
    (granted : (handle, Capability.memoryMap start len) ∈
      BootInfo.grants ⟨platform.framebuffer, platform.nic, dmaPoolPhys⟩) :
    (start, len) ∈ bootRanges platform dmaPoolPhys := by
  unfold BootInfo.grants at granted
  unfold bootRanges deviceRanges
  simp only [List.mem_append, List.mem_cons, Prod.mk.injEq, reduceCtorEq, and_false, List.not_mem_nil, or_false,
    false_or] at granted
  rcases granted with display | card
  · cases isDisplay : platform.framebuffer with
    | none => simp [isDisplay] at display
    | some fb =>
      simp only [isDisplay, List.mem_singleton, Prod.mk.injEq, Capability.memoryMap.injEq] at display
      simp [display]
  · cases isCard : platform.nic with
    | none => simp [isCard] at card
    | some nic =>
      simp only [isCard, List.mem_cons, Prod.mk.injEq, reduceCtorEq, and_false, false_or, List.not_mem_nil, or_false,
        Capability.memoryMap.injEq, PciDevice.bar0Cap] at card
      rcases card with ⟨_, registers⟩ | ⟨_, pool⟩
      · split at registers
        next => cases registers
        next notIo =>
          cases registers
          simp [notIo]
      · simp [pool]

namespace Machine

variable {paging : Paging} {platform : Platform} {entries : List MemoryMapEntry} {m after : Machine paging}
  {taken : List UInt64} {granted : List (UInt64 × UInt64)}

/-! ## Held ranges -/

def HoldsRange (k : Kernel) (range : UInt64 × UInt64) : Prop :=
  ∃ cs, (k.cspaces cs).Holds (.memoryMap range.1 range.2)

theorem holdsRange_of_step {before after : Kernel} {op : Op} {range : UInt64 × UInt64}
    (taken : before.step op = some after) (holds : HoldsRange after range) :
    minted op = some range ∨ HoldsRange before range := by
  obtain ⟨cs, held⟩ := holds
  generalize isRange : Capability.memoryMap range.1 range.2 = cap at held
  cases Kernel.origin_of_grants (Kernel.grants_of_step taken) held with
  | kept old => exact .inr ⟨cs, isRange ▸ old⟩
  | endpoint _ => cases isRange
  | memory _ =>
    cases isRange
    exact .inl rfl
  | child _ => cases isRange
  | @inherited parent _ _ _ _ _ _ old _ => exact .inr ⟨parent, isRange ▸ old⟩

theorem holdsRange_of_schedules {before after : Kernel} {range : UInt64 × UInt64} (schedules : Schedules before after)
    (holds : HoldsRange after range) : HoldsRange before range := by
  obtain ⟨acts, run, plain⟩ := schedules
  induction run with
  | start => exact holds
  | next _ moved ih =>
    rcases holdsRange_of_step moved holds with new | old
    · have none := plain _ (List.mem_append_right _ (List.mem_singleton.mpr rfl))
      rw [none] at new
      cases new
    · exact ih old fun entry member => plain entry (List.mem_append_left _ member)

theorem not_halted (running : m.kernel.cpu.isRunning = true) : decide (m.kernel.cpu = .halted) = false := by
  obtain ⟨tid, cpu⟩ := Cpu.running_of_isRunning running
  simp [cpu]

theorem halted_of_schedules {before after : Kernel} (schedules : Schedules before after)
    (halted : before.cpu = .halted) : after.cpu = .halted := by
  obtain ⟨acts, run, _⟩ := schedules
  refine run.always (fun k => k.cpu = .halted) halted ?_
  intro k op next stopped moved
  rw [Kernel.step_stuck (.inl stopped)] at moved
  cases moved

/-! ## Every range is accounted for -/

/-- Every held range was placed by boot, is a frame in use, or was granted from the pool. -/
structure Accounts (platform : Platform) (entries : List MemoryMapEntry) (m : Machine paging) (taken : List UInt64)
    (granted : List (UInt64 × UInt64)) : Prop where
  frames : Ledger.Sound (Spare entries m.dmaPool.region) ⟨m.memory.allocator, taken, taken⟩
  pool : DmaLedger.Stacked ⟨m.dmaPool, m.memory.ram, granted, decide (m.kernel.cpu = .halted)⟩
  poolUsable : ∀ byte, m.dmaPool.region.Covers byte → Usable entries byte
  unshared : platform.nic ≠ none → ∀ grant ∈ granted, grant.2 = 0
  held : ∀ range, HoldsRange m.kernel range →
    range ∈ bootRanges platform m.dmaPool.phys ∨ (range.1 ∈ taken ∧ range.2 = 4096) ∨ range ∈ granted

/-- The condition under which `SYS_DMA_ALLOC` mints memory nobody has: its size can be rounded up, and unless there
is no network card it asks for nothing or for more than is left. -/
def sparesPool (platform : Platform) (m : Machine paging) : Act → Prop
  | .syscall regs _ => regs.rax = 14 → regs.rdi.toNat ≤ 2 ^ 64 - 4096 ∧
      (platform.nic = none ∨ regs.rdi = 0 ∨ 65536 < m.dmaPool.used.toNat + regs.rdi.toNat)
  | _ => True

theorem stacked_congr {pool : DmaPool} {ram other : Ram} {halted stopped : Bool}
    (stacked : DmaLedger.Stacked ⟨pool, ram, granted, halted⟩) (sooner : stopped = false → halted = false) :
    DmaLedger.Stacked ⟨pool, other, granted, stopped⟩ :=
  ⟨⟨stacked.inside, stacked.disjoint, stacked.used⟩, stacked.addressable, fun running => stacked.below (sooner running)⟩

theorem Accounts.quiet (accounts : Accounts platform entries m taken granted) (quiet : Quiet m after) :
    ∃ more, Accounts platform entries after more granted := by
  obtain ⟨frames, takes⟩ := quiet.takes
  obtain ⟨more, kept, sound⟩ := accounts.frames.takes takes
  have samePool := quiet.dmaPool
  refine ⟨more, ?_, ?_, ?_, accounts.unshared, ?_⟩
  · rw [samePool]
    exact sound
  · rw [samePool]
    refine stacked_congr accounts.pool fun running => ?_
    simp only [decide_eq_false_iff_not] at running ⊢
    exact fun halted => running (halted_of_schedules quiet.schedules halted)
  · rw [samePool]
    exact accounts.poolUsable
  · rw [samePool]
    intro range holds
    rcases accounts.held range (holdsRange_of_schedules quiet.schedules holds) with boot | ⟨frame, size⟩ | dma
    · exact .inl boot
    · exact .inr (.inl ⟨kept _ frame, size⟩)
    · exact .inr (.inr dma)

theorem Accounts.frame {frame : UInt64} {kernel : Kernel} {memory : Memory paging} {ports : List PortAccess}
    (accounts : Accounts platform entries m taken granted) (running : m.kernel.cpu.isRunning = true)
    (returned : m.memory.allocator.allocateFrame = some (memory.allocator, some frame))
    (minted : m.kernel.step (.grantMemory frame 4096) = some kernel) :
    Accounts platform entries ⟨kernel, memory, m.dmaPool, ports⟩ (frame :: taken) granted := by
  refine ⟨accounts.frames.allocate returned, ?_, accounts.poolUsable, accounts.unshared, ?_⟩
  · exact stacked_congr accounts.pool fun _ => not_halted running
  · intro range holds
    rcases holdsRange_of_step minted holds with new | old
    · cases new
      exact .inr (.inl ⟨List.mem_cons_self, rfl⟩)
    · rcases accounts.held range old with boot | ⟨frame, size⟩ | dma
      · exact .inl boot
      · exact .inr (.inl ⟨List.mem_cons_of_mem _ frame, size⟩)
      · exact .inr (.inr dma)

section Dma

variable {pool : DmaPool} {ram : Ram} {hhdmOffset phys size : UInt64} {ports : List PortAccess}

theorem Accounts.ledgerStep {result : Option (Option UInt64)} {ledger : DmaLedger}
    (accounts : Accounts platform entries m taken granted) (running : m.kernel.cpu.isRunning = true)
    (small : size.toNat ≤ 2 ^ 64 - 4096)
    (called : m.dmaPool.allocateDmaFrames m.memory.ram hhdmOffset size = (pool, ram, result))
    (same : DmaLedger.step hhdmOffset ⟨m.dmaPool, m.memory.ram, granted, false⟩ size = some ledger) :
    pool.region = m.dmaPool.region ∧ pool.phys = m.dmaPool.phys ∧ ledger.Stacked := by
  have stacked : DmaLedger.Stacked ⟨m.dmaPool, m.memory.ram, granted, false⟩ :=
    stacked_congr accounts.pool fun _ => not_halted running
  have allocates := DmaPool.allocate_spec small accounts.pool.used called
  refine ⟨?_, allocates.phys, stacked.step small same⟩
  rw [DmaPool.region, DmaPool.region, allocates.phys]

theorem Accounts.dma {kernel : Kernel} (accounts : Accounts platform entries m taken granted)
    (running : m.kernel.cpu.isRunning = true) (small : size.toNat ≤ 2 ^ 64 - 4096)
    (spared : platform.nic = none ∨ size = 0)
    (called : m.dmaPool.allocateDmaFrames m.memory.ram hhdmOffset size = (pool, ram, some (some phys)))
    (minted : m.kernel.step (.grantMemory phys size) = some kernel) :
    Accounts platform entries ⟨kernel, { m.memory with ram := ram }, pool, ports⟩ taken ((phys, size) :: granted) := by
  obtain ⟨sameRegion, samePhys, stacked⟩ := accounts.ledgerStep running small called (by
    simp only [DmaLedger.step, called]
    rfl)
  refine ⟨sameRegion ▸ accounts.frames, stacked_congr stacked fun _ => rfl, sameRegion ▸ accounts.poolUsable, ?_, ?_⟩
  · intro card grant member
    rcases List.mem_cons.mp member with rfl | earlier
    · exact spared.resolve_left card
    · exact accounts.unshared card grant earlier
  · intro range holds
    rcases holdsRange_of_step minted holds with new | old
    · cases new
      exact .inr (.inr List.mem_cons_self)
    · rw [samePhys]
      rcases accounts.held range old with boot | frame | dma
      · exact .inl boot
      · exact .inr (.inl frame)
      · exact .inr (.inr (List.mem_cons_of_mem _ dma))

/-- A request that grants nothing is refused, or faults and halts the system. -/
theorem Accounts.noDma {kernel : Kernel} {result : Option (Option UInt64)}
    (accounts : Accounts platform entries m taken granted)
    (running : m.kernel.cpu.isRunning = true) (small : size.toNat ≤ 2 ^ 64 - 4096)
    (called : m.dmaPool.allocateDmaFrames m.memory.ram hhdmOffset size = (pool, ram, result))
    (outcome : (result = some none ∧ kernel = m.kernel) ∨ (result = none ∧ kernel = m.kernel.panic)) :
    Accounts platform entries ⟨kernel, { m.memory with ram := ram }, pool, ports⟩ taken granted := by
  have sameSpaces : kernel.cspaces = m.kernel.cspaces := by
    rcases outcome with ⟨_, rfl⟩ | ⟨_, rfl⟩ <;> rfl
  have ledgerStep : ∃ stopped, DmaLedger.step hhdmOffset ⟨m.dmaPool, m.memory.ram, granted, false⟩ size =
      some ⟨pool, ram, granted, stopped⟩ ∧ (decide (kernel.cpu = .halted) = false → stopped = false) := by
    rcases outcome with ⟨rfl, rfl⟩ | ⟨rfl, rfl⟩
    · exact ⟨false, by simp only [DmaLedger.step, called]; rfl, fun _ => rfl⟩
    · exact ⟨true, by simp only [DmaLedger.step, called]; rfl, fun running => by simp [Kernel.panic] at running⟩
  obtain ⟨stopped, same, sooner⟩ := ledgerStep
  obtain ⟨sameRegion, samePhys, stacked⟩ := accounts.ledgerStep running small called same
  refine ⟨sameRegion ▸ accounts.frames, stacked_congr stacked sooner, sameRegion ▸ accounts.poolUsable,
    accounts.unshared, ?_⟩
  rintro range ⟨cs, holds⟩
  rw [samePhys]
  exact accounts.held range ⟨cs, sameSpaces ▸ holds⟩

end Dma

theorem spared_of_granted {pool : DmaPool} {ram : Ram} {hhdmOffset phys size : UInt64}
    (room : m.dmaPool.used.toNat ≤ 65536) (small : size.toNat ≤ 2 ^ 64 - 4096)
    (spares : platform.nic = none ∨ size = 0 ∨ 65536 < m.dmaPool.used.toNat + size.toNat)
    (called : m.dmaPool.allocateDmaFrames m.memory.ram hhdmOffset size = (pool, ram, some (some phys))) :
    platform.nic = none ∨ size = 0 := by
  rcases spares with none | empty | large
  · exact .inl none
  · exact .inr empty
  · have allocates := DmaPool.allocate_spec small room called
    have bound := allocates.used
    have moved := (allocates.granted rfl).2
    omega

theorem Accounts.step {act : Act} (accounts : Accounts platform entries m taken granted)
    (spares : sparesPool platform m act)
    (moved : m.step platform act = some after) : ∃ taken granted, Accounts platform entries after taken granted := by
  rcases effects_of_step moved with ⟨regs, env, rfl, running, effects⟩ | ⟨_, quiet⟩
  · cases effects with
    | quiet _ _ quiet =>
      obtain ⟨more, accounts⟩ := accounts.quiet quiet
      exact ⟨more, granted, accounts⟩
    | noFrame _ quiet _ =>
      obtain ⟨more, accounts⟩ := accounts.quiet quiet
      exact ⟨more, granted, accounts⟩
    | frame _ returned minted => exact ⟨_, granted, accounts.frame running returned minted⟩
    | dmaRefused call called =>
      exact ⟨taken, granted, accounts.noDma running (spares call).1 called (.inl ⟨rfl, rfl⟩)⟩
    | dmaFault call called =>
      exact ⟨taken, granted, accounts.noDma running (spares call).1 called (.inr ⟨rfl, rfl⟩)⟩
    | dma call called minted =>
      have spared := spared_of_granted accounts.pool.used (spares call).1 (spares call).2 called
      exact ⟨taken, _, accounts.dma running (spares call).1 spared called minted⟩
  · obtain ⟨more, accounts⟩ := accounts.quiet quiet
    exact ⟨more, granted, accounts⟩

theorem accounts_of_boot {args : BootArgs paging} {booted : Machine paging} (limine : LimineMap args.entries)
    (started : boot platform args = some booted) : ∃ taken, Accounts platform args.entries booted taken [] := by
  obtain ⟨allocator, image, initialised, ⟨frames, takes⟩, unused, isBooted⟩ := boot_spec started
  obtain ⟨sound, _⟩ := Ledger.sound_of_init limine initialised
  obtain ⟨addressable, usable⟩ := pool_of_init limine initialised
  obtain ⟨taken, _, sound⟩ := (sound.mono fun frame => spare_of_eligible).takes takes
  refine ⟨taken, sound, ?_, usable, by simp, ?_⟩
  · exact ⟨⟨by simp, by simp, by simp [unused]⟩, addressable, by simp⟩
  · rintro range ⟨cs, holds⟩
    rw [isBooted] at holds
    obtain ⟨_, handle, granted⟩ := Kernel.holds_booted holds
    exact .inl (bootRanges_of_grants granted)

/-! ## Exclusive grants -/

def Exclusive (k : Kernel) (range : UInt64 × UInt64) : Prop :=
  ∀ other, HoldsRange k other → (grantRegion range).Disjoint (grantRegion other)

theorem Accounts.frame_apart {frame : UInt64} {other : UInt64 × UInt64}
    (accounts : Accounts platform entries m taken granted)
    (devices : DevicesApart platform entries) (spare : Spare entries m.dmaPool.region frame)
    (source : other ∈ bootRanges platform m.dmaPool.phys ∨ other ∈ granted) :
    (grantRegion (frame, 4096)).Disjoint (grantRegion other) := by
  rcases source with boot | dma
  · rcases List.mem_append.mp boot with device | pool
    · exact fun byte covered also => devices other device byte also (spare.1 byte covered)
    · obtain ⟨nic, _, rfl⟩ := Option.map_eq_some_iff.mp (Option.mem_toList.mp pool)
      exact spare.2
  · apply Region.Disjoint.symm
    exact spare.2.symm.within (accounts.pool.inside other dma)

theorem Accounts.pool_apart {range other : UInt64 × UInt64} (accounts : Accounts platform entries m taken granted)
    (devices : DevicesApart platform entries) (within : (grantRegion range).Within m.dmaPool.region)
    (spared : platform.nic = none ∨ range.2 = 0) (boot : other ∈ bootRanges platform m.dmaPool.phys) :
    (grantRegion range).Disjoint (grantRegion other) := by
  rcases spared with none | empty
  · rcases List.mem_append.mp boot with device | pool
    · exact fun byte covered also => devices other device byte also (accounts.poolUsable byte (within.covers covered))
    · simp [none] at pool
  · apply Region.Disjoint.symm
    exact Region.disjoint_of_empty (by simp [grantRegion, empty])

theorem Accounts.frame_exclusive {frame : UInt64} {allocator : BitmapAllocator}
    (accounts : Accounts platform entries m taken granted) (devices : DevicesApart platform entries)
    (returned : m.memory.allocator.allocateFrame = some (allocator, some frame)) :
    Exclusive m.kernel (frame, 4096) := by
  obtain ⟨unheld, spare, idx, small, rfl⟩ := accounts.frames.fresh returned
  rintro ⟨start, len⟩ holds
  rcases accounts.held _ holds with boot | ⟨member, size⟩ | dma
  · exact accounts.frame_apart devices spare (.inl boot)
  · obtain ⟨other, otherSmall, rfl, _⟩ := accounts.frames.returned start member
    obtain rfl : len = 4096 := size
    exact frames_disjoint small otherSmall fun same => unheld (by rw [same]; exact member)
  · exact accounts.frame_apart devices spare (.inr dma)

theorem Accounts.dma_exclusive {pool : DmaPool} {ram : Ram} {hhdmOffset phys size : UInt64}
    (accounts : Accounts platform entries m taken granted) (devices : DevicesApart platform entries)
    (running : m.kernel.cpu.isRunning = true) (small : size.toNat ≤ 2 ^ 64 - 4096)
    (spared : platform.nic = none ∨ size = 0)
    (called : m.dmaPool.allocateDmaFrames m.memory.ram hhdmOffset size = (pool, ram, some (some phys))) :
    Exclusive m.kernel (phys, size) := by
  have room : m.dmaPool.used.toNat ≤ 65536 := accounts.pool.used
  have addressable : m.dmaPool.phys.toNat + 65536 < 2 ^ 64 := accounts.pool.addressable
  have allocates := DmaPool.allocate_spec small room called
  obtain ⟨rfl, moved⟩ := allocates.granted rfl
  have bound := allocates.used
  have start : (m.dmaPool.phys + m.dmaPool.used).toNat = m.dmaPool.phys.toNat + m.dmaPool.used.toNat := by
    rw [UInt64.toNat_add]
    omega
  have within : (grantRegion (m.dmaPool.phys + m.dmaPool.used, size)).Within m.dmaPool.region := by
    simp only [grantRegion, DmaPool.region, Region.Within, Region.stop, start]
    omega
  intro other holds
  rcases accounts.held other holds with boot | ⟨member, whole⟩ | dma
  · exact accounts.pool_apart devices within spared boot
  · obtain ⟨_, _, _, spare⟩ := accounts.frames.returned other.1 member
    have apart : (grantRegion (other.1, 4096)).Disjoint m.dmaPool.region := spare.2
    rw [← whole] at apart
    exact apart.symm.within within
  · -- the pool is handed out from the bottom
    have below := accounts.pool.below (not_halted running) other dma
    apply Region.Disjoint.symm
    apply Region.disjoint_of_le
    rw [show (grantRegion (m.dmaPool.phys + m.dmaPool.used, size)).start = _ from start]
    exact below

theorem Accounts.frame_alone {first second : UInt64 × UInt64} (accounts : Accounts platform entries m taken granted)
    (devices : DevicesApart platform entries) (frame : first.1 ∈ taken ∧ first.2 = 4096)
    (holds : HoldsRange m.kernel second) : first = second ∨ (grantRegion first).Disjoint (grantRegion second) := by
  obtain ⟨start, len⟩ := first
  obtain ⟨member, rfl⟩ : start ∈ taken ∧ len = 4096 := frame
  obtain ⟨idx, small, rfl, spare⟩ := accounts.frames.returned start member
  rcases accounts.held second holds with boot | ⟨otherMember, whole⟩ | dma
  · exact .inr (accounts.frame_apart devices spare (.inl boot))
  · obtain ⟨otherStart, otherLen⟩ := second
    obtain rfl : otherLen = 4096 := whole
    obtain ⟨other, otherSmall, rfl, _⟩ := accounts.frames.returned otherStart otherMember
    by_cases same : frameAddress idx = frameAddress other
    · rw [same]
      exact .inl rfl
    · exact .inr (frames_disjoint small otherSmall same)
  · exact .inr (accounts.frame_apart devices spare (.inr dma))

theorem Accounts.dma_alone {first second : UInt64 × UInt64} (accounts : Accounts platform entries m taken granted)
    (devices : DevicesApart platform entries) (dma : first ∈ granted) (holds : HoldsRange m.kernel second) :
    first = second ∨ (grantRegion first).Disjoint (grantRegion second) := by
  rcases accounts.held second holds with boot | ⟨member, whole⟩ | otherDma
  · have spared : platform.nic = none ∨ first.2 = 0 := by
      by_cases card : platform.nic = none
      · exact .inl card
      · exact .inr (accounts.unshared card first dma)
    exact .inr (accounts.pool_apart devices (accounts.pool.inside first dma) spared boot)
  · obtain ⟨_, _, _, spare⟩ := accounts.frames.returned second.1 member
    have apart := accounts.frame_apart devices spare (.inr dma)
    rw [← whole] at apart
    exact .inr apart.symm
  · by_cases same : first = second
    · exact .inl same
    · have symmetric : Std.Symm fun range other : UInt64 × UInt64 => (grantRegion range).Disjoint (grantRegion other) :=
        ⟨fun _ _ disjoint => disjoint.symm⟩
      exact .inr ((List.pairwise_map.mp accounts.pool.disjoint).forall dma otherDma same)

/-- Ranges that meet are the same range, or both were placed by boot. -/
theorem Accounts.apart {first second : UInt64 × UInt64} (accounts : Accounts platform entries m taken granted)
    (devices : DevicesApart platform entries) (holds : HoldsRange m.kernel first) (also : HoldsRange m.kernel second) :
    first = second ∨ (grantRegion first).Disjoint (grantRegion second) ∨
      (first ∈ bootRanges platform m.dmaPool.phys ∧ second ∈ bootRanges platform m.dmaPool.phys) := by
  have forward : ∀ {left right}, HoldsRange m.kernel right → (left.1 ∈ taken ∧ left.2 = 4096) ∨ left ∈ granted →
      left = right ∨ (grantRegion left).Disjoint (grantRegion right) := by
    rintro left right held (frame | dma)
    · exact accounts.frame_alone devices frame held
    · exact accounts.dma_alone devices dma held
  rcases accounts.held first holds with boot | minted
  · rcases accounts.held second also with otherBoot | otherMinted
    · exact .inr (.inr ⟨boot, otherBoot⟩)
    · rcases forward holds otherMinted with same | disjoint
      · exact .inl same.symm
      · exact .inr (.inl disjoint.symm)
  · rcases forward also minted with same | disjoint
    · exact .inl same
    · exact .inr (.inl disjoint)

/-! ## Whole runs -/

/-- The call put a capability for the range into a slot that was empty. -/
def Mints (m : Machine paging) (act : Act) (after : Machine paging) (range : UInt64 × UInt64) : Prop :=
  (∃ regs env, act = .syscall regs env ∧ (regs.rax = 13 ∨ regs.rax = 14)) ∧
  ∃ cs handle, (m.kernel.cspaces cs).get handle = none ∧
    (after.kernel.cspaces cs).get handle = some (.memoryMap range.1 range.2)

theorem range_of_grantMemory {k kernel : Kernel} {start len : UInt64} {range : UInt64 × UInt64} {cs : CSpaceRef}
    {handle : Nat} (granted : k.step (.grantMemory start len) = some kernel) (empty : (k.cspaces cs).get handle = none)
    (filled : (kernel.cspaces cs).get handle = some (.memoryMap range.1 range.2)) : range = (start, len) := by
  have grants := Kernel.grants_of_step granted
  generalize isAfter : kernel.objects = objects at grants
  have sameSpaces : kernel.cspaces = objects.cspaces := by rw [← isAfter]; rfl
  rw [sameSpaces] at filled
  cases grants with
  | unchanged =>
    have unfilled : (k.cspaces cs).get handle = some (.memoryMap range.1 range.2) := filled
    rw [empty] at unfilled
    cases unfilled
  | @memory space _ _ isCaller =>
    dsimp only at filled
    by_cases same : cs = space
    · subst same
      rw [Function.update_self, CSpace.get_insert] at filled
      split at filled
      next =>
        cases filled
        rfl
      next =>
        rw [empty] at filled
        cases filled
    · rw [Function.update_of_ne same, empty] at filled
      cases filled

theorem Accounts.mints_exclusive {act : Act} {range : UInt64 × UInt64}
    (accounts : Accounts platform entries m taken granted)
    (devices : DevicesApart platform entries) (spares : sparesPool platform m act)
    (moved : m.step platform act = some after) (mints : Mints m act after range) : Exclusive m.kernel range := by
  obtain ⟨⟨regs, env, rfl, isGrant⟩, cs, handle, empty, filled⟩ := mints
  have unchanged : after.kernel.cspaces ≠ m.kernel.cspaces := by
    intro same
    rw [same, empty] at filled
    cases filled
  rcases effects_of_step moved with ⟨_, _, same, running, effects⟩ | ⟨other, _⟩
  · cases same
    cases effects with
    | quiet notFrame notDma _ => exact absurd isGrant (not_or.mpr ⟨notFrame, notDma⟩)
    | noFrame _ _ same => exact absurd same unchanged
    | frame _ returned minted =>
      rw [range_of_grantMemory minted empty filled]
      exact accounts.frame_exclusive devices returned
    | dmaRefused _ _ => exact absurd rfl unchanged
    | dmaFault _ _ => exact absurd rfl unchanged
    | dma call called minted =>
      rw [range_of_grantMemory minted empty filled]
      have spared := spared_of_granted accounts.pool.used (spares call).1 (spares call).2 called
      exact accounts.dma_exclusive devices running (spares call).1 spared called
  · exact absurd rfl (other regs env)

theorem phys_of_run {booted : Machine paging} {history : List (Machine paging × Act)}
    (run : Base.Run (step platform) booted history m) : m.dmaPool.phys = booted.dmaPool.phys := by
  refine run.always (fun m => m.dmaPool.phys = booted.dmaPool.phys) rfl ?_
  intro m act after same moved
  have kept : ∀ {ram zeroed bytes pool result},
      m.dmaPool.allocateDmaFrames ram platform.hhdmOffset bytes = (pool, zeroed, result) →
      pool.phys = m.dmaPool.phys := by
    intro ram zeroed bytes pool result called
    have phys := DmaPool.allocate_phys m.dmaPool ram platform.hhdmOffset bytes
    rw [called] at phys
    exact phys
  rcases effects_of_step moved with ⟨regs, env, _, _, effects⟩ | ⟨_, quiet⟩
  · cases effects with
    | quiet _ _ quiet => rw [quiet.dmaPool, same]
    | noFrame _ quiet _ => rw [quiet.dmaPool, same]
    | frame _ _ _ => exact same
    | dmaRefused _ called => exact (kept called).trans same
    | dmaFault _ called => exact (kept called).trans same
    | dma _ called _ => exact (kept called).trans same
  · rw [quiet.dmaPool, same]

/-- In every run whose DMA requests spare `init`'s pool, a range that is minted meets no range held by anyone
at that moment, and any two ranges that meet are copies of one capability or were both placed by boot. -/
theorem minted_exclusive {args : BootArgs paging} {booted : Machine paging} {history : List (Machine paging × Act)}
    (limine : LimineMap args.entries) (devices : DevicesApart platform args.entries)
    (started : boot platform args = some booted) (run : Base.Run (step platform) booted history m)
    (spares : Base.Run.Guarded (sparesPool platform) history) :
    (∀ entry ∈ history, ∀ after range, entry.1.step platform entry.2 = some after →
      Mints entry.1 entry.2 after range → Exclusive entry.1.kernel range) ∧
    ∀ first second, HoldsRange m.kernel first → HoldsRange m.kernel second →
      first = second ∨ (grantRegion first).Disjoint (grantRegion second) ∨
        (first ∈ bootRanges platform booted.dmaPool.phys ∧ second ∈ bootRanges platform booted.dmaPool.phys) := by
  have initial : ∃ taken granted, Accounts platform args.entries booted taken granted := by
    obtain ⟨taken, accounts⟩ := accounts_of_boot limine started
    exact ⟨taken, [], accounts⟩
  constructor
  · intro entry member after range moved mints
    obtain ⟨taken, granted, accounts⟩ := run.invariant_entry
      (fun m => ∃ taken granted, Accounts platform args.entries m taken granted) (sparesPool platform) initial
      (fun ⟨_, _, accounts⟩ spares moved => accounts.step spares moved) spares member
    exact accounts.mints_exclusive devices (spares entry member) moved mints
  · intro first second holds also
    obtain ⟨taken, granted, accounts⟩ := run.invariant
      (fun m => ∃ taken granted, Accounts platform args.entries m taken granted) (sparesPool platform) initial
      (fun ⟨_, _, accounts⟩ spares moved => accounts.step spares moved) spares
    rw [← phys_of_run run]
    exact accounts.apart devices holds also

theorem sample_limine : LimineMap sampleArgs.entries := ⟨by decide, by decide, by decide⟩

/-- With a network card `init` holds the whole pool, and its first DMA buffer is cut from it. -/
theorem dma_minted_from_grant : ∃ booted history m after,
    boot (samplePlatform (some ⟨0xC000, 0x100, true, 11⟩)) sampleArgs = some booted ∧
    Base.Run (step (samplePlatform (some ⟨0xC000, 0x100, true, 11⟩))) booted history m ∧
    m.step (samplePlatform (some ⟨0xC000, 0x100, true, 11⟩)) (sampleCall 14 4096 0 0) = some after ∧
    Mints m (sampleCall 14 4096 0 0) after (0x100000, 4096) ∧ ¬ Exclusive m.kernel (0x100000, 4096) := by
  obtain ⟨booted, history, m, started, run, _, checked⟩ := sample_run (some ⟨0xC000, 0x100, true, 11⟩) []
    (fun m => (m.kernel.cspaces 0).get 22 == some (.memoryMap 0x100000 65536) && (m.kernel.cspaces 0).get 0 == none &&
      (m.step (samplePlatform (some ⟨0xC000, 0x100, true, 11⟩)) (sampleCall 14 4096 0 0)).any fun after =>
        (after.kernel.cspaces 0).get 0 == some (.memoryMap 0x100000 4096)) (by decide +kernel)
  rw [Bool.and_eq_true, Bool.and_eq_true, beq_iff_eq, beq_iff_eq, Option.any_eq_true] at checked
  obtain ⟨⟨whole, empty⟩, after, moved, filled⟩ := checked
  refine ⟨booted, history, m, after, started, run, moved, ⟨⟨_, _, rfl, .inr rfl⟩, 0, 0, empty, eq_of_beq filled⟩, ?_⟩
  intro exclusive
  exact exclusive (0x100000, 65536) ⟨0, 22, whole⟩ 0x100000 (by decide) (by decide)

/-- Without a network card: two frames and two DMA buffers. -/
theorem minted_exclusive_sample : ∃ booted history m,
    boot (samplePlatform none) sampleArgs = some booted ∧ Base.Run (step (samplePlatform none)) booted history m ∧
    history.map Prod.snd = sampleStart ++ [sampleCall 13 4096 0 0, sampleCall 14 100 0 0, sampleCall 14 0x2000 0 0,
      sampleCall 13 4096 0 0] ∧
    HoldsRange m.kernel (0x100000, 100) ∧ HoldsRange m.kernel (0x101000, 0x2000) ∧
    (∀ entry ∈ history, ∀ after range, entry.1.step (samplePlatform none) entry.2 = some after →
      Mints entry.1 entry.2 after range → Exclusive entry.1.kernel range) ∧
    ∀ first second, HoldsRange m.kernel first → HoldsRange m.kernel second →
      first = second ∨ (grantRegion first).Disjoint (grantRegion second) ∨
        (first ∈ bootRanges (samplePlatform none) booted.dmaPool.phys ∧
          second ∈ bootRanges (samplePlatform none) booted.dmaPool.phys) := by
  obtain ⟨booted, history, m, started, run, labels, checked⟩ := sample_run none
    [sampleCall 13 4096 0 0, sampleCall 14 100 0 0, sampleCall 14 0x2000 0 0, sampleCall 13 4096 0 0]
    (fun m => (m.kernel.cspaces 0).get 3 == some (.memoryMap 0x100000 100) &&
      (m.kernel.cspaces 0).get 7 == some (.memoryMap 0x101000 0x2000)) (by decide +kernel)
  rw [Bool.and_eq_true, beq_iff_eq, beq_iff_eq] at checked
  have spares : Base.Run.Guarded (sparesPool (samplePlatform none)) history := by
    rintro ⟨state, act⟩ member
    have label : act ∈ sampleStart ++ [sampleCall 13 4096 0 0, sampleCall 14 100 0 0, sampleCall 14 0x2000 0 0,
        sampleCall 13 4096 0 0] := labels ▸ List.mem_map_of_mem member
    simp only [sampleStart, List.cons_append, List.nil_append, List.mem_cons, List.not_mem_nil, or_false] at label
    rcases label with rfl | rfl | rfl | rfl | rfl | rfl
    · trivial
    · trivial
    all_goals exact fun _ => ⟨by decide, .inl rfl⟩
  exact ⟨booted, history, m, started, run, labels, ⟨0, 3, checked.1⟩, ⟨0, 7, checked.2⟩,
    minted_exclusive sample_limine (by simp [DevicesApart, deviceRanges, samplePlatform]) started run spares⟩

end Machine

end ElseOS
