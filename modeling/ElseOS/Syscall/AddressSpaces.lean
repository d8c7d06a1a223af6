import ElseOS.Machine
import ElseOS.Task.Lineage

/-! Address spaces over a run of the system.

Every thread has a page table in a frame that is in use. The frame allocator never hands
such a frame out again, so no step takes a translation away from an address space. -/

set_option autoImplicit false

namespace ElseOS

open Base (Action)

namespace Kernel

variable {before middle after : Kernel}

def Inherits (before after : Kernel) : Prop :=
  ∀ who, Listed after.roster who → ∃ other, Listed before.roster other ∧ other.cr3 = who.cr3

theorem inherits_refl (k : Kernel) : Inherits k k := fun who listed => ⟨who, listed, rfl⟩

theorem inherits_panic (k : Kernel) : Inherits k k.panic := fun who listed => ⟨who, listed, rfl⟩

theorem Inherits.trans (left : Inherits before middle) (right : Inherits middle after) : Inherits before after := by
  intro who listed
  obtain ⟨other, stood, same⟩ := right who listed
  obtain ⟨first, earlier, also⟩ := left other stood
  exact ⟨first, earlier, also.trans same⟩

theorem inherits_of_step {op : Op} (orderly : before.Orderly) (taken : before.step op = some after)
    (noProcess : ∀ epHandle entryPoint cr3 stackBase, op ≠ .spawnChild epHandle entryPoint cr3 stackBase)
    (noKernelThread : ∀ entryPoint stackBase, op ≠ .newKernelThread entryPoint stackBase) : Inherits before after := by
  intro who listed
  rcases cr3_of_step orderly taken listed with old | ⟨_, _, _, _, spawned, _⟩ | ⟨_, _, created⟩
  · exact old
  · exact absurd spawned (noProcess _ _ _ _)
  · exact absurd created (noKernelThread _ _)

end Kernel

namespace Machine

variable {paging : Paging} {platform : Platform} {m after : Machine paging} {act : Act}

theorem inherits_of_continues {before after : Kernel} (orderly : before.Orderly) (continues : Continues before after) :
    Kernel.Inherits before after := by
  obtain ⟨acts, run, isPlain⟩ := continues
  have both : Kernel.Orderly after ∧ Kernel.Inherits before after := by
    refine run.invariant (fun k => Kernel.Orderly k ∧ Kernel.Inherits before k) (fun _ op => plain op = true)
      ⟨orderly, Kernel.inherits_refl before⟩ ?_ isPlain
    rintro k op next ⟨tidy, inherits⟩ isPlain taken
    refine ⟨tidy.step taken, inherits.trans (Kernel.inherits_of_step tidy taken ?_ ?_)⟩
    · rintro _ _ _ _ rfl
      cases isPlain
    · rintro _ _ rfl
      cases isPlain
  exact both.2

/-- A step that gives no thread a new page table and loses no translation. -/
structure Settled (m after : Machine paging) : Prop where
  inherits : Kernel.Inherits m.kernel after.kernel
  grows : m.memory.Grows after.memory

theorem settled_none (m : Machine paging) : Settled m m := ⟨Kernel.inherits_refl _, Std.Refl.refl _⟩

theorem settled_panic {memory : Memory paging} (grows : m.memory.Grows memory) :
    Settled m { m with memory := memory }.panic.1 := ⟨Kernel.inherits_panic _, grows⟩

theorem Plain.settled (isPlain : Plain m after) (orderly : m.kernel.Orderly) : Settled m after := by
  refine ⟨inherits_of_continues orderly isPlain.continues, ?_⟩
  rw [isPlain.memory]
  exact Std.Refl.refl m.memory

theorem grows_mapPage (lawful : paging.Lawful) (cr3 page currentPhys : UInt64) :
    Action.Keeps Memory.Grows (@mapPage paging cr3 page currentPhys) :=
  (Action.keeps_expect _).bind fun _ => (Memory.grows_expectMapTo lawful _ _ _ _).bind fun _ => Action.keeps_pure _

theorem settled_mapRange (lawful : paging.Lawful) (m : Machine paging) (callerCr3 : Option UInt64) (virtAddr : UInt64)
    (actual : UInt64 × UInt64) : Settled m (m.mapRange callerCr3 virtAddr actual).1 := by
  cases callerCr3 with
  | none => exact settled_panic (Std.Refl.refl m.memory)
  | some cr3 =>
    have grown :=
      Memory.keeps_forAddresses (grows_mapPage lawful cr3) virtAddr (virtAddr + actual.2 - 1) actual.1 m.memory
    unfold mapRange mapWindow
    dsimp only
    split
    next memory ran =>
      rw [ran] at grown
      exact settled_panic grown
    next memory last ran =>
      rw [ran] at grown
      exact ⟨Kernel.inherits_refl _, grown⟩

theorem settled_sysMapPhys (lawful : paging.Lawful) (m : Machine paging) (handle physAddr length : UInt64) :
    Settled m (m.sysMapPhys handle physAddr length).1 := by
  unfold sysMapPhys
  split
  · exact settled_panic (Std.Refl.refl m.memory)
  · dsimp only
    split
    · exact settled_mapRange lawful m _ _ _
    · exact settled_none m
  · exact settled_none m

theorem settled_grantMemory {memory : Memory paging} (orderly : m.kernel.Orderly)
    (running : m.kernel.cpu.isRunning = true) (grows : m.memory.Grows memory) (pool : DmaPool) (start len : UInt64) :
    Settled m ({ m with memory := memory, dmaPool := pool }.call (m.kernel.grantMemory start len) UInt64.ofNat).1 :=
  have taken : m.kernel.step (.grantMemory start len) = some (m.kernel.grantMemory start len).1 :=
    step_of_running running
  ⟨Kernel.inherits_of_step orderly taken nofun nofun, grows⟩

theorem grows_allocateFrame : Action.Keeps Memory.Grows (@Memory.allocateFrame paging) := by
  intro mem
  apply (Memory.takes_allocateFrame mem).grows
  intro cr3 page entry mapped
  rw [Memory.lookup, Memory.tables_allocateFrame]
  exact mapped

theorem settled_sysFrameAlloc (orderly : m.kernel.Orderly) (running : m.kernel.cpu.isRunning = true) (size : UInt64) :
    Settled m (m.sysFrameAlloc size).1 := by
  have grown := grows_allocateFrame m.memory
  unfold sysFrameAlloc
  split
  · exact settled_none m
  · split
    next memory returned =>
      rw [returned] at grown
      exact settled_panic grown
    next memory returned =>
      rw [returned] at grown
      exact ⟨Kernel.inherits_refl _, grown⟩
    next memory frame returned =>
      rw [returned] at grown
      exact settled_grantMemory orderly running (IsTrans.trans _ _ _ grown (Memory.grows_zeroFrame frame memory)) _ _ _

theorem settled_sysDmaAlloc (orderly : m.kernel.Orderly) (running : m.kernel.cpu.isRunning = true) (size : UInt64) :
    Settled m (m.sysDmaAlloc platform size).1 := by
  have written (ram : Ram) : m.memory.Grows { m.memory with ram := ram } :=
    Memory.Takes.grows ⟨[], .nil _⟩ fun _ _ _ mapped => mapped
  unfold sysDmaAlloc
  split
  next pool ram result called =>
    match result with
    | none => exact ⟨Kernel.inherits_panic _, written ram⟩
    | some none => exact ⟨Kernel.inherits_refl _, written ram⟩
    | some (some phys) => exact settled_grantMemory orderly running (written ram) _ _ _

theorem settled_of_step (lawful : paging.Lawful) (orderly : m.kernel.Orderly) (taken : m.step platform act = some after)
    (noSpawn : ∀ regs env, act = .syscall regs env → regs.rax ≠ 6) : Settled m after := by
  rcases handled_of_step taken with ⟨regs, env, rfl, running, rfl⟩ | ⟨_, isPlain⟩
  · by_cases map : regs.rax = 11
    · rw [handler_map map]
      exact settled_sysMapPhys lawful m _ _ _
    · by_cases frame : regs.rax = 13
      · rw [handler_frame frame]
        exact settled_sysFrameAlloc orderly running _
      · by_cases dma : regs.rax = 14
        · rw [handler_dma dma]
          exact settled_sysDmaAlloc orderly running _
        · exact (plain_of_handler running env (noSpawn regs env rfl) map frame dma).settled orderly
  · exact isPlain.settled orderly

/-- Every thread has a page table, in a frame that is in use. -/
structure Housed (m : Machine paging) : Prop where
  ready : m.memory.allocator.Ready
  tables : ∀ who, Kernel.Listed m.kernel.roster who → ∃ cr3, who.cr3 = some cr3 ∧ m.memory.allocator.InUse cr3

theorem Housed.settled (housed : m.Housed) (settled : Settled m after) : after.Housed := by
  obtain ⟨ready, kept⟩ := settled.grows housed.ready
  refine ⟨ready, ?_⟩
  intro who listed
  obtain ⟨other, stood, same⟩ := settled.inherits who listed
  obtain ⟨cr3, table, used⟩ := housed.tables other stood
  exact ⟨cr3, same ▸ table, (kept cr3 used).1⟩

theorem Housed.spawn (lawful : paging.Lawful) (housed : m.Housed) (orderly : m.kernel.Orderly)
    (running : m.kernel.cpu.isRunning = true) (namePtr nameLen epHandle : UInt64) (env : CallEnv) :
    let served := (m.sysSpawn platform namePtr nameLen epHandle env).1
    m.memory.Grows served.memory ∧ served.Housed := by
  have quiet {after : Machine paging} (settled : Settled m after) : m.memory.Grows after.memory ∧ after.Housed :=
    ⟨settled.grows, housed.settled settled⟩
  dsimp only
  unfold sysSpawn
  split
  · cases env.text with
    | none => exact quiet (settled_panic (Std.Refl.refl m.memory))
    | some name =>
      dsimp only
      split
      · split
        · exact quiet (settled_panic (Std.Refl.refl m.memory))
        · exact quiet (settled_none m)
        next image _ _ =>
          have grown := Elf.grows_load lawful image m.kernel.hardware.cr3 m.memory
          split
          next memory loaded =>
            rw [loaded] at grown
            exact quiet (settled_panic grown)
          next memory entryPoint cr3 loaded =>
            rw [loaded] at grown
            refine ⟨grown, (grown housed.ready).1, ?_⟩
            intro who listed
            have taken : m.kernel.step (.spawnChild epHandle entryPoint cr3 env.stackBase) =
                some (m.kernel.spawnChild epHandle entryPoint cr3 env.stackBase).1 := step_of_running running
            rcases Kernel.cr3_of_step orderly taken listed
              with ⟨other, stood, same⟩ | ⟨_, _, _, _, op, table⟩ | ⟨_, _, op⟩
            · obtain ⟨table, isTable, used⟩ := housed.tables other stood
              exact ⟨table, same ▸ isTable, ((grown housed.ready).2 table used).1⟩
            · cases op
              exact ⟨cr3, table, Elf.inUse_load lawful housed.ready loaded⟩
            · cases op
      · exact quiet (settled_none m)
  · exact quiet (settled_none m)

theorem Housed.step (lawful : paging.Lawful) (housed : m.Housed) (orderly : m.kernel.Orderly)
    (taken : m.step platform act = some after) : m.memory.Grows after.memory ∧ after.Housed := by
  by_cases spawns : ∃ regs env, act = .syscall regs env ∧ regs.rax = 6
  · obtain ⟨regs, env, rfl, spawn⟩ := spawns
    rcases handled_of_step taken with ⟨_, _, same, running, rfl⟩ | ⟨other, _⟩
    · cases same
      rw [handler_spawn spawn]
      exact housed.spawn lawful orderly running _ _ _ env
    · exact absurd rfl (other regs env)
  · have settled := settled_of_step lawful orderly taken fun regs env same spawn => spawns ⟨regs, env, same, spawn⟩
    exact ⟨settled.grows, housed.settled settled⟩

theorem housed_of_boot (lawful : paging.Lawful) {args : BootArgs paging} {booted : Machine paging}
    (started : boot platform args = some booted) : booted.Housed := by
  unfold boot at started
  obtain ⟨⟨allocator, dmaPoolPhys⟩, initialised, started⟩ := Option.bind_eq_some_iff.mp started
  obtain ⟨image, _, started⟩ := Option.bind_eq_some_iff.mp started
  obtain ⟨_, _, _, prepared, _⟩ := BitmapAllocator.prepared_of_init initialised
  have ready : allocator.Ready := ⟨prepared.present, prepared.total⟩
  split at started
  next => cases started
  next memory entryPoint cr3 ran =>
    cases started
    obtain ⟨middle, _, heap, ran⟩ := Action.bind_eq_some ran
    obtain ⟨filled, _, devices, loaded⟩ := Action.bind_eq_some ran
    have takesHeap := Memory.takes_heapInit args.cr3 ⟨allocator, args.tables, args.ram⟩
    rw [heap] at takesHeap
    obtain ⟨_, takesHeap⟩ := takesHeap
    have takesDevices := takes_mapMmio args.cr3 platform.hhdmOffset args.mmio middle
    rw [devices] at takesDevices
    obtain ⟨_, takesDevices⟩ := takesDevices
    have stillReady := (takesDevices.free (takesHeap.free ready).1).1
    have takesImage := Elf.takes_load image args.cr3 filled
    rw [loaded] at takesImage
    obtain ⟨_, takesImage⟩ := takesImage
    refine ⟨(takesImage.free stillReady).1, ?_⟩
    rintro who ⟨place, member⟩
    exact ⟨cr3, (Kernel.init_of_booted member).2.1, Elf.inUse_load lawful stillReady loaded⟩

end Machine

end ElseOS
