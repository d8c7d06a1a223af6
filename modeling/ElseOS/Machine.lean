import ElseOS.Syscall.Handler

/-! The whole system: boot, then system calls, faults and interrupts in any order.

Every step is seen by the scheduler as one of its own steps or as nothing, so what holds
of all runs of the scheduler holds of all runs of the system. -/

set_option autoImplicit false

namespace ElseOS

open Base (Action)

inductive Device where
  | keyboard | ata | rtl8139
  deriving DecidableEq, Repr

/-- The number each interrupt handler passes to `unblock_irq`. -/
def Device.irq : Device → UInt8
  | .keyboard => 1
  | .ata => 14
  | .rtl8139 => 11

inductive Act where
  | syscall (regs : Registers) (env : CallEnv)
  /-- A page fault in user mode ends the thread. -/
  | pageFault (rax rsp : UInt64)
  /-- Another exception, or the heap is exhausted: the kernel stops for good. -/
  | trap
  /-- The loop at the end of `_start`. -/
  | bootYield
  | dispatch (rsp : UInt64)
  | timerTick (rsp : UInt64)
  | interrupt (device : Device)
  | wake
  deriving DecidableEq, Repr

namespace Machine

variable {paging : Paging}

def schedule (m : Machine paging) (op : Op) : Option (Machine paging) :=
  (m.kernel.step op).map fun kernel => { m with kernel := kernel }

def step (platform : Platform) (m : Machine paging) : Act → Option (Machine paging)
  | .syscall regs env => if m.kernel.cpu.isRunning then some (m.syscallHandler platform regs env).1 else none
  | .pageFault rax rsp => m.schedule (.exitCurrentThread rax rsp)
  | .trap => m.schedule .panic
  | .bootYield => if m.kernel.cpu = .boot then m.schedule .yieldNow else none
  | .dispatch rsp => m.schedule (.dispatch rsp)
  | .timerTick rsp => m.schedule (.timerTick rsp)
  | .interrupt device => m.schedule (.unblockIrq device.irq)
  | .wake => m.schedule .wake

/-! ## Boot -/

/-- What the bootloader hands over, with the addresses the heap and the firmware chose. -/
structure BootArgs (paging : Paging) where
  entries : List MemoryMapEntry
  cr3 : UInt64
  tables : paging.Tables
  ram : Ram
  /-- The ranges of tables and device registers that `arch::init` maps. -/
  mmio : List (UInt64 × UInt64)
  stackBase : UInt64

def initName : List UInt8 := [0x69, 0x6E, 0x69, 0x74]

def mapMmio (cr3 hhdmOffset : UInt64) : List (UInt64 × UInt64) → Action (Memory paging) Unit
  | [] => pure ()
  | (physAddr, size) :: rest => do
    Memory.ensureMapped cr3 hhdmOffset physAddr size
    mapMmio cr3 hhdmOffset rest

/-- What `_start` does to memory after the frame allocator is ready: the heap, the device
registers, and the image of `init`. -/
def prepare (platform : Platform) (args : BootArgs paging) (image : ElfImage) :
    Action (Memory paging) (UInt64 × UInt64) := do
  Memory.heapInit args.cr3
  mapMmio args.cr3 platform.hhdmOffset args.mmio
  Elf.load image args.cr3

/-- `_start` up to its last loop; `none` when it panics. -/
def boot (platform : Platform) (args : BootArgs paging) : Option (Machine paging) :=
  (BitmapAllocator.init args.entries).bind fun (allocator, dmaPoolPhys) =>
    (platform.findFile initName).bind fun image =>
      match prepare platform args image ⟨allocator, args.tables, args.ram⟩ with
      | (_, none) => none
      | (memory, some (entryPoint, cr3)) => some {
          kernel := Kernel.booted args.cr3 ⟨platform.framebuffer, platform.nic, dmaPoolPhys⟩
            ⟨entryPoint, cr3, args.stackBase⟩
          memory := memory
          dmaPool := ⟨dmaPoolPhys, 0⟩
          ports := [] }

theorem takes_mapMmio (cr3 hhdmOffset : UInt64) (ranges : List (UInt64 × UInt64)) :
    Action.Keeps Memory.Takes (@mapMmio paging cr3 hhdmOffset ranges) := by
  induction ranges with
  | nil => exact Action.keeps_pure ()
  | cons range rest ih => exact (Memory.takes_ensureMapped cr3 hhdmOffset range.1 range.2).bind fun _ => ih

theorem takes_prepare (platform : Platform) (args : BootArgs paging) (image : ElfImage) :
    Action.Keeps Memory.Takes (prepare platform args image) :=
  (Memory.takes_heapInit _).bind fun _ => (takes_mapMmio _ _ _).bind fun _ => Elf.takes_load _ _

theorem boot_spec {platform : Platform} {args : BootArgs paging} {booted : Machine paging}
    (started : boot platform args = some booted) :
    ∃ allocator image, BitmapAllocator.init args.entries = some (allocator, booted.dmaPool.phys) ∧
      Memory.Takes ⟨allocator, args.tables, args.ram⟩ booted.memory ∧ booted.dmaPool.used = 0 ∧
      booted.kernel = Kernel.booted args.cr3 ⟨platform.framebuffer, platform.nic, booted.dmaPool.phys⟩ image := by
  unfold boot at started
  obtain ⟨⟨allocator, dmaPoolPhys⟩, initialised, started⟩ := Option.bind_eq_some_iff.mp started
  obtain ⟨image, _, started⟩ := Option.bind_eq_some_iff.mp started
  have takes := takes_prepare platform args image ⟨allocator, args.tables, args.ram⟩
  split at started
  next => cases started
  next memory entryPoint cr3 prepared =>
    rw [prepared] at takes
    cases started
    exact ⟨allocator, ⟨entryPoint, cr3, args.stackBase⟩, initialised, takes, rfl, rfl⟩

/-! ## A small system -/

def sampleImage : ElfImage where
  len := 64
  byte offset := ([0x7F, 0x45, 0x4C, 0x46] ++ List.replicate 22 0 ++ [0x40] ++ List.replicate 37 0)[offset.toNat]?
  readable offset inside := by
    rw [List.getElem?_eq_getElem inside]
    rfl

def samplePlatform (nic : Option PciDevice) : Platform where
  hhdmOffset := 0xFFFF800000000000
  framebuffer := none
  nic := nic
  findFile name := if name = initName then some sampleImage else none

/-- Two usable regions: one for the bitmap, one for everything else. -/
def sampleArgs : BootArgs Paging.flat where
  entries := [⟨0x1000, 0x1000, .usable⟩, ⟨0x100000, 0x80000, .usable⟩]
  cr3 := 0x2000
  tables := []
  ram := fun _ => 0
  mmio := []
  stackBase := 0xFFFF900000000000

def sampleEnv : CallEnv := ⟨some [], some .zero, true, 0, 0, 0, 0⟩

def sampleCall (rax rdi rsi rdx : UInt64) : Act := .syscall ⟨rdi, rsi, rdx, 0, 0, 0, rax⟩ sampleEnv

def sampleStart : List Act := [.bootYield, .dispatch 0]

theorem sample_guarded (nic : Option PciDevice) (guard : Machine Paging.flat → Act → Bool) (calls : List Act)
    (check : Machine Paging.flat → Bool)
    (passed : ((boot (samplePlatform nic) sampleArgs).bind fun m =>
      Base.execute (step (samplePlatform nic)) guard m (sampleStart ++ calls)).any check = true) :
    ∃ booted history m, boot (samplePlatform nic) sampleArgs = some booted ∧
      Base.Run (step (samplePlatform nic)) booted history m ∧ history.map Prod.snd = sampleStart ++ calls ∧
      Base.Run.Guarded (fun m act => guard m act = true) history ∧ check m = true := by
  cases started : boot (samplePlatform nic) sampleArgs with
  | none => simp [started] at passed
  | some booted =>
    rw [started, Option.bind_some] at passed
    obtain ⟨history, m, run, same, guarded, checked⟩ := Base.Run.of_check _ _ booted _ check passed
    exact ⟨booted, history, m, rfl, run, same, guarded, checked⟩

theorem sample_run (nic : Option PciDevice) (calls : List Act) (check : Machine Paging.flat → Bool)
    (passed : ((boot (samplePlatform nic) sampleArgs).bind fun m =>
      Base.execute (step (samplePlatform nic)) (fun _ _ => true) m (sampleStart ++ calls)).any check = true) :
    ∃ booted history m, boot (samplePlatform nic) sampleArgs = some booted ∧
      Base.Run (step (samplePlatform nic)) booted history m ∧ history.map Prod.snd = sampleStart ++ calls ∧
      check m = true := by
  obtain ⟨booted, history, m, started, run, same, _, checked⟩ := sample_guarded nic (fun _ _ => true) calls check passed
  exact ⟨booted, history, m, started, run, same, checked⟩

/-! ## What a call can do -/

def minted : Op → Option (UInt64 × UInt64)
  | .grantMemory start len => some (start, len)
  | _ => none

def Schedules (before after : Kernel) : Prop :=
  ∃ acts, Base.Run Kernel.step before acts after ∧ ∀ entry ∈ acts, minted entry.2 = none

/-- An operation that grants no memory and makes no thread but one that shares its maker's address space. -/
def plain : Op → Bool
  | .newKernelThread _ _ | .spawnChild _ _ _ _ | .grantMemory _ _ => false
  | _ => true

def Continues (before after : Kernel) : Prop :=
  ∃ acts, Base.Run Kernel.step before acts after ∧ ∀ entry ∈ acts, plain entry.2 = true

structure Plain (m after : Machine paging) : Prop where
  continues : Continues m.kernel after.kernel
  memory : after.memory = m.memory
  dmaPool : after.dmaPool = m.dmaPool

/-- A step that allocates frames for the kernel's own use at most. -/
structure Quiet (m after : Machine paging) : Prop where
  schedules : Schedules m.kernel after.kernel
  takes : m.memory.Takes after.memory
  dmaPool : after.dmaPool = m.dmaPool

inductive Effects (platform : Platform) (m : Machine paging) (regs : Registers) : Machine paging → Prop where
  | quiet {after : Machine paging} : regs.rax ≠ 13 → regs.rax ≠ 14 → Quiet m after → Effects platform m regs after
  | noFrame {after : Machine paging} : regs.rax = 13 → Quiet m after → after.kernel.cspaces = m.kernel.cspaces →
      Effects platform m regs after
  | frame {frame : UInt64} {kernel : Kernel} {memory : Memory paging} : regs.rax = 13 →
      m.memory.allocator.allocateFrame = some (memory.allocator, some frame) →
      m.kernel.step (.grantMemory frame 4096) = some kernel →
      Effects platform m regs ⟨kernel, memory, m.dmaPool, m.ports⟩
  | dmaRefused {pool : DmaPool} {ram : Ram} : regs.rax = 14 →
      m.dmaPool.allocateDmaFrames m.memory.ram platform.hhdmOffset regs.rdi = (pool, ram, some none) →
      Effects platform m regs ⟨m.kernel, { m.memory with ram := ram }, pool, m.ports⟩
  | dmaFault {pool : DmaPool} {ram : Ram} : regs.rax = 14 →
      m.dmaPool.allocateDmaFrames m.memory.ram platform.hhdmOffset regs.rdi = (pool, ram, none) →
      Effects platform m regs ⟨m.kernel.panic, { m.memory with ram := ram }, pool, m.ports⟩
  | dma {phys : UInt64} {pool : DmaPool} {ram : Ram} {kernel : Kernel} : regs.rax = 14 →
      m.dmaPool.allocateDmaFrames m.memory.ram platform.hhdmOffset regs.rdi = (pool, ram, some (some phys)) →
      m.kernel.step (.grantMemory phys regs.rdi) = some kernel →
      Effects platform m regs ⟨kernel, { m.memory with ram := ram }, pool, m.ports⟩

section Effects

variable {platform : Platform} {m : Machine paging} {regs : Registers}

theorem schedules_refl (k : Kernel) : Schedules k k := ⟨[], .start, by simp⟩

theorem schedules_step {before after : Kernel} (op : Op) (taken : before.step op = some after)
    (free : minted op = none) : Schedules before after :=
  ⟨_, .single taken, by simpa using free⟩

theorem continues_refl (k : Kernel) : Continues k k := ⟨[], .start, by simp⟩

theorem continues_step {before after : Kernel} (op : Op) (taken : before.step op = some after)
    (isPlain : plain op = true) : Continues before after :=
  ⟨_, .single taken, by simpa using isPlain⟩

theorem Continues.trans {first second third : Kernel} (left : Continues first second) (right : Continues second third) :
    Continues first third := by
  obtain ⟨past, run, isPlain⟩ := left
  obtain ⟨later, more, alsoPlain⟩ := right
  refine ⟨past ++ later, run.trans more, ?_⟩
  intro entry member
  rcases List.mem_append.mp member with early | late
  · exact isPlain entry early
  · exact alsoPlain entry late

theorem Continues.schedules {before after : Kernel} (continues : Continues before after) : Schedules before after := by
  obtain ⟨acts, run, isPlain⟩ := continues
  refine ⟨acts, run, ?_⟩
  intro entry member
  have here := isPlain entry member
  cases op : entry.2 with
  | grantMemory start len =>
    rw [op] at here
    cases here
  | _ => rfl

theorem Plain.quiet {after : Machine paging} (isPlain : Plain m after) : Quiet m after := by
  refine ⟨isPlain.continues.schedules, ?_, isPlain.dmaPool⟩
  rw [isPlain.memory]
  exact Std.Refl.refl m.memory

theorem plain_none : Plain m m := ⟨continues_refl _, rfl, rfl⟩

theorem step_of_running {k after : Kernel} (running : k.cpu.isRunning = true) : k.whenRunning after = some after :=
  if_pos running

theorem continues_panic {k : Kernel} (running : k.cpu.isRunning = true) : Continues k k.panic :=
  continues_step .panic (step_of_running running) rfl

theorem plain_panic (running : m.kernel.cpu.isRunning = true) : Plain m m.panic.1 :=
  ⟨continues_panic running, rfl, rfl⟩

theorem plain_call {α : Type} (op : Op) {called : Kernel × Outcome α} {result : α → UInt64}
    (taken : m.kernel.step op = some called.1) (isPlain : plain op = true) :
    Plain m (m.call called result).1 :=
  ⟨continues_step op taken isPlain, rfl, rfl⟩

theorem takes_mapPage (cr3 page currentPhys : UInt64) :
    Action.Keeps Memory.Takes (@mapPage paging cr3 page currentPhys) :=
  (Action.keeps_expect _).bind fun _ => (Memory.takes_expectMapTo _ _ _ _).bind fun _ => Action.keeps_pure _

theorem plain_sysLog (running : m.kernel.cpu.isRunning = true) (ptr len : UInt64) (env : CallEnv) :
    Plain m (m.sysLog ptr len env).1 := by
  unfold sysLog
  split
  · cases env.text with
    | none => exact plain_panic running
    | some bytes =>
      dsimp only
      split <;> exact plain_none
  · exact plain_none

theorem plain_sysSend (running : m.kernel.cpu.isRunning = true) (handle msgPtr : UInt64) (env : CallEnv) :
    Plain m (m.sysSend handle msgPtr env).1 := by
  unfold sysSend
  split
  · cases env.message with
    | none => exact plain_panic running
    | some msg => exact plain_call (.sysSend handle msg) (step_of_running running) rfl
  · exact plain_none

theorem cpu_sysRecv {k kernel : Kernel} {handle : UInt64} {result : Except CapError Message}
    (called : k.sysRecv handle = (kernel, .done result)) : kernel.cpu = k.cpu := by
  have received : ∀ current ep, k.recvOn current ep = (kernel, .done result) → kernel.cpu = k.cpu := by
    intro current ep finished
    unfold Kernel.recvOn at finished
    dsimp only at finished
    split at finished
    · cases finished
      rfl
    · split at finished
      · cases finished
      · cases finished
        rfl
  unfold Kernel.sysRecv at called
  split at called
  · cases called
  · cases called
    rfl
  · split at called
    · exact received _ _ called
    · cases called
      rfl
  · cases called
    rfl

theorem plain_sysRecv (running : m.kernel.cpu.isRunning = true) (handle msgPtr : UInt64) (env : CallEnv) :
    Plain m (m.sysRecv handle msgPtr env).1 := by
  have received : Continues m.kernel (m.kernel.sysRecv handle).1 :=
    continues_step (.sysRecv handle) (step_of_running running) rfl
  unfold sysRecv
  split
  · split
    next kernel msg called =>
      rw [called] at received
      split
      · exact ⟨received, rfl, rfl⟩
      · have stillRunning : kernel.cpu.isRunning = true := by rw [cpu_sysRecv called]; exact running
        exact ⟨received.trans (continues_panic stillRunning), rfl, rfl⟩
    next => exact ⟨received, rfl, rfl⟩
  · exact plain_none

theorem quiet_sysSpawn (running : m.kernel.cpu.isRunning = true) (namePtr nameLen epHandle : UInt64) (env : CallEnv) :
    Quiet m (m.sysSpawn platform namePtr nameLen epHandle env).1 := by
  unfold sysSpawn
  split
  · cases env.text with
    | none => exact (plain_panic running).quiet
    | some name =>
      dsimp only
      split
      · split
        · exact (plain_panic running).quiet
        · exact plain_none.quiet
        next image _ _ =>
          have takes := Elf.takes_load image m.kernel.hardware.cr3 m.memory
          split
          next memory loaded =>
            rw [loaded] at takes
            exact ⟨(continues_panic running).schedules, takes, rfl⟩
          next memory entryPoint cr3 loaded =>
            rw [loaded] at takes
            exact ⟨schedules_step (.spawnChild epHandle entryPoint cr3 env.stackBase) (step_of_running running) rfl,
              takes, rfl⟩
      · exact plain_none.quiet
  · exact plain_none.quiet

theorem plain_sysPortIn (running : m.kernel.cpu.isRunning = true) (handle : UInt64) (port : UInt16) (size : UInt8)
    (env : CallEnv) : Plain m (m.sysPortIn handle port size env).1 := by
  have touched : ∀ ports, Plain m { m with ports := ports } :=
    fun ports => ⟨continues_refl _, rfl, rfl⟩
  unfold sysPortIn
  split
  · exact plain_panic running
  · dsimp only
    split_ifs <;> exact touched _

theorem plain_sysPortOut (running : m.kernel.cpu.isRunning = true) (handle : UInt64) (port : UInt16) (size : UInt8)
    (val : UInt32) : Plain m (m.sysPortOut handle port size val).1 := by
  have touched : ∀ ports, Plain m { m with ports := ports } :=
    fun ports => ⟨continues_refl _, rfl, rfl⟩
  unfold sysPortOut
  split
  · exact plain_panic running
  · split_ifs <;> exact touched _

theorem quiet_mapRange (running : m.kernel.cpu.isRunning = true) (callerCr3 : Option UInt64) (virtAddr : UInt64)
    (actual : UInt64 × UInt64) : Quiet m (m.mapRange callerCr3 virtAddr actual).1 := by
  cases callerCr3 with
  | none => exact (plain_panic running).quiet
  | some cr3 =>
    have takes := Memory.keeps_forAddresses (@takes_mapPage paging cr3) virtAddr (virtAddr + actual.2 - 1) actual.1
      m.memory
    unfold mapRange mapWindow
    dsimp only
    split
    next memory ran =>
      rw [ran] at takes
      exact ⟨(continues_panic running).schedules, takes, rfl⟩
    next memory last ran =>
      rw [ran] at takes
      exact ⟨schedules_refl _, takes, rfl⟩

theorem quiet_sysMapPhys (running : m.kernel.cpu.isRunning = true) (handle physAddr length : UInt64) :
    Quiet m (m.sysMapPhys handle physAddr length).1 := by
  unfold sysMapPhys
  split
  · exact (plain_panic running).quiet
  · dsimp only
    split
    · exact quiet_mapRange running _ _ _
    · exact plain_none.quiet
  · exact plain_none.quiet

theorem plain_sysFramebufferInfo (running : m.kernel.cpu.isRunning = true) (infoPtr : UInt64) (env : CallEnv) :
    Plain m (m.sysFramebufferInfo platform infoPtr env).1 := by
  unfold sysFramebufferInfo
  split
  · split
    · split
      · exact plain_none
      · exact plain_panic running
    · exact plain_none
  · exact plain_none

theorem plain_sysCapInfo (running : m.kernel.cpu.isRunning = true) (handle : UInt64) :
    Plain m (m.sysCapInfo handle).1 := by
  unfold sysCapInfo
  split
  · exact plain_panic running
  all_goals exact plain_none

theorem plain_sysThreadSpawn (running : m.kernel.cpu.isRunning = true) (entryPoint userStack : UInt64) (env : CallEnv) :
    Plain m (m.sysThreadSpawn entryPoint userStack env).1 := by
  unfold sysThreadSpawn
  split
  · exact plain_none
  · exact plain_call (.spawnThread entryPoint userStack env.stackBase) (step_of_running running) rfl

theorem step_yieldNow {k : Kernel} (running : k.cpu.isRunning = true) : k.step .yieldNow = some k.yieldNow.1 := by
  obtain ⟨tid, cpu⟩ := Cpu.running_of_isRunning running
  simp [Kernel.step, cpu]

theorem effects_sysFrameAlloc (running : m.kernel.cpu.isRunning = true) (call : regs.rax = 13) (size : UInt64) :
    Effects platform m regs (m.sysFrameAlloc size).1 := by
  have takes := Memory.takes_allocateFrame m.memory
  unfold sysFrameAlloc
  split
  · exact .noFrame call plain_none.quiet rfl
  · split
    next memory returned =>
      rw [returned] at takes
      exact .noFrame call ⟨(continues_panic running).schedules, takes, rfl⟩ rfl
    next memory returned =>
      rw [returned] at takes
      exact .noFrame call ⟨schedules_refl _, takes, rfl⟩ rfl
    next memory frame returned =>
      unfold Memory.allocateFrame at returned
      split at returned
      next allocator result found =>
        cases returned
        exact .frame call found (step_of_running running)
      next => cases returned

theorem effects_sysDmaAlloc (running : m.kernel.cpu.isRunning = true) (call : regs.rax = 14) :
    Effects platform m regs (m.sysDmaAlloc platform regs.rdi).1 := by
  unfold sysDmaAlloc
  split
  next pool ram result called =>
    match result, called with
    | none, called => exact .dmaFault call called
    | some none, called => exact .dmaRefused call called
    | some (some phys), called => exact .dma call called (step_of_running running)

theorem plain_of_handler (running : m.kernel.cpu.isRunning = true) (env : CallEnv) (notSpawn : regs.rax ≠ 6)
    (notMap : regs.rax ≠ 11) (notFrame : regs.rax ≠ 13) (notDma : regs.rax ≠ 14) :
    Plain m (m.syscallHandler platform regs env).1 := by
  unfold syscallHandler
  split
  · exact plain_call .yieldNow (step_yieldNow running) rfl
  · exact ⟨continues_step (.exitCurrentThread env.rax env.rsp) (step_of_running running) rfl, rfl, rfl⟩
  · exact plain_sysLog running _ _ env
  · exact plain_call .sysEndpointCreate (step_of_running running) rfl
  · exact plain_sysSend running _ _ env
  · exact plain_sysRecv running _ _ env
  next call => exact absurd (UInt64.toNat_inj.mp call) notSpawn
  · exact plain_call (.sysWait regs.rdi) (step_of_running running) rfl
  · exact plain_call (.sysWaitIrq regs.rdi) (step_of_running running) rfl
  · exact plain_sysPortIn running _ _ _ env
  · exact plain_sysPortOut running _ _ _ _
  next call => exact absurd (UInt64.toNat_inj.mp call) notMap
  · exact plain_sysFramebufferInfo running _ env
  next call => exact absurd (UInt64.toNat_inj.mp call) notFrame
  next call => exact absurd (UInt64.toNat_inj.mp call) notDma
  · exact plain_sysCapInfo running _
  · exact plain_sysThreadSpawn running _ _ env
  · exact plain_none

theorem handler_spawn (call : regs.rax = 6) (env : CallEnv) :
    m.syscallHandler platform regs env = m.sysSpawn platform regs.rdi regs.rsi regs.rdx env := by
  unfold syscallHandler
  rw [call]
  rfl

theorem handler_map (call : regs.rax = 11) (env : CallEnv) :
    m.syscallHandler platform regs env = m.sysMapPhys regs.rdi regs.rsi regs.rdx := by
  unfold syscallHandler
  rw [call]
  rfl

theorem handler_frame (call : regs.rax = 13) (env : CallEnv) :
    m.syscallHandler platform regs env = m.sysFrameAlloc regs.rdi := by
  unfold syscallHandler
  rw [call]
  rfl

theorem handler_dma (call : regs.rax = 14) (env : CallEnv) :
    m.syscallHandler platform regs env = m.sysDmaAlloc platform regs.rdi := by
  unfold syscallHandler
  rw [call]
  rfl

theorem quiet_of_handler (running : m.kernel.cpu.isRunning = true) (env : CallEnv) (notFrame : regs.rax ≠ 13)
    (notDma : regs.rax ≠ 14) : Quiet m (m.syscallHandler platform regs env).1 := by
  by_cases spawn : regs.rax = 6
  · rw [handler_spawn spawn]
    exact quiet_sysSpawn running _ _ _ env
  · by_cases map : regs.rax = 11
    · rw [handler_map map]
      exact quiet_sysMapPhys running _ _ _
    · exact (plain_of_handler running env spawn map notFrame notDma).quiet

theorem effects_of_handler (running : m.kernel.cpu.isRunning = true) (env : CallEnv) :
    Effects platform m regs (m.syscallHandler platform regs env).1 := by
  by_cases frame : regs.rax = 13
  · rw [handler_frame frame]
    exact effects_sysFrameAlloc running frame _
  · by_cases dma : regs.rax = 14
    · rw [handler_dma dma]
      exact effects_sysDmaAlloc running dma
    · exact .quiet frame dma (quiet_of_handler running env frame dma)

/-- A step of the system is a call of a running thread, or leaves memory alone. -/
theorem handled_of_step {act : Act} {after : Machine paging} (taken : m.step platform act = some after) :
    (∃ regs env, act = .syscall regs env ∧ m.kernel.cpu.isRunning = true ∧
      after = (m.syscallHandler platform regs env).1) ∨
    ((∀ regs env, act ≠ .syscall regs env) ∧ Plain m after) := by
  have scheduled : ∀ {op}, m.schedule op = some after → plain op = true → Plain m after := by
    intro op moved isPlain
    obtain ⟨kernel, stepped, rfl⟩ := Option.map_eq_some_iff.mp moved
    exact ⟨continues_step op stepped isPlain, rfl, rfl⟩
  cases act with
  | syscall regs env =>
    simp only [step] at taken
    split at taken
    next running =>
      cases taken
      exact .inl ⟨regs, env, rfl, running, rfl⟩
    next => cases taken
  | pageFault rax rsp => exact .inr ⟨nofun, scheduled taken rfl⟩
  | trap => exact .inr ⟨nofun, scheduled taken rfl⟩
  | bootYield =>
    simp only [step] at taken
    split at taken
    next => exact .inr ⟨nofun, scheduled taken rfl⟩
    next => cases taken
  | dispatch rsp => exact .inr ⟨nofun, scheduled taken rfl⟩
  | timerTick rsp => exact .inr ⟨nofun, scheduled taken rfl⟩
  | interrupt device => exact .inr ⟨nofun, scheduled taken rfl⟩
  | wake => exact .inr ⟨nofun, scheduled taken rfl⟩

theorem effects_of_step {act : Act} {after : Machine paging} (taken : m.step platform act = some after) :
    (∃ regs env, act = .syscall regs env ∧ m.kernel.cpu.isRunning = true ∧ Effects platform m regs after) ∨
    ((∀ regs env, act ≠ .syscall regs env) ∧ Quiet m after) := by
  rcases handled_of_step taken with ⟨regs, env, rfl, running, rfl⟩ | ⟨other, isPlain⟩
  · exact .inl ⟨regs, env, rfl, running, effects_of_handler running env⟩
  · exact .inr ⟨other, isPlain.quiet⟩

end Effects

/-! ## The scheduler's view -/

/-- A call moves the scheduler by zero or more of its own steps. -/
theorem kernel_run_of_effects {platform : Platform} {m after : Machine paging} {regs : Registers}
    (running : m.kernel.cpu.isRunning = true) (effects : Effects platform m regs after) :
    ∃ acts, Base.Run Kernel.step m.kernel acts after.kernel := by
  cases effects with
  | quiet _ _ quiet =>
    obtain ⟨acts, run, _⟩ := quiet.schedules
    exact ⟨acts, run⟩
  | noFrame _ quiet _ =>
    obtain ⟨acts, run, _⟩ := quiet.schedules
    exact ⟨acts, run⟩
  | frame _ _ granted => exact ⟨_, .single granted⟩
  | dmaRefused _ _ => exact ⟨[], .start⟩
  | dmaFault _ _ =>
    obtain ⟨acts, run, _⟩ := continues_panic running
    exact ⟨acts, run⟩
  | dma _ _ granted => exact ⟨_, .single granted⟩

/-- Every run of the system is, seen from the scheduler, a run from boot of the scheduler. -/
theorem kernelRun_of_run {platform : Platform} {args : BootArgs paging} {booted m : Machine paging}
    {history : List (Machine paging × Act)} (started : boot platform args = some booted)
    (run : Base.Run (step platform) booted history m) :
    ∃ image acts, KernelRun args.cr3 ⟨platform.framebuffer, platform.nic, booted.dmaPool.phys⟩ image acts m.kernel := by
  obtain ⟨_, image, _, _, _, same⟩ := boot_spec started
  refine ⟨image, run.always (fun m => ∃ acts, KernelRun args.cr3 _ image acts m.kernel) ?_ ?_⟩
  · exact ⟨[], same ▸ .start⟩
  · rintro m act after ⟨past, earlier⟩ taken
    rcases effects_of_step taken with ⟨regs, env, _, running, effects⟩ | ⟨_, quiet⟩
    · obtain ⟨acts, more⟩ := kernel_run_of_effects running effects
      exact ⟨_, earlier.trans more⟩
    · obtain ⟨acts, more, _⟩ := quiet.schedules
      exact ⟨_, earlier.trans more⟩

end Machine

end ElseOS
