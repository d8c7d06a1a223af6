import ElseOS.Base.Transition
import ElseOS.Task.Boot

/-! One step of the kernel as the scheduler sees it: a call made by the running
thread, an interrupt where interrupts are enabled, or the rest of a suspending call. -/

set_option autoImplicit false

namespace ElseOS

def usizeMax : UInt64 := 0xFFFFFFFFFFFFFFFF

namespace Kernel

def grantedCap : Option Capability → Option Capability
  | some (.endpoint ep rights) => some (.endpoint ep rights)
  | _ => none

/-- The capability work of `SYS_SPAWN`, for an image that has been loaded. -/
def spawnChild (k : Kernel) (epHandle entryPoint cr3 stackBase : UInt64) : Kernel × Outcome Nat :=
  match k.lookup epHandle with
  | none => (k.panic, .panicked)
  | some (_, cs, held) =>
    let (k, p, child) := k.spawnProcess (grantedCap held) entryPoint userStackTop cr3 stackBase
    let k := if epHandle = usizeMax then
      k.setCSpace child (CSpace.cloneInto (k.cspaces child) 0 (k.cspaces cs).slots) else k
    let (cspace, handle) := (k.cspaces cs).insert (.process p .WAIT)
    (k.setCSpace cs cspace, .done handle)

def spawnThread (k : Kernel) (entryPoint userStack stackBase : UInt64) : Kernel × Outcome UInt64 :=
  match k.scheduler.current with
  | some ⟨_, _, _, _, some cr3, some cs, some p⟩ =>
    let (k, thread) := k.newUserThread entryPoint userStack cr3 cs p stackBase
    (k.pushBack thread, .done thread.id)
  | _ => (k.panic, .panicked)

/-- The end of `SYS_FRAME_ALLOC` and `SYS_DMA_ALLOC`: a memory capability at the first free handle. -/
def grantMemory (k : Kernel) (start len : UInt64) : Kernel × Outcome Nat :=
  match k.lookup 0 with
  | none => (k.panic, .panicked)
  | some (_, cs, _) =>
    let (cspace, handle) := (k.cspaces cs).insert (.memoryMap start len)
    (k.setCSpace cs cspace, .done handle)

end Kernel

inductive Op where
  | newKernelThread (entryPoint stackBase : UInt64)
  | yieldNow
  | exitCurrentThread (rax rsp : UInt64)
  | sysSend (handle : UInt64) (msg : Message)
  | sysRecv (handle : UInt64)
  | sysWait (handle : UInt64)
  | sysWaitIrq (handle : UInt64)
  | sysEndpointCreate
  | spawnChild (epHandle entryPoint cr3 stackBase : UInt64)
  | spawnThread (entryPoint userStack stackBase : UInt64)
  | grantMemory (start len : UInt64)
  /-- The rest of a suspending call. -/
  | dispatch (rsp : UInt64)
  | timerTick (rsp : UInt64)
  | unblockIrq (irq : UInt8)
  /-- `enable_and_hlt` returns and the idle loop looks at the run queue again. -/
  | wake
  /-- The kernel panics, or loops in an exception handler, in code not modelled at this level. -/
  | panic
  deriving DecidableEq, Repr

namespace Cpu

/-- Interrupts are delivered in a thread's own code, in an idle loop, and in `_start`. -/
def interruptible : Cpu → Bool
  | .boot | .running _ | .idle _ _ => true
  | _ => false

def isRunning : Cpu → Bool
  | .running _ => true
  | _ => false

theorem running_of_isRunning {cpu : Cpu} (running : cpu.isRunning = true) : ∃ tid, cpu = .running tid := by
  cases cpu with
  | running tid => exact ⟨tid, rfl⟩
  | _ => cases running

end Cpu

namespace Kernel

def whenRunning (k after : Kernel) : Option Kernel := if k.cpu.isRunning then some after else none

def whenInterruptible (k after : Kernel) : Option Kernel :=
  if k.cpu.interruptible then some after else none

def step (k : Kernel) : Op → Option Kernel
  | .newKernelThread entryPoint stackBase =>
    match k.cpu with
    | .boot =>
      let (k, thread) := k.newKernelThread entryPoint stackBase
      some (k.pushBack thread)
    | _ => none
  | .yieldNow =>
    match k.cpu with
    | .boot | .running _ => some k.yieldNow.1
    | _ => none
  | .exitCurrentThread rax rsp => k.whenRunning (k.exitCurrentThread rax rsp)
  | .sysSend handle msg => k.whenRunning (k.sysSend handle msg).1
  | .sysRecv handle => k.whenRunning (k.sysRecv handle).1
  | .sysWait handle => k.whenRunning (k.sysWait handle).1
  | .sysWaitIrq handle => k.whenRunning (k.sysWaitIrq handle).1
  | .sysEndpointCreate => k.whenRunning k.sysEndpointCreate.1
  | .spawnChild epHandle entryPoint cr3 stackBase =>
    k.whenRunning (k.spawnChild epHandle entryPoint cr3 stackBase).1
  | .spawnThread entryPoint userStack stackBase =>
    k.whenRunning (k.spawnThread entryPoint userStack stackBase).1
  | .grantMemory start len => k.whenRunning (k.grantMemory start len).1
  | .dispatch rsp =>
    match k.cpu with
    | .dispatching source call => some (k.dispatch source call rsp)
    | _ => none
  | .timerTick rsp => k.whenInterruptible (k.timerTick rsp)
  | .unblockIrq irq => k.whenInterruptible (k.unblockIrq irq)
  | .wake =>
    match k.cpu with
    | .idle tid call => some { k with cpu := .dispatching (some tid) call }
    | _ => none
  | .panic => k.whenRunning k.panic

theorem step_stuck {k : Kernel} {op : Op} (stuck : k.cpu = .halted ∨ ∃ tid, k.cpu = .astray tid) :
    k.step op = none := by
  rcases stuck with cpu | ⟨tid, cpu⟩ <;>
    cases op <;> simp [step, cpu, whenRunning, whenInterruptible, Cpu.isRunning, Cpu.interruptible]

end Kernel

abbrev KernelRun (bootCr3 : UInt64) (info : BootInfo) (image : InitImage) :=
  Base.Run Kernel.step (Kernel.booted bootCr3 info image)

end ElseOS
