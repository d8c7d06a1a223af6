import ElseOS.Base.Utf8
import ElseOS.Elf.Loader
import ElseOS.Memory.Dma
import ElseOS.Task.Step

/-! `syscall_handler`, over the scheduler's state together with physical memory.

A pointer from user space is followed through the caller's page tables, to memory user
code writes at will. What the kernel finds there is part of the call (`CallEnv`); an
address that passes the range check and cannot be accessed stops the kernel. -/

set_option autoImplicit false

namespace ElseOS

open Base (Action)
open Base.Action (expect)

structure Registers where
  rdi : UInt64
  rsi : UInt64
  rdx : UInt64
  r10 : UInt64
  r8 : UInt64
  r9 : UInt64
  rax : UInt64
  deriving DecidableEq, Repr

/-- What a call depends on outside the state of the kernel. -/
structure CallEnv where
  /-- The bytes a text argument points at, unless reading them faults. -/
  text : Option (List UInt8)
  /-- The message a message argument points at, unless reading it faults. -/
  message : Option Message
  /-- Writing to the address of a result does not fault. -/
  writable : Bool
  /-- Where the heap places a new thread's kernel stack. -/
  stackBase : UInt64
  /-- What a device answers to an `in` instruction. -/
  portValue : UInt32
  /-- Registers of an exiting thread, see `exitCurrentThread`. -/
  rax : UInt64
  rsp : UInt64
  deriving DecidableEq, Repr

/-- What does not change after boot. -/
structure Platform where
  hhdmOffset : UInt64
  framebuffer : Option FramebufferInfo
  nic : Option PciDevice
  /-- `TarArchive::find_file` on the initial file system. -/
  findFile : List UInt8 → Option ElfImage

inductive PortAccess where
  | read (port : UInt16) (width : UInt8)
  | write (port : UInt16) (width : UInt8) (value : UInt32)
  deriving DecidableEq, Repr

structure Machine (paging : Paging) where
  kernel : Kernel
  memory : Memory paging
  dmaPool : DmaPool
  /-- Port accesses so far, newest first. -/
  ports : List PortAccess

namespace Machine

variable {paging : Paging} (platform : Platform)

def errno (code : Int) : UInt64 := UInt64.ofInt code

def u64Max : UInt64 := 0xFFFFFFFFFFFFFFFF

def panic (m : Machine paging) : Machine paging × Outcome UInt64 :=
  ({ m with kernel := m.kernel.panic }, .panicked)

def call {α : Type} (m : Machine paging) (called : Kernel × Outcome α) (result : α → UInt64) :
    Machine paging × Outcome UInt64 :=
  ({ m with kernel := called.1 }, called.2.map result)

/-- The whole range lies below the end of the lower half, without wrapping. -/
def userRange (ptr : UInt64) (len : Nat) : Bool := ptr.toNat + len < 0x0000800000000000

def messageSize : Nat := 48
def framebufferInfoSize : Nat := 48

/-! ## Text and messages -/

def sysLog (m : Machine paging) (ptr len : UInt64) (env : CallEnv) : Machine paging × Outcome UInt64 :=
  if userRange ptr len.toNat then
    match env.text with
    | none => m.panic
    | some bytes => if Base.Utf8.valid bytes then (m, .done 0) else (m, .done (errno (-1)))
  else (m, .done (errno (-2)))

def sysSend (m : Machine paging) (handle msgPtr : UInt64) (env : CallEnv) : Machine paging × Outcome UInt64 :=
  if userRange msgPtr messageSize then
    match env.message with
    | none => m.panic
    | some msg => m.call (m.kernel.sysSend handle msg) fun
      | .ok () => 0
      | .error _ => errno (-3)
  else (m, .done (errno (-2)))

/-- `SYS_RECV`. A caller that blocks writes its message after it is resumed. -/
def sysRecv (m : Machine paging) (handle msgPtr : UInt64) (env : CallEnv) : Machine paging × Outcome UInt64 :=
  if userRange msgPtr messageSize then
    match m.kernel.sysRecv handle with
    | (kernel, .done (.ok _)) =>
      if env.writable then ({ m with kernel := kernel }, .done 0) else { m with kernel := kernel }.panic
    | called => m.call called fun
      | .ok _ => 0
      | .error _ => errno (-3)
  else (m, .done (errno (-2)))

/-! ## Processes and threads -/

def sysSpawn (m : Machine paging) (namePtr nameLen epHandle : UInt64) (env : CallEnv) :
    Machine paging × Outcome UInt64 :=
  if userRange namePtr nameLen.toNat then
    match env.text with
    | none => m.panic
    | some name =>
      if Base.Utf8.valid name then
        -- the capability is looked up before the archive is searched
        match m.kernel.lookup epHandle, platform.findFile name with
        | none, _ => m.panic
        | some _, none => (m, .done (errno (-4)))
        | some _, some image =>
          match Elf.load image m.kernel.hardware.cr3 m.memory with
          | (memory, none) => { m with memory := memory }.panic
          | (memory, some (entryPoint, cr3)) =>
            { m with memory := memory }.call (m.kernel.spawnChild epHandle entryPoint cr3 env.stackBase) UInt64.ofNat
      else (m, .done (errno (-1)))
  else (m, .done (errno (-2)))

def sysThreadSpawn (m : Machine paging) (entryPoint userStack : UInt64) (env : CallEnv) :
    Machine paging × Outcome UInt64 :=
  if entryPoint ≥ 0x0000800000000000 ∨ userStack ≥ 0x0000800000000000 then (m, .done (errno (-2)))
  else m.call (m.kernel.spawnThread entryPoint userStack env.stackBase) id

/-! ## Ports -/

/-- The check `SYS_PORT_IN` and `SYS_PORT_OUT` make on the capability at the given handle. -/
def portAllowed (held : Option Capability) (port : UInt16) (size : UInt8) : Bool :=
  match held with
  | some (.portIo start len allowedWidth) =>
    start ≤ port && port.toUInt32 + size.toUInt32 ≤ start.toUInt32 + len.toUInt32 &&
      (allowedWidth = 0 || size = allowedWidth)
  | _ => false

def sysPortIn (m : Machine paging) (handle : UInt64) (port : UInt16) (size : UInt8) (env : CallEnv) :
    Machine paging × Outcome UInt64 :=
  match m.kernel.lookup handle with
  | none => m.panic
  | some (_, _, held) =>
    if portAllowed held port size then
      let m' := { m with ports := .read port size :: m.ports }
      if size = 1 then (m', .done env.portValue.toUInt8.toUInt64)
      else if size = 2 then (m', .done env.portValue.toUInt16.toUInt64)
      else if size = 4 then (m', .done env.portValue.toUInt64)
      -- a width that passed the range check and that no instruction has
      else (m, .done u64Max)
    else (m, .done u64Max)

def sysPortOut (m : Machine paging) (handle : UInt64) (port : UInt16) (size : UInt8) (val : UInt32) :
    Machine paging × Outcome UInt64 :=
  match m.kernel.lookup handle with
  | none => m.panic
  | some (_, _, held) =>
    if portAllowed held port size then
      if size = 1 then ({ m with ports := .write port 1 val.toUInt8.toUInt32 :: m.ports }, .done 0)
      else if size = 2 then ({ m with ports := .write port 2 val.toUInt16.toUInt32 :: m.ports }, .done 0)
      else if size = 4 then ({ m with ports := .write port 4 val :: m.ports }, .done 0)
      else (m, .done u64Max)
    else (m, .done u64Max)

/-! ## Memory -/

def mmioFlags : PageFlags := ⟨true, true, true, false⟩

/-- Each handle has a window of 16 MB of its own above 2 GB. -/
def windowAddr (handle : UInt64) : UInt64 := 0x80000000 + handle * 0x1000000

def mapPage (cr3 page currentPhys : UInt64) : Action (Memory paging) UInt64 := do
  let addr ← expect (PhysAddr.new currentPhys)
  Memory.expectMapTo cr3 page (containingAddress addr) mmioFlags
  pure (currentPhys + PAGE_SIZE)

def mapWindow (cr3 virtAddr actualPhys actualLen : UInt64) : Action (Memory paging) UInt64 :=
  Memory.forAddresses virtAddr (virtAddr + actualLen - 1) (mapPage cr3) actualPhys

def saturatingAdd (left right : UInt64) : UInt64 := if left.toNat + right.toNat < 2 ^ 64 then left + right else u64Max

/-- The range a request is about: `u64::MAX` asks for the capability's own. -/
def actualRange (start len physAddr length : UInt64) : UInt64 × UInt64 :=
  if physAddr = u64Max then (start, len) else (physAddr, length)

def mapAllowed (start len : UInt64) (actual : UInt64 × UInt64) : Bool :=
  let endRequested := saturatingAdd actual.1 actual.2
  let endAllowed := saturatingAdd start len
  start ≤ actual.1 && endRequested ≤ endAllowed && actual.1 ≤ endRequested

def mapRange (m : Machine paging) (callerCr3 : Option UInt64) (virtAddr : UInt64) (actual : UInt64 × UInt64) :
    Machine paging × Outcome UInt64 :=
  match callerCr3 with
  | none => m.panic
  | some cr3 =>
    match mapWindow cr3 virtAddr actual.1 actual.2 m.memory with
    | (memory, none) => { m with memory := memory }.panic
    | (memory, some _) => ({ m with memory := memory }, .done virtAddr)

def sysMapPhys (m : Machine paging) (handle physAddr length : UInt64) : Machine paging × Outcome UInt64 :=
  match m.kernel.lookup handle with
  | none => m.panic
  | some (current, _, some (.memoryMap start len)) =>
    let actual := actualRange start len physAddr length
    if mapAllowed start len actual then m.mapRange current.cr3 (windowAddr handle) actual else (m, .done 0)
  | some _ => (m, .done 0)

def sysFramebufferInfo (m : Machine paging) (infoPtr : UInt64) (env : CallEnv) : Machine paging × Outcome UInt64 :=
  if userRange infoPtr framebufferInfoSize then
    match platform.framebuffer with
    | some _ => if env.writable then (m, .done 0) else m.panic
    | none => (m, .done (errno (-4)))
  else (m, .done (errno (-2)))

def sysFrameAlloc (m : Machine paging) (size : UInt64) : Machine paging × Outcome UInt64 :=
  if size > 4096 then (m, .done 0)
  else
    match Memory.allocateFrame m.memory with
    | (memory, none) => { m with memory := memory }.panic
    | (memory, some none) => ({ m with memory := memory }, .done 0)
    | (memory, some (some frame)) =>
      { m with memory := (Memory.zeroFrame frame memory).1 }.call (m.kernel.grantMemory frame 4096) UInt64.ofNat

def sysDmaAlloc (m : Machine paging) (size : UInt64) : Machine paging × Outcome UInt64 :=
  match m.dmaPool.allocateDmaFrames m.memory.ram platform.hhdmOffset size with
  | (pool, ram, result) =>
    let m' := { m with dmaPool := pool, memory := { m.memory with ram := ram } }
    match result with
    | none => m'.panic
    | some none => (m', .done 0)
    | some (some phys) => m'.call (m.kernel.grantMemory phys size) UInt64.ofNat

def sysCapInfo (m : Machine paging) (handle : UInt64) : Machine paging × Outcome UInt64 :=
  match m.kernel.lookup handle with
  | none => m.panic
  | some (_, _, some (.memoryMap phys _)) => (m, .done phys)
  | some (_, _, some (.portIo base _ _)) => (m, .done base.toUInt64)
  | some (_, _, some (.interrupt irq)) => (m, .done irq.toUInt64)
  | some _ => (m, .done u64Max)

/-! ## The handler -/

def syscallHandler (m : Machine paging) (regs : Registers) (env : CallEnv) : Machine paging × Outcome UInt64 :=
  match regs.rax.toNat with
  | 0 => m.call m.kernel.yieldNow fun _ => 0
  | 1 => ({ m with kernel := m.kernel.exitCurrentThread env.rax env.rsp }, .exited)
  | 2 => m.sysLog regs.rdi regs.rsi env
  | 3 => m.call m.kernel.sysEndpointCreate UInt64.ofNat
  | 4 => m.sysSend regs.rdi regs.rsi env
  | 5 => m.sysRecv regs.rdi regs.rsi env
  | 6 => m.sysSpawn platform regs.rdi regs.rsi regs.rdx env
  | 7 => m.call (m.kernel.sysWait regs.rdi) errno
  | 8 => m.call (m.kernel.sysWaitIrq regs.rdi) errno
  | 9 => m.sysPortIn regs.rdi regs.rsi.toUInt16 regs.rdx.toUInt8 env
  | 10 => m.sysPortOut regs.rdi regs.rsi.toUInt16 regs.rdx.toUInt8 regs.r10.toUInt32
  | 11 => m.sysMapPhys regs.rdi regs.rsi regs.rdx
  | 12 => m.sysFramebufferInfo platform regs.rdi env
  | 13 => m.sysFrameAlloc regs.rdi
  | 14 => m.sysDmaAlloc platform regs.rdi
  | 15 => m.sysCapInfo regs.rdi
  | 16 => m.sysThreadSpawn regs.rdi regs.rsi env
  | _ => (m, .done (errno (-1)))

end Machine

end ElseOS
