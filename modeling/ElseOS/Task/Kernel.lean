import Mathlib.Logic.Function.Basic
import ElseOS.Task.Thread

/-! The state shared by the scheduler, the endpoints and the capability spaces.

`frames` is the part of kernel stack memory that context switches use: the frame a
suspended thread left, with the code that continues from it. A frame is consumed
when its thread resumes. `trace` records what happened and is read by no function.
-/

set_option autoImplicit false

namespace ElseOS

/-- The calls that suspend their caller on its own stack. -/
inductive BlockingCall where
  | yieldNow
  | sysSend (ep : EndpointRef) (msg : Message)
  | sysRecv (ep : EndpointRef)
  | sysWait (state : ProcessRef)
  | sysWaitIrq (irq : UInt8)
  deriving DecidableEq, Repr

inductive Resume where
  /-- `user_trampoline` or `thread_entry_stub`, which finish the switch first. -/
  | entry (entryPoint userStack : UInt64)
  /-- The return address inside a suspending call. `finishes` holds when the code there
  calls `after_switch`, as it does after `switch_context` but not after
  `switch_context_to_preemptive`. -/
  | call (call : BlockingCall) (finishes : Bool)
  /-- An interrupt frame of the thread's own code. -/
  | interrupted
  deriving DecidableEq, Repr

def BlockingCall.receivesFrom : BlockingCall → Option EndpointRef
  | .sysRecv ep => some ep
  | _ => none

namespace Resume

def finishesSwitch : Resume → Bool
  | .entry _ _ => true
  | .call _ finishes => finishes
  | .interrupted => false

def receivesFrom : Resume → Option EndpointRef
  | .call blocked _ => blocked.receivesFrom
  | _ => none

end Resume

inductive Cpu where
  /-- `_start`, which yields in a loop. -/
  | boot
  /-- The thread's own code, interrupts enabled. -/
  | running (tid : Tid)
  /-- Inside a suspending call with interrupts disabled, about to look at the run queue. -/
  | dispatching (source : Option Tid) (call : BlockingCall)
  /-- In `enable_and_hlt`, waiting for the run queue to fill. -/
  | idle (tid : Tid) (call : BlockingCall)
  | halted
  /-- Control went to a stack address that holds no frame of this thread. -/
  | astray (tid : Tid)
  deriving DecidableEq, Repr

/-- What `STATE_TO_UPDATE` points at: the state of a boxed thread, or of an element
stored in a process's wait queue. -/
inductive StatePtr where
  | boxed (tid : Tid)
  | waitSlot (state : ProcessRef) (tid : Tid)
  deriving DecidableEq, Repr

def StatePtr.tid : StatePtr → Tid
  | .boxed tid => tid
  | .waitSlot _ tid => tid

structure Hardware where
  tssRsp0 : UInt64
  kernelStack : UInt64
  cr3 : UInt64
  deriving DecidableEq, Repr

inductive Event where
  | created (tid : Tid) (state : SavedThreadState)
  | exited (tid : Tid)
  /-- The CPU left this thread's stack; the state leads to the frame left there. -/
  | suspended (tid : Tid) (state : SavedThreadState)
  /-- The thread became current and control went to the frame this state leads to. -/
  | dispatched (tid : Tid) (state : SavedThreadState)
  /-- `after_switch` wrote a thread's state. -/
  | stateWritten (tid : Tid) (state : SavedThreadState)
  /-- A `sys_send` reached the endpoint with its capability checked. -/
  | sent (ep : EndpointRef) (tid : Tid) (msg : Message)
  | senderBlocked (ep : EndpointRef) (tid : Tid) (msg : Message)
  /-- The `sys_send` is over: it returned at once, or its blocked sender was released. -/
  | sendCompleted (ep : EndpointRef) (tid : Tid) (msg : Message)
  /-- A `sys_recv` reached the endpoint with its capability checked. -/
  | receiving (ep : EndpointRef) (tid : Tid)
  | receiverBlocked (ep : EndpointRef) (tid : Tid)
  /-- A running sender gave its message to a waiting receiver. -/
  | delivered (ep : EndpointRef) (sender receiver : Tid) (msg : Message)
  /-- A running receiver took the message of a waiting sender. -/
  | taken (ep : EndpointRef) (sender receiver : Tid) (msg : Message)
  /-- `sys_recv` returned this message. -/
  | received (ep : EndpointRef) (tid : Tid) (msg : Message)
  /-- A `sys_wait` reached the process state with its capability checked. -/
  | waited (state : ProcessRef) (tid : Tid)
  /-- A `sys_wait_irq` reached the IRQ with its capability checked. -/
  | irqWaited (irq : UInt8) (tid : Tid)
  deriving DecidableEq, Repr

structure Kernel where
  scheduler : Scheduler
  stateToUpdate : Option StatePtr
  endpoints : EndpointRef → EndpointState
  processes : ProcessRef → ProcessState
  cspaces : CSpaceRef → CSpace
  nextEndpoint : EndpointRef
  nextProcess : ProcessRef
  nextCSpace : CSpaceRef
  nextTid : Tid
  nextUserId : UInt64
  nextKernelId : UInt64
  msgBuf : Tid → Message
  frames : Tid → Option (SavedThreadState × Resume)
  cpu : Cpu
  hardware : Hardware
  trace : List Event

namespace Kernel

def new (cr3 : UInt64) : Kernel where
  scheduler := Scheduler.new
  stateToUpdate := none
  endpoints := fun _ => EndpointState.new
  processes := fun _ => ProcessState.new
  cspaces := fun _ => CSpace.new
  nextEndpoint := 0
  nextProcess := 0
  nextCSpace := 0
  nextTid := 0
  nextUserId := 1
  nextKernelId := 1
  msgBuf := fun _ => Message.zero
  frames := fun _ => none
  cpu := .boot
  hardware := ⟨0, 0, cr3⟩
  trace := []

def emit (k : Kernel) (event : Event) : Kernel := { k with trace := event :: k.trace }

def panic (k : Kernel) : Kernel := { k with cpu := .halted }

def setEndpoint (k : Kernel) (ep : EndpointRef) (state : EndpointState) : Kernel :=
  { k with endpoints := Function.update k.endpoints ep state }

def setProcess (k : Kernel) (p : ProcessRef) (state : ProcessState) : Kernel :=
  { k with processes := Function.update k.processes p state }

def setCSpace (k : Kernel) (cs : CSpaceRef) (cspace : CSpace) : Kernel :=
  { k with cspaces := Function.update k.cspaces cs cspace }

def pushBack (k : Kernel) (thread : Thread) : Kernel :=
  { k with scheduler := k.scheduler.addThread thread }

def setIrqWaiter (k : Kernel) (irq : UInt8) (waiter : Option Thread) : Kernel :=
  { k with scheduler := { k.scheduler with
      irqWaiters := Function.update k.scheduler.irqWaiters irq waiter } }

def writeBuffer (k : Kernel) (tid : Tid) (msg : Message) : Kernel :=
  { k with msgBuf := Function.update k.msgBuf tid msg }

/-- A write through a state pointer. A boxed thread keeps its address wherever its box
is moved; a wait-queue element is found only while it stands in that queue. -/
def writeState (k : Kernel) (ptr : StatePtr) (state : SavedThreadState) : Kernel :=
  match ptr with
  | .boxed tid =>
    { k with
      scheduler := { k.scheduler with
        runQueue := k.scheduler.runQueue.map (Thread.setState tid state)
        current := k.scheduler.current.map (Thread.setState tid state)
        irqWaiters := fun irq => (k.scheduler.irqWaiters irq).map (Thread.setState tid state) }
      endpoints := fun ep => (k.endpoints ep).mapThreads (Thread.setState tid state) }
  | .waitSlot p tid =>
    k.setProcess p { k.processes p with
      waitQueue := (k.processes p).waitQueue.map (Thread.setState tid state) }

def prepareThreadSwitch (k : Kernel) (next : Thread) : Kernel :=
  { k with hardware := {
      tssRsp0 := next.stackTop
      kernelStack := next.stackTop
      cr3 := next.cr3.getD k.hardware.cr3 } }

def afterSwitch (k : Kernel) (oldRsp : UInt64) : Kernel :=
  match k.stateToUpdate with
  | none => k
  | some ptr =>
    { (k.writeState ptr (.cooperative oldRsp)).emit (.stateWritten ptr.tid (.cooperative oldRsp)) with
      stateToUpdate := none }

def suspend (k : Kernel) (tid : Tid) (state : SavedThreadState) (resume : Resume) : Kernel :=
  { k.emit (.suspended tid state) with frames := Function.update k.frames tid (some (state, resume)) }

/-- Execute the code a frame continues in. `rax` holds what that code takes as the
stack pointer of the thread that switched to it. -/
def continueAt (k : Kernel) (tid : Tid) (resume : Resume) (rax : UInt64) : Kernel :=
  let k := if resume.finishesSwitch then k.afterSwitch rax else k
  let k := { k with cpu := .running tid }
  match resume.receivesFrom with
  | some ep => k.emit (.received ep tid (k.msgBuf tid))
  | none => k

def resume (k : Kernel) (tid : Tid) (state : SavedThreadState) (rax : UInt64) : Kernel :=
  let k := k.emit (.dispatched tid state)
  match k.frames tid with
  | some (saved, resume) =>
    if saved = state then
      { k with frames := Function.update k.frames tid none }.continueAt tid resume rax
    else { k with cpu := .astray tid }
  | none => { k with cpu := .astray tid }

def makeCurrent (k : Kernel) (next : Thread) (rest : List Thread) : Kernel :=
  let k := { k with scheduler := { k.scheduler with runQueue := rest } }
  let k := k.prepareThreadSwitch next
  { k with scheduler := { k.scheduler with current := some next } }

end Kernel

end ElseOS
