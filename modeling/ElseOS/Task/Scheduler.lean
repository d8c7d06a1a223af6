import ElseOS.Task.Kernel

/-! The functions of `task/scheduler.rs`, with the assembly they switch through.

A call that suspends its caller is cut where the source reads the run queue: the
first half queues the caller and leaves the CPU `dispatching`; `dispatch` is the
second half. Interrupts are disabled in between, so nothing else can happen there.
Stack pointers depend on compiled frame sizes and are arguments.
-/

set_option autoImplicit false

namespace ElseOS

inductive Outcome (α : Type) where
  | done (result : α)
  /-- The caller is suspended; the call returns when it is resumed. -/
  | blocked
  /-- The caller is gone. -/
  | exited
  | panicked
  deriving DecidableEq, Repr

def Outcome.map {α β : Type} (f : α → β) : Outcome α → Outcome β
  | .done result => .done (f result)
  | .blocked => .blocked
  | .exited => .exited
  | .panicked => .panicked

namespace Kernel

/-! ## Creating threads -/

def newUserThread (k : Kernel) (entryPoint userStack cr3 : UInt64) (cspace : CSpaceRef)
    (processState : ProcessRef) (stackBase : UInt64) : Kernel × Thread :=
  let thread : Thread := {
    tid := k.nextTid
    id := k.nextUserId
    state := Thread.initialState stackBase
    stackBase := stackBase
    cr3 := some cr3
    cspace := some cspace
    processState := some processState }
  let k := { k with
    nextTid := k.nextTid + 1
    nextUserId := k.nextUserId + 1
    frames := Function.update k.frames k.nextTid (some (thread.state, .entry entryPoint userStack)) }
  (k.emit (.created thread.tid thread.state), thread)

/-- `Thread::new_kernel_thread`: no page table and no process, an empty space of its own. -/
def newKernelThread (k : Kernel) (entryPoint stackBase : UInt64) : Kernel × Thread :=
  let thread : Thread := {
    tid := k.nextTid
    id := k.nextKernelId
    state := Thread.initialState stackBase
    stackBase := stackBase
    cr3 := none
    cspace := some k.nextCSpace
    processState := none }
  let k := { k with
    nextTid := k.nextTid + 1
    nextKernelId := k.nextKernelId + 1
    nextCSpace := k.nextCSpace + 1
    frames := Function.update k.frames k.nextTid (some (thread.state, .entry entryPoint 0)) }
  (k.emit (.created thread.tid thread.state), thread)

def spawnSpace : Option Capability → CSpace
  | some cap => CSpace.new.insertAt 1 cap
  | none => CSpace.new

/-- The end of `spawn_from_elf`: a capability space, a process state, and the first thread. -/
def spawnProcess (k : Kernel) (granted : Option Capability) (entryPoint stackTop cr3 stackBase : UInt64) :
    Kernel × ProcessRef × CSpaceRef :=
  let cs := k.nextCSpace
  let p := k.nextProcess
  let k := { (k.setCSpace cs (spawnSpace granted)).setProcess p ProcessState.new with
    nextCSpace := k.nextCSpace + 1
    nextProcess := k.nextProcess + 1 }
  let (k, thread) := k.newUserThread entryPoint stackTop cr3 cs p stackBase
  (k.pushBack thread, p, cs)

/-! ## The timer -/

def pickNext (k : Kernel) (saved : SavedThreadState) : Kernel × SavedThreadState :=
  let k := match k.scheduler.current with
    | some current =>
      { k with scheduler := { k.scheduler with
          current := none
          runQueue := k.scheduler.runQueue ++ [{ current with state := saved }] } }
    | none => k
  match k.scheduler.runQueue with
  | next :: rest => (k.makeCurrent next rest, next.state)
  -- nobody was running and nobody is queued
  | [] => (k, saved)

structure SchedulerReturn where
  tag : UInt64
  rsp : UInt64
  deriving DecidableEq, Repr

def timerTickHandler (k : Kernel) (rsp : UInt64) : Kernel × SchedulerReturn :=
  let (k, next) := k.pickNext (.preemptive rsp)
  match next with
  | .cooperative sp => (k, ⟨0, sp⟩)
  | .preemptive sp => (k, ⟨1, sp⟩)

/-- The frame kind the stub's two exits expect at the returned stack pointer. -/
def SchedulerReturn.target (ret : SchedulerReturn) : SavedThreadState :=
  if ret.tag = 0 then .cooperative ret.rsp else .preemptive ret.rsp

/-- `rax` at the stub's cooperative exit: the tag, whose low byte the EOI overwrote. -/
def stubRax : UInt64 := 0x20

/-- `timer_interrupt_stub`. The interrupted thread's registers are on its kernel stack
before the handler runs. An interrupted idle loop belongs to no current thread: when
the handler switches away from it, no thread's state leads to its frame. -/
def timerTick (k : Kernel) (rsp : UInt64) : Kernel :=
  match k.cpu with
  | .running tid =>
    let (k, ret) := (k.suspend tid (.preemptive rsp) .interrupted).timerTickHandler rsp
    match k.scheduler.current with
    | some next => k.resume next.tid ret.target stubRax
    | none => { k with cpu := .running tid }
  | .idle tid _ =>
    let (k', ret) := k.timerTickHandler rsp
    match k'.scheduler.current with
    | some next => (k'.emit (.suspended tid (.preemptive rsp))).resume next.tid ret.target stubRax
    | none => k'
  | _ =>
    let (k', ret) := k.timerTickHandler rsp
    match k'.scheduler.current with
    | some next => k'.resume next.tid ret.target stubRax
    | none => k'

/-! ## Leaving the CPU -/

/-- `switch_context` and `switch_context_to_preemptive` push the same registers. `_start` has no
thread whose frame could be found again. -/
def leave (k : Kernel) (source : Option Tid) (rsp : UInt64) (call : BlockingCall) (finishes : Bool) : Kernel :=
  match source with
  | some tid => k.suspend tid (.cooperative rsp) (.call call finishes)
  | none => k

/-- The waiting loop and the switch at the end of every suspending call. -/
def dispatch (k : Kernel) (source : Option Tid) (call : BlockingCall) (rsp : UInt64) : Kernel :=
  match k.scheduler.runQueue with
  | [] =>
    match source with
    -- `enable_and_hlt` until an interrupt queues somebody
    | some tid => { k with cpu := .idle tid call }
    | none => k.panic
  | next :: rest =>
    let k := k.makeCurrent next rest
    match next.state, call with
    -- the code that is switched to calls `after_switch` with the `rax` of `switch_context`
    | .cooperative _, _ => (k.leave source rsp call true).resume next.tid next.state rsp
    -- `unimplemented!`
    | .preemptive _, .yieldNow => k.panic
    -- `switch_context_to_preemptive` calls `after_switch` itself, before it leaves the stack
    | .preemptive _, _ => ((k.leave source rsp call false).afterSwitch rsp).resume next.tid next.state rsp

def yieldNow (k : Kernel) : Kernel × Outcome Unit :=
  if k.scheduler.runQueue.isEmpty then (k, .done ())
  else match k.scheduler.current with
    | some current =>
      ({ k with
        scheduler := { k.scheduler with
          current := none
          runQueue := k.scheduler.runQueue ++ [current] }
        stateToUpdate := some (.boxed current.tid)
        cpu := .dispatching (some current.tid) .yieldNow }, .blocked)
    | none => ({ k with stateToUpdate := none, cpu := .dispatching none .yieldNow }, .blocked)

/-- The first half of `exit_current_thread`: wake the waiters of the process, drop the thread. -/
def retire (k : Kernel) (current : Thread) : Kernel :=
  let k := match current.processState with
    | some p =>
      { k.setProcess p ⟨true, []⟩ with scheduler := { k.scheduler with
          runQueue := k.scheduler.runQueue ++ (k.processes p).waitQueue } }
    | none => k
  { k with scheduler := { k.scheduler with current := none } }.emit (.exited current.tid)

/-- `exit_current_thread`. `rax` is whatever `switch_context_to_cooperative` finds there. -/
def exitCurrentThread (k : Kernel) (rax rsp : UInt64) : Kernel :=
  match k.scheduler.current with
  | none => k.panic
  | some current =>
    let k := k.retire current
    match k.scheduler.runQueue with
    | next :: rest =>
      let k := k.makeCurrent next rest
      match next.state with
      -- nothing is pushed: the frame of the exiting thread is never looked for again
      | .cooperative _ => k.resume next.tid next.state rax
      | .preemptive _ => (k.afterSwitch rsp).resume next.tid next.state rax
    -- `panic!("All threads exited. System halted.")`
    | [] => k.panic

def block (k : Kernel) (ptr : StatePtr) (call : BlockingCall) : Kernel :=
  { k with
    scheduler := { k.scheduler with current := none }
    stateToUpdate := some ptr
    cpu := .dispatching (some ptr.tid) call }

/-! ## Endpoints -/

/-- What the caller's space holds at a handle; `none` where the source unwraps nothing. -/
def lookup (k : Kernel) (handle : UInt64) : Option (Thread × CSpaceRef × Option Capability) :=
  k.scheduler.current.bind fun current => current.cspace.map fun cs =>
    (current, cs, (k.cspaces cs).get handle.toNat)

def deliver (k : Kernel) (current : Thread) (ep : EndpointRef) (msg : Message) (receiver : Thread)
    (ptr : MessagePtr) (queue : List (Thread × MessagePtr)) : Kernel :=
  let k := ((k.writeBuffer ptr.owner msg).setEndpoint ep (.receiversWaiting queue)).pushBack receiver
  (k.emit (.delivered ep current.tid receiver.tid msg)).emit (.sendCompleted ep current.tid msg)

def blockSender (k : Kernel) (current : Thread) (ep : EndpointRef) (msg : Message)
    (queue : List (Thread × Message)) : Kernel :=
  let k := k.setEndpoint ep (.sendersWaiting (queue ++ [(current, msg)]))
  (k.block (.boxed current.tid) (.sysSend ep msg)).emit (.senderBlocked ep current.tid msg)

def sendOn (k : Kernel) (current : Thread) (ep : EndpointRef) (msg : Message) :
    Kernel × Outcome (Except CapError Unit) :=
  let k := k.emit (.sent ep current.tid msg)
  match k.endpoints ep with
  | .receiversWaiting ((receiver, ptr) :: queue) =>
    (k.deliver current ep msg receiver ptr queue, .done (.ok ()))
  | state =>
    let state := match state with
      | .idle => .sendersWaiting []
      | other => other
    let k := k.setEndpoint ep state
    match state with
    | .sendersWaiting queue => (k.blockSender current ep msg queue, .blocked)
    -- a drained receiver queue is neither idle nor a sender queue
    | _ => (k.emit (.sendCompleted ep current.tid msg), .done (.ok ()))

def sysSend (k : Kernel) (handle : UInt64) (msg : Message) : Kernel × Outcome (Except CapError Unit) :=
  match k.lookup handle with
  | none => (k.panic, .panicked)
  | some (_, _, none) => (k, .done (.error .invalidHandle))
  | some (current, _, some (.endpoint ep rights)) =>
    if rights.contains .SEND then k.sendOn current ep msg
    else (k, .done (.error .permissionDenied))
  | some (_, _, some _) => (k, .done (.error .wrongType))

def take (k : Kernel) (current : Thread) (ep : EndpointRef) (sender : Thread) (msg : Message)
    (queue : List (Thread × Message)) : Kernel :=
  let k := (k.setEndpoint ep (.sendersWaiting queue)).pushBack sender
  let k := (k.emit (.taken ep sender.tid current.tid msg)).emit (.sendCompleted ep sender.tid msg)
  k.emit (.received ep current.tid msg)

def blockReceiver (k : Kernel) (current : Thread) (ep : EndpointRef) (queue : List (Thread × MessagePtr)) :
    Kernel :=
  let k := k.setEndpoint ep (.receiversWaiting (queue ++ [(current, ⟨current.tid⟩)]))
  (k.block (.boxed current.tid) (.sysRecv ep)).emit (.receiverBlocked ep current.tid)

def recvOn (k : Kernel) (current : Thread) (ep : EndpointRef) :
    Kernel × Outcome (Except CapError Message) :=
  let k := (k.emit (.receiving ep current.tid)).writeBuffer current.tid .zero
  match k.endpoints ep with
  | .sendersWaiting ((sender, msg) :: queue) => (k.take current ep sender msg queue, .done (.ok msg))
  | state =>
    let state := match state with
      | .idle => .receiversWaiting []
      | other => other
    let k := k.setEndpoint ep state
    match state with
    | .receiversWaiting queue => (k.blockReceiver current ep queue, .blocked)
    -- a drained sender queue is neither idle nor a receiver queue
    | _ => (k.emit (.received ep current.tid (k.msgBuf current.tid)), .done (.ok (k.msgBuf current.tid)))

def sysRecv (k : Kernel) (handle : UInt64) : Kernel × Outcome (Except CapError Message) :=
  match k.lookup handle with
  | none => (k.panic, .panicked)
  | some (_, _, none) => (k, .done (.error .invalidHandle))
  | some (current, _, some (.endpoint ep rights)) =>
    if rights.contains .RECEIVE then k.recvOn current ep
    else (k, .done (.error .permissionDenied))
  | some (_, _, some _) => (k, .done (.error .wrongType))

def sysEndpointCreate (k : Kernel) : Kernel × Outcome Nat :=
  match k.lookup 0 with
  | none => (k.panic, .panicked)
  | some (_, cs, _) =>
    let (cspace, handle) := (k.cspaces cs).insert (.endpoint k.nextEndpoint .ALL)
    ({ (k.setEndpoint k.nextEndpoint .new).setCSpace cs cspace with
      nextEndpoint := k.nextEndpoint + 1 }, .done handle)

/-! ## Processes and interrupts -/

def sysWait (k : Kernel) (handle : UInt64) : Kernel × Outcome Int :=
  match k.lookup handle with
  | none => (k.panic, .panicked)
  | some (current, _, some (.process p rights)) =>
    if rights.contains .WAIT then
      let k := k.emit (.waited p current.tid)
      if (k.processes p).terminated then (k, .done 0)
      else
        let k := k.setProcess p { k.processes p with waitQueue := (k.processes p).waitQueue ++ [current] }
        (k.block (.waitSlot p current.tid) (.sysWait p), .blocked)
    else (k, .done (-3))
  | some _ => (k, .done (-2))

def unblockIrq (k : Kernel) (irq : UInt8) : Kernel :=
  match k.scheduler.irqWaiters irq with
  | some thread => (k.setIrqWaiter irq none).pushBack thread
  | none =>
    { k with scheduler := { k.scheduler with
        pendingIrqs := Function.update k.scheduler.pendingIrqs irq true } }

/-- `sys_wait_irq`. The slot is assigned whether or not it holds a waiter. -/
def sysWaitIrq (k : Kernel) (handle : UInt64) : Kernel × Outcome Int :=
  match k.lookup handle with
  | none => (k.panic, .panicked)
  | some (current, _, some (.interrupt irq)) =>
    let k := k.emit (.irqWaited irq current.tid)
    if k.scheduler.pendingIrqs irq then
      ({ k with scheduler := { k.scheduler with
          pendingIrqs := Function.update k.scheduler.pendingIrqs irq false } }, .done 0)
    else
      let k := k.setIrqWaiter irq (some current)
      (k.block (.boxed current.tid) (.sysWaitIrq irq), .blocked)
  | some _ => (k, .done (-2))

end Kernel

end ElseOS
