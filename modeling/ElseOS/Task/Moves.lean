import ElseOS.Task.Authority

/-! What one step can do to the scheduler and the endpoints, case by case.

`Moves` lists the cases with the conditions under which each arises; invariants are
proved over these cases and never unfold the kernel functions again. It holds for
orderly states, in which the CPU agrees with the scheduler and unused endpoint and
process numbers are still fresh.
-/

set_option autoImplicit false

namespace ElseOS

def Cpu.Agrees : Cpu → List Tid → Prop
  | .running tid, current => current = [tid]
  | .boot, current | .dispatching _ _, current | .idle _ _, current => current = []
  | .halted, _ | .astray _, _ => True

namespace Kernel

structure Orderly (k : Kernel) : Prop where
  cpu : k.cpu.Agrees (k.occupants .current)
  freshEndpoints : ∀ ep, k.nextEndpoint ≤ ep → k.meeting ep = .idle
  freshProcesses : ∀ p, k.nextProcess ≤ p → k.occupants (.waitQueue p) = []
  bounded : k.objects.Bounded

/-- The caller, endpoint and message of a send that passes its capability check. -/
def sending (k : Kernel) : Op → Option (Thread × EndpointRef × Message)
  | .sysSend handle msg =>
    match k.lookup handle with
    | some (current, _, some (.endpoint ep rights)) =>
      if rights.contains .SEND then some (current, ep, msg) else none
    | _ => none
  | _ => none

def receiving (k : Kernel) : Op → Option (Thread × EndpointRef)
  | .sysRecv handle =>
    match k.lookup handle with
    | some (current, _, some (.endpoint ep rights)) =>
      if rights.contains .RECEIVE then some (current, ep) else none
    | _ => none
  | _ => none

def awaiting (k : Kernel) : Op → Option UInt8
  | .sysWaitIrq handle =>
    match k.lookup handle with
    | some (_, _, some (.interrupt irq)) => if k.scheduler.pendingIrqs irq then none else some irq
    | _ => none
  | _ => none

structure Quiet (k : Kernel) (op : Op) : Prop where
  sending : k.sending op = none
  receiving : k.receiving op = none
  awaiting : k.awaiting op = none

structure SameTasks (k after : Kernel) : Prop where
  runQueue : after.scheduler.runQueue = k.scheduler.runQueue
  current : after.scheduler.current = k.scheduler.current
  irqWaiters : after.scheduler.irqWaiters = k.scheduler.irqWaiters
  stateToUpdate : after.stateToUpdate = k.stateToUpdate
  endpoints : after.endpoints = k.endpoints
  waitQueues : ∀ p, (after.processes p).waitQueue = (k.processes p).waitQueue
  nextTid : after.nextTid = k.nextTid
  msgBuf : after.msgBuf = k.msgBuf
  frames : after.frames = k.frames
  cpu : after.cpu = k.cpu
  trace : after.trace = k.trace ∨ (∃ p tid, after.trace = .waited p tid :: k.trace) ∨
    ∃ irq tid, after.trace = .irqWaited irq tid :: k.trace

/-- A new thread has a new space, and a new process unless it is a kernel thread, or it shares those of
the thread that made it. -/
inductive Lineage (k after : Kernel) (thread : Thread) : Prop where
  | kernel : thread.cr3 = none → thread.cspace = some k.nextCSpace → thread.processState = none →
      after.nextCSpace = k.nextCSpace + 1 → after.nextProcess = k.nextProcess → Lineage k after thread
  | child {cr3 : UInt64} : thread.cr3 = some cr3 → thread.cspace = some k.nextCSpace →
      thread.processState = some k.nextProcess → after.nextCSpace = k.nextCSpace + 1 →
      after.nextProcess = k.nextProcess + 1 → (after.processes k.nextProcess).terminated = false →
      Lineage k after thread
  | sibling {current : Thread} {cr3 : UInt64} {cs : CSpaceRef} {p : ProcessRef} : k.scheduler.current = some current →
      current.cr3 = some cr3 → current.cspace = some cs → current.processState = some p → thread.cr3 = some cr3 →
      thread.cspace = some cs → thread.processState = some p → after.nextCSpace = k.nextCSpace →
      after.nextProcess = k.nextProcess → Lineage k after thread

structure Creates (k after : Kernel) (thread : Thread) : Prop where
  tid : thread.tid = k.nextTid
  scheduler : after.scheduler = k.scheduler.addThread thread
  stateToUpdate : after.stateToUpdate = k.stateToUpdate
  endpoints : after.endpoints = k.endpoints
  waitQueues : ∀ p, (after.processes p).waitQueue = (k.processes p).waitQueue
  nextTid : after.nextTid = k.nextTid + 1
  msgBuf : after.msgBuf = k.msgBuf
  frames : ∃ entryPoint userStack, after.frames =
    Function.update k.frames k.nextTid (some (thread.state, .entry entryPoint userStack))
  initial : ∃ stackBase, thread.state = Thread.initialState stackBase
  cpu : after.cpu = k.cpu
  trace : after.trace = .created thread.tid thread.state :: k.trace
  lineage : k.Lineage after thread

inductive Moves (k : Kernel) : Op → Kernel → Prop where
  | same {op : Op} {after : Kernel} :
      k.Quiet op → k.SameTasks after → Moves k op after
  | halt {op : Op} : k.Quiet op → Moves k op k.panic
  | create {op : Op} {after : Kernel} {thread : Thread} :
      k.Quiet op → k.Creates after thread → Moves k op after
  | yield {current : Thread} : k.scheduler.current = some current →
      Moves k .yieldNow { k with
        scheduler := { k.scheduler with
          current := none
          runQueue := k.scheduler.runQueue ++ [current] }
        stateToUpdate := some (.boxed current.tid)
        cpu := .dispatching (some current.tid) .yieldNow }
  | bootYield : k.scheduler.current = none →
      Moves k .yieldNow { k with stateToUpdate := none, cpu := .dispatching none .yieldNow }
  | deliver {op : Op} {current receiver : Thread} {ep : EndpointRef} {msg : Message} {ptr : MessagePtr}
      {queue : List (Thread × MessagePtr)} :
      k.sending op = some (current, ep, msg) → k.endpoints ep = .receiversWaiting ((receiver, ptr) :: queue) →
      Moves k op ((k.emit (.sent ep current.tid msg)).deliver current ep msg receiver ptr queue)
  | blockSender {op : Op} {current : Thread} {ep : EndpointRef} {msg : Message} :
      k.sending op = some (current, ep, msg) → (∀ queue, k.endpoints ep ≠ .receiversWaiting queue) →
      Moves k op ((k.emit (.sent ep current.tid msg)).blockSender current ep msg (k.endpoints ep).senders)
  | drop {op : Op} {current : Thread} {ep : EndpointRef} {msg : Message} :
      k.sending op = some (current, ep, msg) → k.endpoints ep = .receiversWaiting [] →
      Moves k op ((k.emit (.sent ep current.tid msg)).emit (.sendCompleted ep current.tid msg))
  | take {op : Op} {current sender : Thread} {ep : EndpointRef} {msg : Message}
      {queue : List (Thread × Message)} :
      k.receiving op = some (current, ep) → k.endpoints ep = .sendersWaiting ((sender, msg) :: queue) →
      Moves k op (((k.emit (.receiving ep current.tid)).writeBuffer current.tid .zero).take current ep sender msg queue)
  | blockReceiver {op : Op} {current : Thread} {ep : EndpointRef} :
      k.receiving op = some (current, ep) → (∀ queue, k.endpoints ep ≠ .sendersWaiting queue) →
      Moves k op (((k.emit (.receiving ep current.tid)).writeBuffer current.tid .zero).blockReceiver current ep
        (k.endpoints ep).receivers)
  | conjure {op : Op} {current : Thread} {ep : EndpointRef} :
      k.receiving op = some (current, ep) → k.endpoints ep = .sendersWaiting [] →
      Moves k op (((k.emit (.receiving ep current.tid)).writeBuffer current.tid .zero).emit
        (.received ep current.tid .zero))
  | wait {handle : UInt64} {current : Thread} {p : ProcessRef} : k.scheduler.current = some current →
      p < k.nextProcess →
      Moves k (.sysWait handle) (((k.emit (.waited p current.tid)).setProcess p { k.processes p with
        waitQueue := (k.processes p).waitQueue ++ [current] }).block (.waitSlot p current.tid) (.sysWait p))
  | waitIrq {handle : UInt64} {current : Thread} {irq : UInt8} : k.scheduler.current = some current →
      k.awaiting (.sysWaitIrq handle) = some irq →
      Moves k (.sysWaitIrq handle) (((k.emit (.irqWaited irq current.tid)).setIrqWaiter irq (some current)).block
        (.boxed current.tid) (.sysWaitIrq irq))
  | unblock {irq : UInt8} {thread : Thread} : k.scheduler.irqWaiters irq = some thread →
      Moves k (.unblockIrq irq) ((k.setIrqWaiter irq none).pushBack thread)
  | wake {tid : Tid} {call : BlockingCall} : k.cpu = .idle tid call →
      Moves k .wake { k with cpu := .dispatching (some tid) call }
  | idle {tid : Tid} {call : BlockingCall} {rsp : UInt64} : k.cpu = .dispatching (some tid) call →
      k.scheduler.runQueue = [] → Moves k (.dispatch rsp) { k with cpu := .idle tid call }
  | switchCooperative {source : Option Tid} {call : BlockingCall} {next : Thread} {rest : List Thread}
      {rsp sp : UInt64} : k.cpu = .dispatching source call → k.scheduler.runQueue = next :: rest →
      next.state = .cooperative sp →
      Moves k (.dispatch rsp)
        (((k.makeCurrent next rest).leave source rsp call true).resume next.tid next.state rsp)
  | switchPreemptive {source : Option Tid} {call : BlockingCall} {next : Thread} {rest : List Thread}
      {rsp sp : UInt64} : k.cpu = .dispatching source call → k.scheduler.runQueue = next :: rest →
      next.state = .preemptive sp →
      Moves k (.dispatch rsp)
        ((((k.makeCurrent next rest).leave source rsp call false).afterSwitch rsp).resume next.tid next.state rsp)
  | refuse {source : Option Tid} {next : Thread} {rest : List Thread} {rsp : UInt64} :
      k.cpu = .dispatching source .yieldNow → k.scheduler.runQueue = next :: rest →
      Moves k (.dispatch rsp) (k.makeCurrent next rest).panic
  | exitCooperative {current next : Thread} {rest : List Thread} {rax rsp sp : UInt64} :
      k.scheduler.current = some current → (k.retire current).scheduler.runQueue = next :: rest →
      next.state = .cooperative sp →
      Moves k (.exitCurrentThread rax rsp)
        (((k.retire current).makeCurrent next rest).resume next.tid next.state rax)
  | exitPreemptive {current next : Thread} {rest : List Thread} {rax rsp sp : UInt64} :
      k.scheduler.current = some current → (k.retire current).scheduler.runQueue = next :: rest →
      next.state = .preemptive sp →
      Moves k (.exitCurrentThread rax rsp)
        ((((k.retire current).makeCurrent next rest).afterSwitch rsp).resume next.tid next.state rax)
  | exitLast {current : Thread} {rax rsp : UInt64} : k.scheduler.current = some current →
      Moves k (.exitCurrentThread rax rsp) (k.retire current).panic
  | preempt {tid : Tid} {current next : Thread} {rest : List Thread} {rsp : UInt64} :
      k.cpu = .running tid → k.scheduler.current = some current → current.tid = tid →
      k.scheduler.runQueue ++ [{ current with state := .preemptive rsp }] = next :: rest →
      Moves k (.timerTick rsp)
        (((k.suspend tid (.preemptive rsp) .interrupted).makeCurrent next rest).resume next.tid next.state stubRax)
  | leaveIdle {tid : Tid} {call : BlockingCall} {next : Thread} {rest : List Thread} {rsp : UInt64} :
      k.cpu = .idle tid call → k.scheduler.runQueue = next :: rest →
      Moves k (.timerTick rsp)
        (((k.makeCurrent next rest).emit (.suspended tid (.preemptive rsp))).resume next.tid next.state stubRax)
  | leaveBoot {next : Thread} {rest : List Thread} {rsp : UInt64} :
      k.cpu = .boot → k.scheduler.runQueue = next :: rest →
      Moves k (.timerTick rsp) ((k.makeCurrent next rest).resume next.tid next.state stubRax)

variable {k after : Kernel}

theorem SameTasks.refl (k : Kernel) : k.SameTasks k :=
  ⟨rfl, rfl, rfl, rfl, rfl, fun _ => rfl, rfl, rfl, rfl, rfl, .inl rfl⟩

theorem Orderly.running (orderly : k.Orderly) {tid : Tid} (running : k.cpu = .running tid) :
    ∃ thread, k.scheduler.current = some thread ∧ thread.tid = tid := by
  have agrees := orderly.cpu
  rw [running] at agrees
  cases current : k.scheduler.current with
  | none => simp [Cpu.Agrees, occupants, residents, current] at agrees
  | some thread => exact ⟨thread, rfl, by simpa [Cpu.Agrees, occupants, residents, current] using agrees⟩

theorem current_none (empty : k.occupants .current = []) : k.scheduler.current = none := by
  cases current : k.scheduler.current with
  | none => rfl
  | some thread => simp [occupants, residents, current] at empty

theorem Orderly.idle (orderly : k.Orderly) {tid : Tid} {call : BlockingCall} (idle : k.cpu = .idle tid call) :
    k.scheduler.current = none := by
  have agrees := orderly.cpu
  rw [idle] at agrees
  exact current_none agrees

theorem Orderly.boot (orderly : k.Orderly) (boot : k.cpu = .boot) : k.scheduler.current = none := by
  have agrees := orderly.cpu
  rw [boot] at agrees
  exact current_none agrees

theorem endpoint_idle {ep : EndpointRef} (idle : k.meeting ep = .idle) : k.endpoints ep = .idle := by
  unfold meeting at idle
  cases mode : k.endpoints ep <;> simp_all [meetingOf]

/-! ## Sends and receives -/

theorem lookup_eq {handle : UInt64} {current : Thread} {cs : CSpaceRef} {held : Option Capability}
    (found : k.lookup handle = some (current, cs, held)) :
    k.scheduler.current = some current ∧ current.cspace = some cs ∧ (k.cspaces cs).get handle.toNat = held := by
  unfold lookup at found
  obtain ⟨thread, isCurrent, found⟩ := Option.bind_eq_some_iff.mp found
  obtain ⟨space, has, found⟩ := Option.map_eq_some_iff.mp found
  cases found
  exact ⟨isCurrent, has, rfl⟩

theorem moves_sendOn {op : Op} {current : Thread} {ep : EndpointRef} {msg : Message}
    (reached : k.sending op = some (current, ep, msg)) : k.Moves op (k.sendOn current ep msg).1 := by
  have unchanged : (k.emit (.sent ep current.tid msg)).endpoints ep = k.endpoints ep := rfl
  unfold sendOn
  simp only [unchanged]
  cases mode : k.endpoints ep with
  | idle =>
    have moves := Moves.blockSender reached (by simp [mode])
    simpa [mode, Kernel.blockSender, setEndpoint, EndpointState.senders] using moves
  | sendersWaiting queue =>
    have moves := Moves.blockSender reached (by simp [mode])
    simpa [mode, Kernel.blockSender, setEndpoint, EndpointState.senders] using moves
  | receiversWaiting queue =>
    cases queue with
    | nil =>
      have moves := Moves.drop reached mode
      have kept : Function.update k.endpoints ep (.receiversWaiting []) = k.endpoints := by
        rw [← mode, Function.update_eq_self]
      simpa [setEndpoint, emit, kept] using moves
    | cons head queue => exact .deliver reached mode

theorem moves_sysSend (handle : UInt64) (msg : Message) :
    k.Moves (.sysSend handle msg) (k.sysSend handle msg).1 := by
  rcases found : k.lookup handle with _ | ⟨current, cs, _ | cap⟩
  · simp only [sysSend, found]
    exact .halt ⟨by simp [sending, found], rfl, rfl⟩
  · simp only [sysSend, found]
    exact .same ⟨by simp [sending, found], rfl, rfl⟩ (.refl k)
  · cases cap with
    | endpoint ep rights =>
      simp only [sysSend, found]
      split
      next allowed => exact moves_sendOn (by simp [sending, found, allowed])
      next refused => exact .same ⟨by simp [sending, found, refused], rfl, rfl⟩ (.refl k)
    | _ =>
      simp only [sysSend, found]
      exact .same ⟨by simp [sending, found], rfl, rfl⟩ (.refl k)

theorem moves_recvOn {op : Op} {current : Thread} {ep : EndpointRef}
    (reached : k.receiving op = some (current, ep)) : k.Moves op (k.recvOn current ep).1 := by
  have unchanged : ((k.emit (.receiving ep current.tid)).writeBuffer current.tid .zero).endpoints ep =
      k.endpoints ep := rfl
  unfold recvOn
  simp only [unchanged]
  cases mode : k.endpoints ep with
  | idle =>
    have moves := Moves.blockReceiver reached (by simp [mode])
    simpa [mode, Kernel.blockReceiver, setEndpoint, EndpointState.receivers] using moves
  | receiversWaiting queue =>
    have moves := Moves.blockReceiver reached (by simp [mode])
    simpa [mode, Kernel.blockReceiver, setEndpoint, EndpointState.receivers] using moves
  | sendersWaiting queue =>
    cases queue with
    | nil =>
      have moves := Moves.conjure reached mode
      have kept : Function.update k.endpoints ep (.sendersWaiting []) = k.endpoints := by
        rw [← mode, Function.update_eq_self]
      simpa [setEndpoint, emit, writeBuffer, kept] using moves
    | cons head queue => exact .take reached mode

theorem moves_sysRecv (handle : UInt64) : k.Moves (.sysRecv handle) (k.sysRecv handle).1 := by
  rcases found : k.lookup handle with _ | ⟨current, cs, _ | cap⟩
  · simp only [sysRecv, found]
    exact .halt ⟨rfl, by simp [receiving, found], rfl⟩
  · simp only [sysRecv, found]
    exact .same ⟨rfl, by simp [receiving, found], rfl⟩ (.refl k)
  · cases cap with
    | endpoint ep rights =>
      simp only [sysRecv, found]
      split
      next allowed => exact moves_recvOn (by simp [receiving, found, allowed])
      next refused => exact .same ⟨rfl, by simp [receiving, found, refused], rfl⟩ (.refl k)
    | _ =>
      simp only [sysRecv, found]
      exact .same ⟨rfl, by simp [receiving, found], rfl⟩ (.refl k)

/-! ## Waiting for processes and interrupts -/

theorem moves_sysWait (orderly : k.Orderly) (handle : UInt64) :
    k.Moves (.sysWait handle) (k.sysWait handle).1 := by
  rcases found : k.lookup handle with _ | ⟨current, cs, _ | cap⟩
  · simp only [sysWait, found]
    exact .halt ⟨rfl, rfl, rfl⟩
  · simp only [sysWait, found]
    exact .same ⟨rfl, rfl, rfl⟩ (.refl k)
  · obtain ⟨isCurrent, _, held⟩ := lookup_eq found
    cases cap with
    | process p rights =>
      simp only [sysWait, found]
      split
      next allowed =>
        split
        next terminated =>
          exact .same ⟨rfl, rfl, rfl⟩ ⟨rfl, rfl, rfl, rfl, rfl, fun _ => rfl, rfl, rfl, rfl, rfl,
            .inr (.inl ⟨p, _, rfl⟩)⟩
        next alive => exact .wait isCurrent (orderly.bounded cs _ ⟨_, held⟩)
      next refused => exact .same ⟨rfl, rfl, rfl⟩ (.refl k)
    | _ =>
      simp only [sysWait, found]
      exact .same ⟨rfl, rfl, rfl⟩ (.refl k)

theorem moves_sysWaitIrq (handle : UInt64) : k.Moves (.sysWaitIrq handle) (k.sysWaitIrq handle).1 := by
  rcases found : k.lookup handle with _ | ⟨current, cs, _ | cap⟩
  · simp only [sysWaitIrq, found]
    exact .halt ⟨rfl, rfl, by simp [awaiting, found]⟩
  · simp only [sysWaitIrq, found]
    exact .same ⟨rfl, rfl, by simp [awaiting, found]⟩ (.refl k)
  · obtain ⟨isCurrent, _, _⟩ := lookup_eq found
    cases cap with
    | interrupt irq =>
      simp only [sysWaitIrq, found]
      split
      next pending =>
        have consumed : k.awaiting (.sysWaitIrq handle) = none := by simpa [awaiting, found, emit] using pending
        exact .same ⟨rfl, rfl, consumed⟩ ⟨rfl, rfl, rfl, rfl, rfl, fun _ => rfl, rfl, rfl, rfl, rfl,
          .inr (.inr ⟨irq, _, rfl⟩)⟩
      next absent =>
        have blocks : k.awaiting (.sysWaitIrq handle) = some irq := by
          simpa [awaiting, found, emit] using absent
        exact .waitIrq isCurrent blocks
    | _ =>
      simp only [sysWaitIrq, found]
      exact .same ⟨rfl, rfl, by simp [awaiting, found]⟩ (.refl k)

theorem moves_unblockIrq (irq : UInt8) : k.Moves (.unblockIrq irq) (k.unblockIrq irq) := by
  unfold unblockIrq
  split
  next thread waiting => exact .unblock waiting
  next => exact .same ⟨rfl, rfl, rfl⟩ ⟨rfl, rfl, rfl, rfl, rfl, fun _ => rfl, rfl, rfl, rfl, rfl, .inl rfl⟩

/-! ## Creating threads and capabilities -/

theorem moves_newKernelThread (entryPoint stackBase : UInt64) :
    k.Moves (.newKernelThread entryPoint stackBase)
      ((k.newKernelThread entryPoint stackBase).1.pushBack (k.newKernelThread entryPoint stackBase).2) :=
  .create ⟨rfl, rfl, rfl⟩ ⟨rfl, rfl, rfl, rfl, fun _ => rfl, rfl, rfl, ⟨_, _, rfl⟩, ⟨_, rfl⟩, rfl, rfl,
    .kernel rfl rfl rfl rfl rfl⟩

theorem moves_spawnThread (entryPoint userStack stackBase : UInt64) :
    k.Moves (.spawnThread entryPoint userStack stackBase) (k.spawnThread entryPoint userStack stackBase).1 := by
  unfold spawnThread
  split
  next isCurrent =>
    exact .create ⟨rfl, rfl, rfl⟩ ⟨rfl, rfl, rfl, rfl, fun _ => rfl, rfl, rfl, ⟨_, _, rfl⟩, ⟨_, rfl⟩, rfl, rfl,
      .sibling isCurrent rfl rfl rfl rfl rfl rfl rfl rfl⟩
  · exact .halt ⟨rfl, rfl, rfl⟩

theorem creates_spawnChild (orderly : k.Orderly) {epHandle : UInt64} (entryPoint cr3 stackBase : UInt64)
    {found : Thread × CSpaceRef × Option Capability} (calls : k.lookup epHandle = some found) :
    ∃ thread, k.Creates (k.spawnChild epHandle entryPoint cr3 stackBase).1 thread ∧
      thread.processState = some k.nextProcess ∧ thread.cr3 = some cr3 := by
  have kept : ∀ p, (Function.update k.processes k.nextProcess ProcessState.new p).waitQueue =
      (k.processes p).waitQueue := by
    intro p
    by_cases fresh : p = k.nextProcess
    · subst fresh
      have empty := orderly.freshProcesses _ (Nat.le_refl k.nextProcess)
      rw [Function.update_self]
      exact (List.map_eq_nil_iff.mp empty).symm
    · rw [Function.update_of_ne fresh]
  have unfinished : (Function.update k.processes k.nextProcess ProcessState.new k.nextProcess).terminated = false := by
    rw [Function.update_self]
    rfl
  unfold spawnChild
  rw [calls]
  dsimp only
  split
  · exact ⟨_, ⟨rfl, rfl, rfl, rfl, kept, rfl, rfl, ⟨_, _, rfl⟩, ⟨_, rfl⟩, rfl, rfl,
      .child rfl rfl rfl rfl rfl unfinished⟩, rfl, rfl⟩
  · exact ⟨_, ⟨rfl, rfl, rfl, rfl, kept, rfl, rfl, ⟨_, _, rfl⟩, ⟨_, rfl⟩, rfl, rfl,
      .child rfl rfl rfl rfl rfl unfinished⟩, rfl, rfl⟩

theorem moves_spawnChild (orderly : k.Orderly) (epHandle entryPoint cr3 stackBase : UInt64) :
    k.Moves (.spawnChild epHandle entryPoint cr3 stackBase)
      (k.spawnChild epHandle entryPoint cr3 stackBase).1 := by
  cases found : k.lookup epHandle with
  | none =>
    simp only [spawnChild, found]
    exact .halt ⟨rfl, rfl, rfl⟩
  | some caller =>
    obtain ⟨_, creates, _⟩ := creates_spawnChild orderly entryPoint cr3 stackBase found
    exact .create ⟨rfl, rfl, rfl⟩ creates

theorem moves_sysEndpointCreate (orderly : k.Orderly) : k.Moves .sysEndpointCreate k.sysEndpointCreate.1 := by
  unfold sysEndpointCreate
  split
  · exact .halt ⟨rfl, rfl, rfl⟩
  · have kept : Function.update k.endpoints k.nextEndpoint .new = k.endpoints := by
      conv_rhs => rw [← Function.update_eq_self k.nextEndpoint k.endpoints]
      rw [endpoint_idle (orderly.freshEndpoints _ (Nat.le_refl _))]
      rfl
    exact .same ⟨rfl, rfl, rfl⟩ ⟨rfl, rfl, rfl, rfl, kept, fun _ => rfl, rfl, rfl, rfl, rfl, .inl rfl⟩

theorem moves_grantMemory (start len : UInt64) :
    k.Moves (.grantMemory start len) (k.grantMemory start len).1 := by
  unfold grantMemory
  split
  · exact .halt ⟨rfl, rfl, rfl⟩
  · exact .same ⟨rfl, rfl, rfl⟩ ⟨rfl, rfl, rfl, rfl, rfl, fun _ => rfl, rfl, rfl, rfl, rfl, .inl rfl⟩

/-! ## Leaving the CPU -/

theorem moves_yieldNow : k.Moves .yieldNow k.yieldNow.1 := by
  unfold yieldNow
  split
  · exact .same ⟨rfl, rfl, rfl⟩ (.refl k)
  · split
    next current isCurrent => exact .yield isCurrent
    next none => exact .bootYield none

theorem moves_exitCurrentThread (rax rsp : UInt64) :
    k.Moves (.exitCurrentThread rax rsp) (k.exitCurrentThread rax rsp) := by
  unfold exitCurrentThread
  split
  · exact .halt ⟨rfl, rfl, rfl⟩
  next current isCurrent =>
    dsimp only
    split
    next next rest queued =>
      split
      next sp cooperative => exact .exitCooperative isCurrent queued cooperative
      next sp preemptive => exact .exitPreemptive isCurrent queued preemptive
    next => exact .exitLast isCurrent

theorem moves_dispatch {source : Option Tid} {call : BlockingCall} (dispatching : k.cpu = .dispatching source call)
    (rsp : UInt64) : k.Moves (.dispatch rsp) (k.dispatch source call rsp) := by
  unfold dispatch
  split
  next empty =>
    cases source with
    | some tid => exact .idle dispatching empty
    | none => exact .halt ⟨rfl, rfl, rfl⟩
  next next rest queued =>
    dsimp only
    split
    next sp cooperative => exact .switchCooperative dispatching queued cooperative
    next sp preemptive => exact .refuse dispatching queued
    next sp preemptive _ => exact .switchPreemptive dispatching queued preemptive

/-! ## The timer -/

theorem pickNext_current {current next : Thread} {rest : List Thread} {saved : SavedThreadState}
    (isCurrent : k.scheduler.current = some current)
    (queued : k.scheduler.runQueue ++ [{ current with state := saved }] = next :: rest) :
    k.pickNext saved = (k.makeCurrent next rest, next.state) := by
  unfold pickNext
  simp only [isCurrent, queued]
  rfl

theorem pickNext_between {next : Thread} {rest : List Thread} {saved : SavedThreadState}
    (none : k.scheduler.current = none) (queued : k.scheduler.runQueue = next :: rest) :
    k.pickNext saved = (k.makeCurrent next rest, next.state) := by
  unfold pickNext
  simp only [none, queued]

theorem pickNext_empty {saved : SavedThreadState} (none : k.scheduler.current = none)
    (empty : k.scheduler.runQueue = []) : k.pickNext saved = (k, saved) := by
  unfold pickNext
  simp only [none, empty]

theorem timerTickHandler_eq (k : Kernel) (rsp : UInt64) :
    (k.timerTickHandler rsp).1 = (k.pickNext (.preemptive rsp)).1 ∧
    (k.timerTickHandler rsp).2.target = (k.pickNext (.preemptive rsp)).2 := by
  unfold timerTickHandler
  cases picked : (k.pickNext (.preemptive rsp)).2 with
  | cooperative sp => simp [picked, SchedulerReturn.target]
  | preemptive sp => simp [picked, SchedulerReturn.target]

theorem moves_timerTick (orderly : k.Orderly) (interruptible : k.cpu.interruptible = true) (rsp : UInt64) :
    k.Moves (.timerTick rsp) (k.timerTick rsp) := by
  cases cpu : k.cpu with
  | running tid =>
    obtain ⟨current, isCurrent, same⟩ := orderly.running cpu
    obtain ⟨next, rest, queued⟩ : ∃ next rest,
        k.scheduler.runQueue ++ [{ current with state := .preemptive rsp }] = next :: rest :=
      List.exists_cons_of_ne_nil (by simp)
    have picked : (k.suspend tid (.preemptive rsp) .interrupted).pickNext (.preemptive rsp) =
        ((k.suspend tid (.preemptive rsp) .interrupted).makeCurrent next rest, next.state) :=
      pickNext_current isCurrent queued
    obtain ⟨handled, target⟩ := timerTickHandler_eq (k.suspend tid (.preemptive rsp) .interrupted) rsp
    rw [picked] at handled target
    simp only [timerTick, cpu, handled, target]
    exact .preempt cpu isCurrent same queued
  | idle tid call =>
    have away := orderly.idle cpu
    obtain ⟨handled, target⟩ := timerTickHandler_eq k rsp
    cases queued : k.scheduler.runQueue with
    | nil =>
      rw [pickNext_empty away queued] at handled
      simp only [timerTick, cpu, handled, away]
      exact .same ⟨rfl, rfl, rfl⟩ (.refl k)
    | cons next rest =>
      rw [pickNext_between away queued] at handled target
      simp only [timerTick, cpu, handled, target]
      exact .leaveIdle cpu queued
  | boot =>
    have away := orderly.boot cpu
    obtain ⟨handled, target⟩ := timerTickHandler_eq k rsp
    cases queued : k.scheduler.runQueue with
    | nil =>
      rw [pickNext_empty away queued] at handled
      simp only [timerTick, cpu, handled, away]
      exact .same ⟨rfl, rfl, rfl⟩ (.refl k)
    | cons next rest =>
      rw [pickNext_between away queued] at handled target
      simp only [timerTick, cpu, handled, target]
      exact .leaveBoot cpu queued
  | dispatching source call => simp [cpu, Cpu.interruptible] at interruptible
  | halted => simp [cpu, Cpu.interruptible] at interruptible
  | astray tid => simp [cpu, Cpu.interruptible] at interruptible

/-! ## Every step -/

theorem moves_of_step {op : Op} (orderly : k.Orderly) (taken : k.step op = some after) : k.Moves op after := by
  cases op with
  | newKernelThread entryPoint stackBase =>
    obtain ⟨_, rfl⟩ := of_newKernelThread taken
    exact moves_newKernelThread entryPoint stackBase
  | yieldNow =>
    obtain ⟨_, rfl⟩ := of_yieldNow taken
    exact moves_yieldNow
  | exitCurrentThread rax rsp =>
    obtain ⟨_, rfl⟩ := of_whenRunning taken
    exact moves_exitCurrentThread rax rsp
  | sysSend handle msg =>
    obtain ⟨_, rfl⟩ := of_whenRunning taken
    exact moves_sysSend handle msg
  | sysRecv handle =>
    obtain ⟨_, rfl⟩ := of_whenRunning taken
    exact moves_sysRecv handle
  | sysWait handle =>
    obtain ⟨_, rfl⟩ := of_whenRunning taken
    exact moves_sysWait orderly handle
  | sysWaitIrq handle =>
    obtain ⟨_, rfl⟩ := of_whenRunning taken
    exact moves_sysWaitIrq handle
  | sysEndpointCreate =>
    obtain ⟨_, rfl⟩ := of_whenRunning taken
    exact moves_sysEndpointCreate orderly
  | spawnChild epHandle entryPoint cr3 stackBase =>
    obtain ⟨_, rfl⟩ := of_whenRunning taken
    exact moves_spawnChild orderly epHandle entryPoint cr3 stackBase
  | spawnThread entryPoint userStack stackBase =>
    obtain ⟨_, rfl⟩ := of_whenRunning taken
    exact moves_spawnThread entryPoint userStack stackBase
  | grantMemory start len =>
    obtain ⟨_, rfl⟩ := of_whenRunning taken
    exact moves_grantMemory start len
  | dispatch rsp =>
    obtain ⟨_, _, dispatching, rfl⟩ := of_dispatch taken
    exact moves_dispatch dispatching rsp
  | timerTick rsp =>
    obtain ⟨interruptible, rfl⟩ := of_whenInterruptible taken
    exact moves_timerTick orderly interruptible rsp
  | unblockIrq irq =>
    obtain ⟨_, rfl⟩ := of_whenInterruptible taken
    exact moves_unblockIrq irq
  | wake =>
    obtain ⟨_, _, idle, rfl⟩ := of_wake taken
    exact .wake idle
  | panic =>
    obtain ⟨_, rfl⟩ := of_whenRunning taken
    exact .halt ⟨rfl, rfl, rfl⟩

theorem Orderly.running_current (orderly : k.Orderly) {op : Op} (taken : k.step op = some after) {current : Thread}
    (isCurrent : k.scheduler.current = some current) : k.cpu = .running current.tid := by
  have agrees := orderly.cpu
  have stands : k.occupants .current = [current.tid] := by simp [occupants, residents, isCurrent]
  rw [stands] at agrees
  cases cpu : k.cpu with
  | running tid =>
    rw [cpu] at agrees
    rw [List.singleton_inj.mp agrees]
  | halted => rw [step_stuck (.inl cpu)] at taken; cases taken
  | astray tid => rw [step_stuck (.inr ⟨tid, cpu⟩)] at taken; cases taken
  | boot => rw [cpu] at agrees; cases agrees
  | dispatching source call => rw [cpu] at agrees; cases agrees
  | idle tid call => rw [cpu] at agrees; cases agrees

/-! ## Orderly states stay orderly -/

theorem sending_spec {op : Op} {current : Thread} {ep : EndpointRef} {msg : Message}
    (reached : k.sending op = some (current, ep, msg)) :
    ∃ handle cs rights, op = .sysSend handle msg ∧ k.scheduler.current = some current ∧
      current.cspace = some cs ∧ (k.cspaces cs).get handle.toNat = some (.endpoint ep rights) ∧
      rights.contains .SEND = true := by
  unfold sending at reached
  split at reached
  next handle msg =>
    split at reached
    next current cs ep rights found =>
      split at reached
      next allowed =>
        cases reached
        obtain ⟨isCurrent, space, held⟩ := lookup_eq found
        exact ⟨handle, cs, rights, rfl, isCurrent, space, held, allowed⟩
      next => cases reached
    next => cases reached
  next => cases reached

theorem receiving_spec {op : Op} {current : Thread} {ep : EndpointRef}
    (reached : k.receiving op = some (current, ep)) :
    ∃ handle cs rights, op = .sysRecv handle ∧ k.scheduler.current = some current ∧
      current.cspace = some cs ∧ (k.cspaces cs).get handle.toNat = some (.endpoint ep rights) ∧
      rights.contains .RECEIVE = true := by
  unfold receiving at reached
  split at reached
  next handle =>
    split at reached
    next current cs ep rights found =>
      split at reached
      next allowed =>
        cases reached
        obtain ⟨isCurrent, space, held⟩ := lookup_eq found
        exact ⟨handle, cs, rights, rfl, isCurrent, space, held, allowed⟩
      next => cases reached
    next => cases reached
  next => cases reached

theorem Orderly.sending_bound (orderly : k.Orderly) {op : Op} {current : Thread} {ep : EndpointRef} {msg : Message}
    (reached : k.sending op = some (current, ep, msg)) : ep < k.nextEndpoint := by
  obtain ⟨_, cs, rights, _, _, _, held, _⟩ := sending_spec reached
  exact orderly.bounded cs _ ⟨_, held⟩

theorem Orderly.receiving_bound (orderly : k.Orderly) {op : Op} {current : Thread} {ep : EndpointRef}
    (reached : k.receiving op = some (current, ep)) : ep < k.nextEndpoint := by
  obtain ⟨_, cs, rights, _, _, _, held, _⟩ := receiving_spec reached
  exact orderly.bounded cs _ ⟨_, held⟩

theorem agrees_resume {tid : Tid} {state : SavedThreadState} {rax : UInt64}
    (isCurrent : k.occupants .current = [tid]) :
    (k.resume tid state rax).cpu.Agrees ((k.resume tid state rax).occupants .current) := by
  rw [unswitched_occupants.resume]
  rcases k.cpu_resume tid state rax with running | astray
  · rw [running]
    exact isCurrent
  · rw [astray]
    trivial

@[simp] theorem occupants_leave (source : Option Tid) (rsp : UInt64) (call : BlockingCall) (finishes : Bool) :
    (k.leave source rsp call finishes).occupants = k.occupants := by
  cases source <;> rfl

@[simp] theorem meeting_leave (source : Option Tid) (rsp : UInt64) (call : BlockingCall) (finishes : Bool) :
    (k.leave source rsp call finishes).meeting = k.meeting := by
  cases source <;> rfl

theorem occupants_makeCurrent (next : Thread) (rest : List Thread) :
    (k.makeCurrent next rest).occupants .current = [next.tid] := by
  simp [occupants]

theorem Moves.agrees {op : Op} (moves : k.Moves op after) (orderly : k.Orderly) :
    after.cpu.Agrees (after.occupants .current) := by
  have agrees := orderly.cpu
  cases moves with
  | same _ same =>
    rw [same.cpu]
    simpa [occupants, residents, same.current] using agrees
  | halt => trivial
  | create _ creates =>
    rw [creates.cpu]
    simpa [occupants, residents, creates.scheduler, Scheduler.addThread] using agrees
  | yield isCurrent => rfl
  | bootYield none => simp [Cpu.Agrees, occupants, residents, none]
  | deliver reached mode => exact agrees
  | blockSender reached mode => exact rfl
  | drop reached mode => exact agrees
  | take reached mode => exact agrees
  | blockReceiver reached mode => exact rfl
  | conjure reached mode => exact agrees
  | wait isCurrent inside => exact rfl
  | waitIrq isCurrent blocks => exact rfl
  | unblock waiting => exact agrees
  | wake idle =>
    rw [idle] at agrees
    exact agrees
  | idle dispatching empty =>
    rw [dispatching] at agrees
    exact agrees
  | switchCooperative dispatching queued cooperative =>
    exact agrees_resume (by rw [occupants_leave, occupants_makeCurrent])
  | switchPreemptive dispatching queued preemptive =>
    exact agrees_resume (by rw [unswitched_occupants.afterSwitch, occupants_leave, occupants_makeCurrent])
  | refuse dispatching queued => trivial
  | exitCooperative isCurrent queued cooperative => exact agrees_resume (occupants_makeCurrent _ _)
  | exitPreemptive isCurrent queued preemptive =>
    exact agrees_resume (by rw [unswitched_occupants.afterSwitch, occupants_makeCurrent])
  | exitLast isCurrent => trivial
  | preempt running isCurrent same queued => exact agrees_resume (occupants_makeCurrent _ _)
  | leaveIdle idle queued => exact agrees_resume (occupants_makeCurrent _ _)
  | leaveBoot boot queued => exact agrees_resume (occupants_makeCurrent _ _)

@[simp] theorem meeting_retire (current : Thread) : (k.retire current).meeting = k.meeting := by
  unfold retire
  cases current.processState <;> rfl

@[simp] theorem frames_retire (current : Thread) : (k.retire current).frames = k.frames := by
  unfold retire
  cases current.processState <;> rfl

theorem retire_free (current : Thread) : (k.retire current).occupants .current = [] := by
  unfold retire
  cases current.processState <;> rfl

theorem retire_waitQueue {current : Thread} {p : ProcessRef} (fresh : k.occupants (.waitQueue p) = []) :
    (k.retire current).occupants (.waitQueue p) = [] := by
  unfold retire
  cases current.processState with
  | none => exact fresh
  | some other =>
    by_cases same : p = other
    · subst same
      simp [occupants, residents, setProcess, emit]
    · simpa [occupants, residents, setProcess, emit, same] using fresh

theorem Moves.meeting_other {op : Op} (moves : k.Moves op after) {ep : EndpointRef}
    (noSend : ∀ current msg, k.sending op ≠ some (current, ep, msg))
    (noReceive : ∀ current, k.receiving op ≠ some (current, ep)) : after.meeting ep = k.meeting ep := by
  cases moves with
  | same _ same => rw [meeting, same.endpoints, meeting]
  | halt => rfl
  | create _ creates => rw [meeting, creates.endpoints, meeting]
  | yield isCurrent => rfl
  | bootYield none => rfl
  | @deliver _ _ _ other msg _ _ reached mode =>
    have different : ep ≠ other := fun same => noSend _ _ (same ▸ reached)
    exact congrArg meetingOf (Function.update_of_ne different _ _)
  | @blockSender _ _ other msg reached mode =>
    have different : ep ≠ other := fun same => noSend _ _ (same ▸ reached)
    exact congrArg meetingOf (Function.update_of_ne different _ _)
  | drop reached mode => rfl
  | @take _ _ _ other msg _ reached mode =>
    have different : ep ≠ other := fun same => noReceive _ (same ▸ reached)
    exact congrArg meetingOf (Function.update_of_ne different _ _)
  | @blockReceiver _ _ other reached mode =>
    have different : ep ≠ other := fun same => noReceive _ (same ▸ reached)
    exact congrArg meetingOf (Function.update_of_ne different _ _)
  | conjure reached mode => rfl
  | wait isCurrent inside => rfl
  | waitIrq isCurrent blocks => rfl
  | unblock waiting => rfl
  | wake idle => rfl
  | idle dispatching empty => rfl
  | switchCooperative dispatching queued cooperative =>
    rw [unswitched_meeting.resume, meeting_leave]
    rfl
  | switchPreemptive dispatching queued preemptive =>
    rw [unswitched_meeting.resume, unswitched_meeting.afterSwitch, meeting_leave]
    rfl
  | refuse dispatching queued => rfl
  | exitCooperative isCurrent queued cooperative =>
    rw [unswitched_meeting.resume]
    exact congrFun (meeting_retire _) ep
  | exitPreemptive isCurrent queued preemptive =>
    rw [unswitched_meeting.resume, unswitched_meeting.afterSwitch]
    exact congrFun (meeting_retire _) ep
  | exitLast isCurrent => exact congrFun (meeting_retire _) ep
  | preempt running isCurrent same queued =>
    rw [unswitched_meeting.resume]
    rfl
  | leaveIdle idle queued =>
    rw [unswitched_meeting.resume]
    rfl
  | leaveBoot boot queued =>
    rw [unswitched_meeting.resume]
    rfl

theorem Moves.freshProcesses {op : Op} (moves : k.Moves op after) {p : ProcessRef} (unused : k.nextProcess ≤ p)
    (fresh : k.occupants (.waitQueue p) = []) : after.occupants (.waitQueue p) = [] := by
  cases moves with
  | same _ same => simpa [occupants, residents, same.waitQueues] using fresh
  | halt => exact fresh
  | create _ creates => simpa [occupants, residents, creates.waitQueues] using fresh
  | yield isCurrent => exact fresh
  | bootYield none => exact fresh
  | deliver reached mode => exact fresh
  | blockSender reached mode => exact fresh
  | drop reached mode => exact fresh
  | take reached mode => exact fresh
  | blockReceiver reached mode => exact fresh
  | conjure reached mode => exact fresh
  | @wait _ _ other isCurrent inside =>
    have different : p ≠ other := Nat.ne_of_gt (Nat.lt_of_lt_of_le inside unused)
    simpa [occupants, different] using fresh
  | waitIrq isCurrent blocks => exact fresh
  | unblock waiting => exact fresh
  | wake idle => exact fresh
  | idle dispatching empty => exact fresh
  | switchCooperative dispatching queued cooperative =>
    rw [unswitched_occupants.resume, occupants_leave]
    exact fresh
  | switchPreemptive dispatching queued preemptive =>
    rw [unswitched_occupants.resume, unswitched_occupants.afterSwitch, occupants_leave]
    exact fresh
  | refuse dispatching queued => exact fresh
  | exitCooperative isCurrent queued cooperative =>
    rw [unswitched_occupants.resume]
    exact retire_waitQueue fresh
  | exitPreemptive isCurrent queued preemptive =>
    rw [unswitched_occupants.resume, unswitched_occupants.afterSwitch]
    exact retire_waitQueue fresh
  | exitLast isCurrent => exact retire_waitQueue fresh
  | preempt running isCurrent same queued =>
    rw [unswitched_occupants.resume]
    exact fresh
  | leaveIdle idle queued =>
    rw [unswitched_occupants.resume]
    exact fresh
  | leaveBoot boot queued =>
    rw [unswitched_occupants.resume]
    exact fresh

theorem Orderly.step {op : Op} (orderly : k.Orderly) (taken : k.step op = some after) : after.Orderly := by
  have moves := moves_of_step orderly taken
  have grants := grants_of_step taken
  obtain ⟨endpoints, processes, _⟩ := counters_of_grants grants
  refine ⟨moves.agrees orderly, ?_, ?_, bounded_of_grants orderly.bounded grants⟩
  · intro ep unused
    have unusedBefore : k.nextEndpoint ≤ ep := Nat.le_trans endpoints unused
    rw [moves.meeting_other]
    · exact orderly.freshEndpoints ep unusedBefore
    · intro current msg reached
      exact absurd (orderly.sending_bound reached) (Nat.not_lt.mpr unusedBefore)
    · intro current reached
      exact absurd (orderly.receiving_bound reached) (Nat.not_lt.mpr unusedBefore)
  · intro p unused
    have unusedBefore : k.nextProcess ≤ p := Nat.le_trans processes unused
    exact moves.freshProcesses unusedBefore (orderly.freshProcesses p unusedBefore)

theorem orderly_booted (bootCr3 : UInt64) (info : BootInfo) (image : InitImage) :
    (booted bootCr3 info image).Orderly := by
  refine ⟨rfl, fun _ _ => rfl, ?_, ?_⟩
  · intro p _
    simp [booted, occupants, residents, spawnProcess, setProcess, newUserThread, emit, pushBack, setCSpace, new,
      ProcessState.new]
  · intro cs cap holds
    obtain ⟨_, handle, granted⟩ := holds_booted holds
    have hardware := BootInfo.grants_hardware granted
    cases cap with
    | endpoint ep rights => cases hardware
    | process p rights => cases hardware
    | _ => trivial

theorem orderly_of_run {bootCr3 : UInt64} {info : BootInfo} {image : InitImage} {history : List (Kernel × Op)}
    (run : KernelRun bootCr3 info image history k) : k.Orderly :=
  run.always Orderly (orderly_booted bootCr3 info image) Orderly.step

end Kernel

end ElseOS
