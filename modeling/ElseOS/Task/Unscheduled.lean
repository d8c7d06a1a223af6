import ElseOS.Task.Residents

/-! What scheduling leaves alone.

Most of what the kernel does moves threads and messages between queues. An observation
that does not look at the queues is unchanged by all of it, and only the few operations
that touch what it does look at remain to be examined. -/

set_option autoImplicit false

namespace ElseOS

/-- The operations that move threads and messages between the run queue and the endpoints, and do nothing else. -/
def Op.schedules : Op → Bool
  | .yieldNow | .sysSend _ _ | .sysRecv _ | .dispatch _ | .timerTick _ | .wake | .panic => true
  | _ => false

namespace Kernel

structure Unscheduled {α : Type} (observe : Kernel → α) : Prop extends Unswitched observe where
  emitAny : ∀ k event, observe (Kernel.emit k event) = observe k
  queues : ∀ k runQueue current,
    observe { k with scheduler := { k.scheduler with runQueue := runQueue, current := current } } = observe k
  endpoints : ∀ k endpoints, observe { k with endpoints := endpoints } = observe k
  msgBuf : ∀ k msgBuf, observe { k with msgBuf := msgBuf } = observe k
  hardware : ∀ k hardware, observe { k with hardware := hardware } = observe k

variable {k after : Kernel}

theorem of_whenRunning {result : Kernel} (taken : k.whenRunning result = some after) :
    k.cpu.isRunning = true ∧ after = result := by
  unfold whenRunning at taken
  split at taken
  next running => exact ⟨running, (Option.some.inj taken).symm⟩
  next => cases taken

theorem of_whenInterruptible {result : Kernel} (taken : k.whenInterruptible result = some after) :
    k.cpu.interruptible = true ∧ after = result := by
  unfold whenInterruptible at taken
  split at taken
  next interruptible => exact ⟨interruptible, (Option.some.inj taken).symm⟩
  next => cases taken

theorem of_newKernelThread {entryPoint stackBase : UInt64}
    (taken : k.step (.newKernelThread entryPoint stackBase) = some after) :
    k.cpu = .boot ∧
      after = (k.newKernelThread entryPoint stackBase).1.pushBack (k.newKernelThread entryPoint stackBase).2 := by
  simp only [step] at taken
  split at taken
  next boot => exact ⟨boot, (Option.some.inj taken).symm⟩
  next => cases taken

theorem of_yieldNow (taken : k.step .yieldNow = some after) :
    (k.cpu = .boot ∨ k.cpu.isRunning = true) ∧ after = k.yieldNow.1 := by
  simp only [step] at taken
  split at taken
  next boot => exact ⟨.inl boot, (Option.some.inj taken).symm⟩
  next running => exact ⟨.inr (by rw [running]; rfl), (Option.some.inj taken).symm⟩
  next => cases taken

theorem of_dispatch {rsp : UInt64} (taken : k.step (.dispatch rsp) = some after) :
    ∃ source call, k.cpu = .dispatching source call ∧ after = k.dispatch source call rsp := by
  simp only [step] at taken
  split at taken
  next source call dispatching => exact ⟨source, call, dispatching, (Option.some.inj taken).symm⟩
  next => cases taken

theorem of_wake (taken : k.step .wake = some after) :
    ∃ tid call, k.cpu = .idle tid call ∧ after = { k with cpu := .dispatching (some tid) call } := by
  simp only [step] at taken
  split at taken
  next tid call idle => exact ⟨tid, call, idle, (Option.some.inj taken).symm⟩
  next => cases taken

namespace Unscheduled

variable {α : Type} {observe : Kernel → α} (unscheduled : Unscheduled observe)

include unscheduled

theorem pushBack (k : Kernel) (thread : Thread) : observe (k.pushBack thread) = observe k :=
  unscheduled.queues k (k.scheduler.runQueue ++ [thread]) k.scheduler.current

theorem setEndpoint (k : Kernel) (ep : EndpointRef) (state : EndpointState) :
    observe (k.setEndpoint ep state) = observe k := unscheduled.endpoints k _

theorem writeBuffer (k : Kernel) (tid : Tid) (msg : Message) : observe (k.writeBuffer tid msg) = observe k :=
  unscheduled.msgBuf k _

theorem makeCurrent (k : Kernel) (next : Thread) (rest : List Thread) : observe (k.makeCurrent next rest) = observe k :=
  calc observe (k.makeCurrent next rest)
    _ = observe (k.prepareThreadSwitch next) := unscheduled.queues (k.prepareThreadSwitch next) rest (some next)
    _ = observe k := unscheduled.hardware k _

theorem depart (k : Kernel) (runQueue : List Thread) (current : Option Thread) (ptr : Option StatePtr) (cpu : Cpu) :
    observe { k with
      scheduler := { k.scheduler with runQueue := runQueue, current := current }
      stateToUpdate := ptr
      cpu := cpu } = observe k :=
  let queued : Kernel := { k with scheduler := { k.scheduler with runQueue := runQueue, current := current } }
  calc observe { queued with stateToUpdate := ptr, cpu := cpu }
    _ = observe { queued with stateToUpdate := ptr } := unscheduled.cpu { queued with stateToUpdate := ptr } cpu
    _ = observe queued := unscheduled.stateToUpdate queued ptr
    _ = observe k := unscheduled.queues k runQueue current

theorem block (k : Kernel) (ptr : StatePtr) (call : BlockingCall) : observe (k.block ptr call) = observe k :=
  unscheduled.depart k k.scheduler.runQueue none (some ptr) _

theorem leave (k : Kernel) (source : Option Tid) (rsp : UInt64) (call : BlockingCall) (finishes : Bool) :
    observe (k.leave source rsp call finishes) = observe k := by
  cases source with
  | none => rfl
  | some tid => exact unscheduled.suspend k tid _ _

theorem sendOn (k : Kernel) (current : Thread) (ep : EndpointRef) (msg : Message) :
    observe (k.sendOn current ep msg).1 = observe k := by
  unfold Kernel.sendOn
  dsimp only
  split
  · unfold deliver
    simp only [unscheduled.emitAny, unscheduled.pushBack, unscheduled.setEndpoint, unscheduled.writeBuffer]
  · split
    · unfold blockSender
      simp only [unscheduled.emitAny, unscheduled.block, unscheduled.setEndpoint]
    · simp only [unscheduled.emitAny, unscheduled.setEndpoint]

theorem recvOn (k : Kernel) (current : Thread) (ep : EndpointRef) : observe (k.recvOn current ep).1 = observe k := by
  unfold Kernel.recvOn
  dsimp only
  split
  · unfold take
    simp only [unscheduled.emitAny, unscheduled.pushBack, unscheduled.setEndpoint, unscheduled.writeBuffer]
  · split
    · unfold blockReceiver
      simp only [unscheduled.emitAny, unscheduled.block, unscheduled.setEndpoint, unscheduled.writeBuffer]
    · simp only [unscheduled.emitAny, unscheduled.setEndpoint, unscheduled.writeBuffer]

theorem sysSend (k : Kernel) (handle : UInt64) (msg : Message) : observe (k.sysSend handle msg).1 = observe k := by
  unfold Kernel.sysSend
  split
  · exact unscheduled.cpu k .halted
  · rfl
  · split
    · exact unscheduled.sendOn k _ _ msg
    · rfl
  · rfl

theorem sysRecv (k : Kernel) (handle : UInt64) : observe (k.sysRecv handle).1 = observe k := by
  unfold Kernel.sysRecv
  split
  · exact unscheduled.cpu k .halted
  · rfl
  · split
    · exact unscheduled.recvOn k _ _
    · rfl
  · rfl

theorem yieldNow (k : Kernel) : observe k.yieldNow.1 = observe k := by
  unfold Kernel.yieldNow
  split
  · rfl
  · split
    next current _ => exact unscheduled.depart k _ none (some (.boxed current.tid)) _
    next => exact unscheduled.depart k k.scheduler.runQueue k.scheduler.current none _

theorem dispatch (k : Kernel) (source : Option Tid) (call : BlockingCall) (rsp : UInt64) :
    observe (k.dispatch source call rsp) = observe k := by
  unfold Kernel.dispatch
  split
  · cases source with
    | none => exact unscheduled.cpu k .halted
    | some tid => exact unscheduled.cpu k (.idle tid call)
  · dsimp only
    split
    · rw [unscheduled.resume, unscheduled.leave, unscheduled.makeCurrent]
    · exact (unscheduled.cpu _ .halted).trans (unscheduled.makeCurrent k _ _)
    · rw [unscheduled.resume, unscheduled.afterSwitch, unscheduled.leave, unscheduled.makeCurrent]

theorem timerTickHandler (k : Kernel) (rsp : UInt64) : observe (k.timerTickHandler rsp).1 = observe k := by
  have picked : observe (k.pickNext (.preemptive rsp)).1 = observe k := by
    unfold pickNext
    cases k.scheduler.current with
    | none =>
      dsimp only
      split
      · exact unscheduled.makeCurrent k _ _
      · rfl
    | some current =>
      dsimp only
      split
      · rw [unscheduled.makeCurrent, unscheduled.queues]
      · rw [unscheduled.queues]
  unfold Kernel.timerTickHandler
  dsimp only
  split <;> exact picked

theorem timerTick (k : Kernel) (rsp : UInt64) : observe (k.timerTick rsp) = observe k := by
  unfold Kernel.timerTick
  split
  · dsimp only
    split
    · rw [unscheduled.resume, unscheduled.timerTickHandler, unscheduled.suspend]
    · rw [unscheduled.cpu, unscheduled.timerTickHandler, unscheduled.suspend]
  · dsimp only
    split
    · rw [unscheduled.resume, unscheduled.emitAny, unscheduled.timerTickHandler]
    · exact unscheduled.timerTickHandler k rsp
  · dsimp only
    split
    · rw [unscheduled.resume, unscheduled.timerTickHandler]
    · exact unscheduled.timerTickHandler k rsp

theorem exitCurrentThread {k : Kernel} {current : Thread} (isCurrent : k.scheduler.current = some current)
    (rax rsp : UInt64) : observe (k.exitCurrentThread rax rsp) = observe (k.retire current) := by
  unfold Kernel.exitCurrentThread
  rw [isCurrent]
  dsimp only
  split
  · split
    · rw [unscheduled.resume, unscheduled.makeCurrent]
    · rw [unscheduled.resume, unscheduled.afterSwitch, unscheduled.makeCurrent]
  · exact unscheduled.cpu _ .halted

theorem step {op : Op} (taken : k.step op = some after) (schedules : op.schedules = true) :
    observe after = observe k := by
  cases op with
  | yieldNow =>
    obtain ⟨_, rfl⟩ := of_yieldNow taken
    exact unscheduled.yieldNow k
  | sysSend handle msg =>
    obtain ⟨_, rfl⟩ := of_whenRunning taken
    exact unscheduled.sysSend k handle msg
  | sysRecv handle =>
    obtain ⟨_, rfl⟩ := of_whenRunning taken
    exact unscheduled.sysRecv k handle
  | dispatch rsp =>
    obtain ⟨source, call, _, rfl⟩ := of_dispatch taken
    exact unscheduled.dispatch k source call rsp
  | timerTick rsp =>
    obtain ⟨_, rfl⟩ := of_whenInterruptible taken
    exact unscheduled.timerTick k rsp
  | wake =>
    obtain ⟨_, _, _, rfl⟩ := of_wake taken
    exact unscheduled.cpu k _
  | panic =>
    obtain ⟨_, rfl⟩ := of_whenRunning taken
    exact unscheduled.cpu k .halted
  | _ => cases schedules

end Unscheduled

theorem unscheduled_objects : Unscheduled objects where
  toUnswitched := unswitched_objects
  emitAny _ _ := rfl
  queues _ _ _ := rfl
  endpoints _ _ := rfl
  msgBuf _ _ := rfl
  hardware _ _ := rfl

end Kernel

end ElseOS
