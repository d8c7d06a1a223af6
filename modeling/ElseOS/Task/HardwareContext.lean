import ElseOS.Task.Unscheduled

/-! The hardware context of the current thread.

The seven places that install a current thread all go through `makeCurrent`. Everything
else the kernel does leaves both the current thread and the registers alone, or leaves no
thread current. -/

set_option autoImplicit false

namespace ElseOS.Kernel

/-- Interrupts and system calls of the current thread land on its own kernel stack, and the
page tables loaded are its own. -/
def FollowsCurrent (k : Kernel) : Prop :=
  ∀ thread, k.scheduler.current = some thread →
    k.hardware.tssRsp0 = thread.stackTop ∧ k.hardware.kernelStack = thread.stackTop ∧
      ∀ cr3, thread.cr3 = some cr3 → k.hardware.cr3 = cr3

def footing (k : Kernel) : Option (UInt64 × Option UInt64) × Hardware :=
  (k.scheduler.current.map fun thread => (thread.stackTop, thread.cr3), k.hardware)

variable {k after : Kernel}

theorem FollowsCurrent.of_footing (follows : k.FollowsCurrent) (same : after.footing = k.footing) :
    after.FollowsCurrent := by
  intro thread current
  obtain ⟨viewed, hardware⟩ := Prod.mk.inj same
  rw [current, Option.map_some] at viewed
  obtain ⟨old, wasCurrent, equal⟩ := Option.map_eq_some_iff.mp viewed.symm
  obtain ⟨top, tables⟩ := Prod.mk.inj equal
  rw [hardware, ← top, ← tables]
  exact follows old wasCurrent

theorem follows_vacant (vacant : k.scheduler.current = none) : k.FollowsCurrent := by
  intro thread current
  rw [vacant] at current
  cases current

theorem follows_makeCurrent (k : Kernel) (next : Thread) (rest : List Thread) :
    (k.makeCurrent next rest).FollowsCurrent := by
  intro thread current
  obtain rfl : next = thread := Option.some.inj current
  refine ⟨rfl, rfl, ?_⟩
  intro cr3 own
  show next.cr3.getD k.hardware.cr3 = cr3
  rw [own, Option.getD_some]

theorem unswitched_footing : Unswitched footing where
  cpu _ _ := rfl
  frames _ _ := rfl
  stateToUpdate _ _ := rfl
  emit _ _ _ := rfl
  writeState k ptr state := by
    cases ptr with
    | waitSlot p tid => rfl
    | boxed tid =>
      refine Prod.ext ?_ rfl
      show (k.scheduler.current.map (Thread.setState tid state)).map _ = k.scheduler.current.map _
      rw [Option.map_map]
      refine congrArg (k.scheduler.current.map ·) (funext fun thread => ?_)
      unfold Function.comp Thread.setState
      split
      · rfl
      · rfl

/-! ## The calls -/

theorem follows_sendOn (follows : k.FollowsCurrent) (current : Thread) (ep : EndpointRef) (msg : Message) :
    (k.sendOn current ep msg).1.FollowsCurrent := by
  unfold sendOn
  dsimp only
  split
  · exact follows.of_footing rfl
  · split
    · exact follows_vacant rfl
    · exact follows.of_footing rfl

theorem follows_sysSend (follows : k.FollowsCurrent) (handle : UInt64) (msg : Message) :
    (k.sysSend handle msg).1.FollowsCurrent := by
  unfold sysSend
  split
  · exact follows.of_footing rfl
  · exact follows
  · split
    · exact follows_sendOn follows _ _ msg
    · exact follows
  · exact follows

theorem follows_recvOn (follows : k.FollowsCurrent) (current : Thread) (ep : EndpointRef) :
    (k.recvOn current ep).1.FollowsCurrent := by
  unfold recvOn
  dsimp only
  split
  · exact follows.of_footing rfl
  · split
    · exact follows_vacant rfl
    · exact follows.of_footing rfl

theorem follows_sysRecv (follows : k.FollowsCurrent) (handle : UInt64) : (k.sysRecv handle).1.FollowsCurrent := by
  unfold sysRecv
  split
  · exact follows.of_footing rfl
  · exact follows
  · split
    · exact follows_recvOn follows _ _
    · exact follows
  · exact follows

theorem follows_sysWait (follows : k.FollowsCurrent) (handle : UInt64) : (k.sysWait handle).1.FollowsCurrent := by
  unfold sysWait
  split
  · exact follows.of_footing rfl
  · split
    · dsimp only
      split
      · exact follows.of_footing rfl
      · exact follows_vacant rfl
    · exact follows
  · exact follows

theorem follows_sysWaitIrq (follows : k.FollowsCurrent) (handle : UInt64) :
    (k.sysWaitIrq handle).1.FollowsCurrent := by
  unfold sysWaitIrq
  split
  · exact follows.of_footing rfl
  · dsimp only
    split
    · exact follows.of_footing rfl
    · exact follows_vacant rfl
  · exact follows

theorem follows_yieldNow (follows : k.FollowsCurrent) : k.yieldNow.1.FollowsCurrent := by
  unfold yieldNow
  split
  · exact follows
  · split
    · exact follows_vacant rfl
    · exact follows.of_footing rfl

theorem follows_unblockIrq (follows : k.FollowsCurrent) (irq : UInt8) : (k.unblockIrq irq).FollowsCurrent := by
  unfold unblockIrq
  split
  · exact follows.of_footing rfl
  · exact follows.of_footing rfl

/-! ## The switches -/

theorem follows_dispatch (follows : k.FollowsCurrent) (source : Option Tid) (call : BlockingCall) (rsp : UInt64) :
    (k.dispatch source call rsp).FollowsCurrent := by
  have left : ∀ (k : Kernel) (finishes : Bool), (k.leave source rsp call finishes).footing = k.footing := by
    intro k finishes
    cases source with
    | none => rfl
    | some tid => rfl
  unfold dispatch
  split
  · cases source with
    | none => exact follows.of_footing rfl
    | some tid => exact follows.of_footing rfl
  next next rest _ =>
    have installed := follows_makeCurrent k next rest
    dsimp only
    split
    · exact installed.of_footing ((unswitched_footing.resume _ _ _ _).trans (left _ _))
    · exact installed.of_footing rfl
    · refine installed.of_footing ((unswitched_footing.resume _ _ _ _).trans ?_)
      rw [unswitched_footing.afterSwitch, left]

theorem follows_exitCurrentThread (follows : k.FollowsCurrent) (rax rsp : UInt64) :
    (k.exitCurrentThread rax rsp).FollowsCurrent := by
  unfold exitCurrentThread
  split
  · exact follows.of_footing rfl
  next current _ =>
    dsimp only
    split
    next next rest _ =>
      have installed := follows_makeCurrent (k.retire current) next rest
      split
      · exact installed.of_footing (unswitched_footing.resume _ _ _ _)
      · exact installed.of_footing ((unswitched_footing.resume _ _ _ _).trans (unswitched_footing.afterSwitch _ _))
    · exact follows_vacant rfl

theorem follows_pickNext (follows : k.FollowsCurrent) (saved : SavedThreadState) :
    (k.pickNext saved).1.FollowsCurrent := by
  unfold pickNext
  cases isCurrent : k.scheduler.current with
  | none =>
    dsimp only
    split
    · exact follows_makeCurrent _ _ _
    · exact follows
  | some current =>
    dsimp only
    split
    · exact follows_makeCurrent _ _ _
    · exact follows_vacant rfl

theorem follows_timerTickHandler (follows : k.FollowsCurrent) (rsp : UInt64) :
    (k.timerTickHandler rsp).1.FollowsCurrent := by
  have picked := follows_pickNext follows (.preemptive rsp)
  unfold timerTickHandler
  dsimp only
  split
  · exact picked
  · exact picked

theorem follows_timerTick (follows : k.FollowsCurrent) (rsp : UInt64) : (k.timerTick rsp).FollowsCurrent := by
  unfold timerTick
  split
  next tid _ =>
    -- the interrupted thread's registers are on its stack before the handler runs
    have suspended : (k.suspend tid (.preemptive rsp) .interrupted).FollowsCurrent := follows.of_footing rfl
    have handled := follows_timerTickHandler suspended rsp
    dsimp only
    split
    · exact handled.of_footing (unswitched_footing.resume _ _ _ _)
    · exact handled.of_footing rfl
  · have handled := follows_timerTickHandler follows rsp
    dsimp only
    split
    · exact handled.of_footing (unswitched_footing.resume _ _ _ _)
    · exact handled
  · have handled := follows_timerTickHandler follows rsp
    dsimp only
    split
    · exact handled.of_footing (unswitched_footing.resume _ _ _ _)
    · exact handled

/-! ## Runs -/

theorem follows_spawnChild (follows : k.FollowsCurrent) (epHandle entryPoint cr3 stackBase : UInt64) :
    (k.spawnChild epHandle entryPoint cr3 stackBase).1.FollowsCurrent := by
  unfold spawnChild
  split
  · exact follows.of_footing rfl
  · dsimp only
    split
    · exact follows.of_footing rfl
    · exact follows.of_footing rfl

theorem follows_of_step (follows : k.FollowsCurrent) {op : Op} (taken : k.step op = some after) :
    after.FollowsCurrent := by
  cases op with
  | newKernelThread entryPoint stackBase =>
    obtain ⟨_, rfl⟩ := of_newKernelThread taken
    exact follows.of_footing rfl
  | yieldNow =>
    obtain ⟨_, rfl⟩ := of_yieldNow taken
    exact follows_yieldNow follows
  | exitCurrentThread rax rsp =>
    obtain ⟨_, rfl⟩ := of_whenRunning taken
    exact follows_exitCurrentThread follows rax rsp
  | sysSend handle msg =>
    obtain ⟨_, rfl⟩ := of_whenRunning taken
    exact follows_sysSend follows handle msg
  | sysRecv handle =>
    obtain ⟨_, rfl⟩ := of_whenRunning taken
    exact follows_sysRecv follows handle
  | sysWait handle =>
    obtain ⟨_, rfl⟩ := of_whenRunning taken
    exact follows_sysWait follows handle
  | sysWaitIrq handle =>
    obtain ⟨_, rfl⟩ := of_whenRunning taken
    exact follows_sysWaitIrq follows handle
  | sysEndpointCreate =>
    obtain ⟨_, rfl⟩ := of_whenRunning taken
    unfold sysEndpointCreate
    split
    · exact follows.of_footing rfl
    · exact follows.of_footing rfl
  | spawnChild epHandle entryPoint cr3 stackBase =>
    obtain ⟨_, rfl⟩ := of_whenRunning taken
    exact follows_spawnChild follows epHandle entryPoint cr3 stackBase
  | spawnThread entryPoint userStack stackBase =>
    obtain ⟨_, rfl⟩ := of_whenRunning taken
    unfold spawnThread
    split
    · exact follows.of_footing rfl
    · exact follows.of_footing rfl
  | grantMemory start len =>
    obtain ⟨_, rfl⟩ := of_whenRunning taken
    unfold grantMemory
    split
    · exact follows.of_footing rfl
    · exact follows.of_footing rfl
  | dispatch rsp =>
    obtain ⟨source, call, _, rfl⟩ := of_dispatch taken
    exact follows_dispatch follows source call rsp
  | timerTick rsp =>
    obtain ⟨_, rfl⟩ := of_whenInterruptible taken
    exact follows_timerTick follows rsp
  | unblockIrq irq =>
    obtain ⟨_, rfl⟩ := of_whenInterruptible taken
    exact follows_unblockIrq follows irq
  | wake =>
    obtain ⟨_, _, _, rfl⟩ := of_wake taken
    exact follows.of_footing rfl
  | panic =>
    obtain ⟨_, rfl⟩ := of_whenRunning taken
    exact follows.of_footing rfl

/-- In every reachable state the registers belong to the thread that is current. -/
theorem hardware_follows_current {bootCr3 : UInt64} {info : BootInfo} {image : InitImage} {history : List (Kernel × Op)}
    {k : Kernel} (run : KernelRun bootCr3 info image history k) : k.FollowsCurrent :=
  run.always FollowsCurrent (follows_vacant rfl) fun follows taken => follows_of_step follows taken

/-- `init` spawns a process and yields to it: the stack and the page tables are the child's. -/
theorem hardware_follows_child : ∃ history k thread,
    KernelRun 0x1000 ⟨none, none, 0⟩ ⟨0x400000, 0x2000, 0x10000⟩ history k ∧
    history.map Prod.snd = [.yieldNow, .dispatch 1, .spawnChild 0 0x400000 0x3000 0x20000, .yieldNow,
      .dispatch 0x11d00] ∧
    k.scheduler.current = some thread ∧ thread.stackTop = 0x22000 ∧ thread.cr3 = some 0x3000 ∧
    k.hardware.tssRsp0 = 0x22000 ∧ k.hardware.kernelStack = 0x22000 ∧ k.hardware.cr3 = 0x3000 := by
  obtain ⟨history, k, run, labels, _, checked⟩ := Base.Run.of_check step (fun _ _ => true)
    (booted 0x1000 ⟨none, none, 0⟩ ⟨0x400000, 0x2000, 0x10000⟩)
    [.yieldNow, .dispatch 1, .spawnChild 0 0x400000 0x3000 0x20000, .yieldNow, .dispatch 0x11d00]
    (fun k => k.scheduler.current.any fun thread => thread.stackTop == 0x22000 && thread.cr3 == some 0x3000)
    (by decide +kernel)
  obtain ⟨thread, current, facts⟩ := (Option.any_eq_true _ _).mp checked
  rw [Bool.and_eq_true, beq_iff_eq, beq_iff_eq] at facts
  obtain ⟨top, tables⟩ := facts
  obtain ⟨rsp0, stack, loaded⟩ := hardware_follows_current run thread current
  exact ⟨history, k, thread, run, labels, current, top, tables, rsp0.trans top, stack.trans top, loaded _ tables⟩

end ElseOS.Kernel
