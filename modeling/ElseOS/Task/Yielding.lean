import ElseOS.Task.Resumption

/-! `yield_now` next to the timer.

A yield can only switch to a thread that left the CPU in a call of its own; a thread that the
timer took off the CPU sends it into `unimplemented!`. -/

set_option autoImplicit false

namespace ElseOS.Kernel

variable {k after : Kernel} {op : Op}

/-! ## How threads were suspended -/

def Cooperative (k : Kernel) : Prop := ∀ place, ∀ thread ∈ k.residents place, thread.state.isPreemptive = false

def interrupts (k : Kernel) (op : Op) : Bool :=
  match op with
  | .timerTick _ => k.cpu.isRunning
  | _ => false

theorem Cooperative.among (cooperative : k.Cooperative) (among : Among k.residents after.residents) :
    after.Cooperative := by
  intro place thread member
  obtain ⟨origin, before⟩ := among place thread member
  exact cooperative origin thread before

theorem Cooperative.afterSwitch (cooperative : k.Cooperative) (rsp : UInt64) : (k.afterSwitch rsp).Cooperative := by
  intro place thread member
  obtain ⟨earlier, before, _, state⟩ := mem_residents_afterSwitch member
  rw [state, due]
  -- `after_switch` writes a cooperative state or none
  split
  · split
    · rfl
    · exact cooperative place earlier before
  · exact cooperative place earlier before

theorem Cooperative.resume (cooperative : k.Cooperative) (tid : Tid) (state : SavedThreadState) (rax : UInt64) :
    (k.resume tid state rax).Cooperative := by
  rcases k.resume_cases tid state rax with ⟨_, lost⟩ | ⟨resume, _, found⟩
  · rw [lost]
    exact cooperative
  · rw [found]
    let started : Kernel := { k.emit (.dispatched tid state) with frames := Function.update k.frames tid none }
    have same : started.Cooperative := cooperative
    have finished : (if resume.finishesSwitch then started.afterSwitch rax else started).Cooperative := by
      split
      · exact same.afterSwitch rax
      · exact same
    unfold continueAt
    cases resume.receivesFrom <;> exact finished

theorem Cooperative.makeCurrent (cooperative : k.Cooperative) {next : Thread} {rest : List Thread}
    (queued : k.scheduler.runQueue = next :: rest) : (k.makeCurrent next rest).Cooperative := by
  intro place thread member
  rcases mem_residents_makeCurrent queued member with ⟨rfl, _⟩ | stayed
  · exact cooperative .runQueue thread (by simp [residents, queued])
  · exact cooperative place thread stayed

theorem Cooperative.retire (cooperative : k.Cooperative) (current : Thread) : (k.retire current).Cooperative := by
  intro place thread member
  obtain ⟨origin, _, before⟩ := mem_residents_retire member
  exact cooperative origin thread before

theorem Cooperative.leave (cooperative : k.Cooperative) (source : Option Tid) (rsp : UInt64) (call : BlockingCall)
    (finishes : Bool) : (k.leave source rsp call finishes).Cooperative := by
  cases source <;> exact cooperative

/-- Only a tick in a thread's own code suspends that thread preemptively. -/
theorem Moves.cooperative (moves : k.Moves op after) (spared : k.interrupts op = false) (cooperative : k.Cooperative) :
    after.Cooperative := by
  cases moves with
  | same quiet same =>
    intro place thread member
    rw [residents_sameTasks same] at member
    exact cooperative place thread member
  | halt quiet => exact cooperative
  | create quiet creates =>
    intro place thread member
    rcases mem_residents_create creates member with rfl | old
    · obtain ⟨stackBase, initial⟩ := creates.initial
      rw [initial]
      rfl
    · exact cooperative place thread old
  | yield isCurrent => exact cooperative.among (among_yield isCurrent)
  | bootYield free => exact cooperative
  | deliver reached mode => exact cooperative.among (among_deliver mode _ _)
  | blockSender reached mode =>
    obtain ⟨_, _, _, _, isCurrent, _⟩ := sending_spec reached
    exact cooperative.among (among_blockSender isCurrent mode _)
  | drop reached mode => exact cooperative
  | take reached mode => exact cooperative.among (among_take mode _)
  | blockReceiver reached mode =>
    obtain ⟨_, _, _, _, isCurrent, _⟩ := receiving_spec reached
    exact cooperative.among (among_blockReceiver isCurrent mode)
  | conjure reached mode => exact cooperative
  | wait isCurrent inside => exact cooperative.among (among_wait isCurrent _)
  | waitIrq isCurrent blocks => exact cooperative.among (among_waitIrq isCurrent _)
  | unblock waiting => exact cooperative.among (among_unblock waiting)
  | wake idle => exact cooperative
  | idle dispatching empty => exact cooperative
  | switchCooperative dispatching queued state =>
    exact ((cooperative.makeCurrent queued).leave _ _ _ _).resume _ _ _
  | switchPreemptive dispatching queued state =>
    exact (((cooperative.makeCurrent queued).leave _ _ _ _).afterSwitch _).resume _ _ _
  | refuse dispatching queued => exact cooperative.makeCurrent queued
  | exitCooperative isCurrent queued state =>
    exact ((cooperative.retire _).makeCurrent queued).resume _ _ _
  | exitPreemptive isCurrent queued state =>
    exact (((cooperative.retire _).makeCurrent queued).afterSwitch _).resume _ _ _
  | exitLast isCurrent => exact cooperative.retire _
  -- the one case that stores a preemptive state is the one excluded
  | preempt running => simp [interrupts, running, Cpu.isRunning] at spared
  | @leaveIdle tid call next rest rsp idle queued =>
    have moved : ((k.makeCurrent next rest).emit (.suspended tid (.preemptive rsp))).Cooperative :=
      cooperative.makeCurrent queued
    exact moved.resume _ _ _
  | leaveBoot boot queued => exact (cooperative.makeCurrent queued).resume _ _ _

variable {bootCr3 : UInt64} {info : BootInfo} {image : InitImage} {history : List (Kernel × Op)}

theorem cooperative_of_run (run : KernelRun bootCr3 info image history k)
    (spared : ∀ entry ∈ history, entry.1.interrupts entry.2 = false) : k.Cooperative := by
  revert spared
  refine run.induct (fun past state => (∀ entry ∈ past, entry.1.interrupts entry.2 = false) → state.Cooperative) ?_ ?_
  · intro _ place thread member
    cases place with
    | runQueue =>
      obtain rfl := List.mem_singleton.mp member
      rfl
    | current => cases member
    | endpoint ep => cases member
    | irq irq => cases member
    | waitQueue p =>
      simp [residents, booted, spawnProcess, newUserThread, setCSpace, setProcess, pushBack, emit, new,
        ProcessState.new] at member
  · intro past state op after earlier ih taken spared
    have cooperative := ih fun entry member => spared entry (List.mem_append_left _ member)
    exact (moves_of_step (orderly_of_run earlier) taken).cooperative (spared (state, op) (by simp)) cooperative

/-! ## Yielding -/

/-- The thread has the CPU, and runs if the state stored for it leads to its frame. -/
structure SwitchedTo (k after : Kernel) (next : Thread) : Prop where
  isCurrent : after.occupants .current = [next.tid]
  goesOn : after.cpu ≠ .halted
  runs : (∃ resume, k.frames next.tid = some (next.state, resume)) → after.cpu = .running next.tid

theorem switchedTo_resume {started : Kernel} {next : Thread} {rsp : UInt64}
    (isCurrent : started.occupants .current = [next.tid]) (frames : started.frames next.tid = k.frames next.tid) :
    k.SwitchedTo (started.resume next.tid next.state rsp) next := by
  constructor
  · rw [unswitched_occupants.resume, isCurrent]
  · rcases started.cpu_resume next.tid next.state rsp with running | astray
    · simp [running]
    · simp [astray]
  · rintro ⟨resume, frame⟩
    rcases started.resume_cases next.tid next.state rsp with ⟨missing, _⟩ | ⟨_, _, resumed⟩
    · exact absurd (frames.trans frame) (missing resume)
    · rw [resumed]
      unfold continueAt
      dsimp only
      split <;> rfl

theorem switchedTo_dispatch_iff {next : Thread} {rest : List Thread} {source : Option Tid}
    (queued : k.scheduler.runQueue = next :: rest) (apart : source ≠ some next.tid) (rsp : UInt64) :
    k.SwitchedTo (k.dispatch source .yieldNow rsp) next ↔ next.state.isPreemptive = false := by
  unfold dispatch
  rw [queued]
  dsimp only
  cases state : next.state with
  | cooperative sp =>
    dsimp only
    rw [← state]
    refine iff_of_true (switchedTo_resume ?_ ?_) (by rw [state]; rfl)
    · simp
    · -- the yielding thread pushes a frame of its own, not one of the next thread
      cases source with
      | none => rfl
      | some tid => exact Function.update_of_ne (fun same => apart (by rw [same])) _ _
  | preemptive sp =>
    refine iff_of_false ?_ (by simp [SavedThreadState.isPreemptive])
    intro switched
    exact switched.goesOn rfl

/-- With somebody in the run queue a yield always goes on to the switch, which nothing can precede. It
succeeds exactly when the front thread was not taken off the CPU by the timer, and no thread is while
no tick finds one in its own code. -/
theorem yield_switches_iff (run : KernelRun bootCr3 info image history k) {between : Kernel} {next : Thread}
    {rest : List Thread} (queued : k.scheduler.runQueue = next :: rest) (taken : k.step .yieldNow = some between)
    (rsp : UInt64) :
    (∃ after, between.step (.dispatch rsp) = some after ∧
      (k.SwitchedTo after next ↔ next.state.isPreemptive = false)) ∧
    (∀ op other, between.step op = some other → ∃ rsp, op = .dispatch rsp) ∧
    ((∀ entry ∈ history, entry.1.interrupts entry.2 = false) → next.state.isPreemptive = false) := by
  have front : next ∈ k.residents .runQueue := by simp [residents, queued]
  obtain ⟨_, allowed⟩ := of_yieldNow taken
  obtain ⟨source, rest, same, frames, cpu, apart⟩ : ∃ source rest, between.scheduler.runQueue = next :: rest ∧
      between.frames = k.frames ∧ between.cpu = .dispatching source .yieldNow ∧ source ≠ some next.tid := by
    rw [allowed, yieldNow, queued]
    cases isCurrent : k.scheduler.current with
    | none => exact ⟨none, rest, queued, rfl, rfl, by simp⟩
    | some current =>
      -- nobody stands both on the CPU and in the run queue
      obtain ⟨loc, placed, _⟩ := placed_of_run run
      have other := tid_ne_current placed.located isCurrent (by simp) front
      exact ⟨some current.tid, rest ++ [current], by simp, rfl, rfl, by simpa using Ne.symm other⟩
  refine ⟨⟨between.dispatch source .yieldNow rsp, by simp [step, cpu], ?_⟩, ?_, ?_⟩
  · have switches := switchedTo_dispatch_iff same apart rsp
    constructor
    · rintro ⟨isCurrent, goesOn, runs⟩
      exact switches.mp ⟨isCurrent, goesOn, frames ▸ runs⟩
    · intro cooperative
      obtain ⟨isCurrent, goesOn, runs⟩ := switches.mpr cooperative
      exact ⟨isCurrent, goesOn, frames ▸ runs⟩
  · -- interrupts are off and no thread's own code runs
    intro op other moved
    cases op <;> simp [step, whenRunning, whenInterruptible, cpu, Cpu.isRunning, Cpu.interruptible] at moved ⊢
  · intro spared
    exact cooperative_of_run run spared .runQueue next front

/-- The timer takes `init` off the CPU; its second thread yields back to it and the kernel panics. -/
theorem yield_refused : ∃ history k between after next rest,
    KernelRun 0x1000 ⟨none, none, 0⟩ ⟨0x400000, 0x2000, 0x10000⟩ history k ∧
    history.map Prod.snd = [.yieldNow, .dispatch 1, .spawnThread 0x400100 0x7000 0x20000, .timerTick 0x11e00] ∧
    k.scheduler.runQueue = next :: rest ∧ k.step .yieldNow = some between ∧
    between.step (.dispatch 0x21d00) = some after ∧ after.cpu = .halted ∧ ¬ k.SwitchedTo after next := by
  obtain ⟨history, k, run, labels, _, checked⟩ := Base.Run.of_check step (fun _ _ => true)
    (booted 0x1000 ⟨none, none, 0⟩ ⟨0x400000, 0x2000, 0x10000⟩)
    [.yieldNow, .dispatch 1, .spawnThread 0x400100 0x7000 0x20000, .timerTick 0x11e00]
    (fun k => !k.scheduler.runQueue.isEmpty && (k.step .yieldNow).any fun between =>
      (between.step (.dispatch 0x21d00)).any fun after => decide (after.cpu = .halted)) (by decide +kernel)
  simp only [Bool.and_eq_true, Option.any_eq_true, decide_eq_true_eq, Bool.not_eq_true',
    List.isEmpty_eq_false_iff] at checked
  obtain ⟨some, between, taken, after, dispatched, halted⟩ := checked
  obtain ⟨next, rest, queued⟩ := List.exists_cons_of_ne_nil some
  exact ⟨history, k, between, after, next, rest, run, labels, queued, taken, dispatched, halted,
    fun switched => switched.goesOn halted⟩

/-- `init` yields to a thread it created and the thread starts. -/
theorem yield_to_new_thread : ∃ history k between after next rest,
    KernelRun 0x1000 ⟨none, none, 0⟩ ⟨0x400000, 0x2000, 0x10000⟩ history k ∧
    history.map Prod.snd = [.yieldNow, .dispatch 1, .spawnThread 0x400100 0x7000 0x20000] ∧
    k.scheduler.runQueue = next :: rest ∧ k.step .yieldNow = some between ∧
    between.step (.dispatch 0x11d00) = some after ∧ k.SwitchedTo after next := by
  obtain ⟨history, k, run, labels, spared, checked⟩ := Base.Run.of_check step (fun k op => !k.interrupts op)
    (booted 0x1000 ⟨none, none, 0⟩ ⟨0x400000, 0x2000, 0x10000⟩)
    [.yieldNow, .dispatch 1, .spawnThread 0x400100 0x7000 0x20000]
    (fun k => !k.scheduler.runQueue.isEmpty && (k.step .yieldNow).isSome) (by decide +kernel)
  simp only [Bool.and_eq_true, Option.isSome_iff_exists, Bool.not_eq_true', List.isEmpty_eq_false_iff] at checked
  obtain ⟨some, between, taken⟩ := checked
  obtain ⟨next, rest, queued⟩ := List.exists_cons_of_ne_nil some
  obtain ⟨⟨after, dispatched, switches⟩, _, cooperative⟩ := yield_switches_iff run queued taken 0x11d00
  refine ⟨history, k, between, after, next, rest, run, labels, queued, taken, dispatched, switches.mpr ?_⟩
  exact cooperative fun entry member => by simpa using spared entry member

end ElseOS.Kernel
