import ElseOS.Task.Lineage
import ElseOS.Task.Placement

/-! Processes that end, and the threads that wait for them.

`exit_current_thread` sets the flag of the whole process and releases everyone in its wait
queue; `sys_wait` looks at the flag and joins the queue. -/

set_option autoImplicit false

namespace ElseOS.Kernel

open Base (Located)

structure ProcessStatus where
  terminated : Bool
  waiting : List Tid

def status (k : Kernel) (p : ProcessRef) : ProcessStatus :=
  ⟨(k.processes p).terminated, (k.processes p).waitQueue.map Thread.tid⟩

def registry (k : Kernel) : (ProcessRef → ProcessStatus) × ProcessRef := (k.status, k.nextProcess)

theorem unscheduled_registry : Unscheduled registry where
  cpu _ _ := rfl
  frames _ _ := rfl
  stateToUpdate _ _ := rfl
  emit _ _ _ := rfl
  writeState k ptr state := by
    cases ptr with
    | boxed tid => rfl
    | waitSlot p tid =>
      unfold registry
      congr 1
      funext other
      by_cases same : other = p
      · subst same
        simp [status, writeState, setProcess, Function.comp_def]
      · simp [status, writeState, setProcess, same]
  emitAny _ _ := rfl
  queues _ _ _ := rfl
  endpoints _ _ := rfl
  msgBuf _ _ := rfl
  hardware _ _ := rfl

def waitedFor (k : Kernel) : Op → Option ProcessRef
  | .sysWait handle =>
    match k.lookup handle with
    | some (_, _, some (.process p rights)) => if rights.contains .WAIT then some p else none
    | _ => none
  | _ => none

def joins (k : Kernel) (op : Op) : Option ProcessRef := (k.waitedFor op).filter fun p => !(k.processes p).terminated

variable {k after : Kernel} {op : Op}

theorem joins_eq_some {p : ProcessRef} :
    k.joins op = some p ↔ k.waitedFor op = some p ∧ (k.processes p).terminated = false := by
  simp [joins, Option.filter_eq_some_iff]

/-! ## One step -/

theorem status_setProcess (k : Kernel) (p : ProcessRef) (state : ProcessState) :
    (k.setProcess p state).status =
      Function.update k.status p ⟨state.terminated, state.waitQueue.map Thread.tid⟩ := by
  funext other
  by_cases same : other = p
  · subst same
    simp [status, setProcess]
  · simp [status, setProcess, same]

theorem registry_sysWait (handle : UInt64) :
    (k.joins (.sysWait handle) = none ∧ (k.sysWait handle).1.registry = k.registry) ∨
    ∃ p current, k.joins (.sysWait handle) = some p ∧ k.scheduler.current = some current ∧
      (k.sysWait handle).1.registry =
        (Function.update k.status p ⟨false, (k.status p).waiting ++ [current.tid]⟩, k.nextProcess) := by
  rcases found : k.lookup handle with _ | ⟨current, cs, _ | cap⟩
  · exact .inl ⟨by simp [joins, waitedFor, found], by simp only [sysWait, found]; rfl⟩
  · exact .inl ⟨by simp [joins, waitedFor, found], by simp [sysWait, found]⟩
  · cases cap with
    | process p rights =>
      by_cases allowed : rights.contains .WAIT = true
      · cases ended : (k.processes p).terminated with
        | true =>
          left
          constructor
          · simp [joins, waitedFor, found, allowed, ended]
          · have finished : ((k.emit (.waited p current.tid)).processes p).terminated = true := ended
            simp only [sysWait, found, allowed, finished, if_true]
            rfl
        | false =>
          right
          refine ⟨p, current, by simp [joins, waitedFor, found, allowed, ended], (lookup_eq found).1, ?_⟩
          have unfinished : ((k.emit (.waited p current.tid)).processes p).terminated = false := ended
          simp only [sysWait, found, allowed, unfinished, if_true, Bool.false_eq_true, if_false]
          rw [unscheduled_registry.block, registry, status_setProcess]
          simp only [List.map_append, List.map_cons, List.map_nil]
          rfl
      · exact .inl ⟨by simp [joins, waitedFor, found, allowed], by simp [sysWait, found, allowed]⟩
    | _ => exact .inl ⟨by simp [joins, waitedFor, found], by simp [sysWait, found]⟩

theorem registry_exit {current : Thread} (isCurrent : k.scheduler.current = some current) (rax rsp : UInt64) :
    (k.exitCurrentThread rax rsp).registry =
      match current.processState with
      | some p => (Function.update k.status p ⟨true, []⟩, k.nextProcess)
      | none => k.registry := by
  rw [unscheduled_registry.exitCurrentThread isCurrent]
  cases process : current.processState with
  | none =>
    simp only [retire, process]
    rfl
  | some p =>
    have drained := k.status_setProcess p ⟨true, []⟩
    have same : (k.retire current).registry = ((k.setProcess p ⟨true, []⟩).status, k.nextProcess) := by
      simp only [retire, process]
      rfl
    rw [same, drained]
    rfl

theorem registry_spawnChild {epHandle : UInt64} (entryPoint cr3 stackBase : UInt64)
    {found : Thread × CSpaceRef × Option Capability} (calls : k.lookup epHandle = some found) :
    (k.spawnChild epHandle entryPoint cr3 stackBase).1.registry =
      (Function.update k.status k.nextProcess ⟨false, []⟩, k.nextProcess + 1) := by
  have fresh := k.status_setProcess k.nextProcess .new
  have same : (k.spawnChild epHandle entryPoint cr3 stackBase).1.registry =
      ((k.setProcess k.nextProcess .new).status, k.nextProcess + 1) := by
    unfold spawnChild
    rw [calls]
    dsimp only
    split <;> rfl
  rw [same, fresh]
  rfl

theorem registry_of_step (taken : k.step op = some after) (stays : ∀ rax rsp, op ≠ .exitCurrentThread rax rsp)
    (plain : ∀ epHandle entryPoint cr3 stackBase, op ≠ .spawnChild epHandle entryPoint cr3 stackBase)
    (goes : ∀ handle, op ≠ .sysWait handle) : after.registry = k.registry := by
  by_cases schedules : op.schedules = true
  · exact unscheduled_registry.step taken schedules
  · cases op with
    | newKernelThread entryPoint stackBase =>
      obtain ⟨_, rfl⟩ := of_newKernelThread taken
      rfl
    | sysWaitIrq handle =>
      obtain ⟨_, rfl⟩ := of_whenRunning taken
      unfold sysWaitIrq
      split
      · rfl
      · dsimp only
        split <;> rfl
      · rfl
    | sysEndpointCreate =>
      obtain ⟨_, rfl⟩ := of_whenRunning taken
      unfold sysEndpointCreate
      split <;> rfl
    | spawnThread entryPoint userStack stackBase =>
      obtain ⟨_, rfl⟩ := of_whenRunning taken
      unfold spawnThread
      split <;> rfl
    | grantMemory start len =>
      obtain ⟨_, rfl⟩ := of_whenRunning taken
      unfold grantMemory
      split <;> rfl
    | unblockIrq irq =>
      obtain ⟨_, rfl⟩ := of_whenInterruptible taken
      unfold unblockIrq
      split <;> rfl
    | exitCurrentThread rax rsp => exact absurd rfl (stays rax rsp)
    | spawnChild epHandle entryPoint cr3 stackBase => exact absurd rfl (plain epHandle entryPoint cr3 stackBase)
    | sysWait handle => exact absurd rfl (goes handle)
    | _ => exact absurd rfl schedules

inductive StatusMoves (k : Kernel) (op : Op) : (ProcessRef → ProcessStatus) × ProcessRef → Prop where
  | unchanged : k.joins op = none → StatusMoves k op k.registry
  | wait {p : ProcessRef} {current : Thread} : k.joins op = some p → k.scheduler.current = some current →
      StatusMoves k op (Function.update k.status p ⟨false, (k.status p).waiting ++ [current.tid]⟩, k.nextProcess)
  | exit {p : ProcessRef} {current : Thread} {rax rsp : UInt64} : op = .exitCurrentThread rax rsp →
      k.scheduler.current = some current → current.processState = some p →
      StatusMoves k op (Function.update k.status p ⟨true, []⟩, k.nextProcess)
  | spawn : k.joins op = none →
      StatusMoves k op (Function.update k.status k.nextProcess ⟨false, []⟩, k.nextProcess + 1)

theorem statusMoves_of_step (taken : k.step op = some after) : k.StatusMoves op after.registry := by
  have steady (same : after.registry = k.registry) (away : k.joins op = none) : k.StatusMoves op after.registry := by
    rw [same]
    exact .unchanged away
  -- three operations touch process states, all others leave the registry alone
  cases op with
  | exitCurrentThread rax rsp =>
    obtain ⟨_, rfl⟩ := of_whenRunning taken
    cases isCurrent : k.scheduler.current with
    | none =>
      apply steady _ rfl
      simp only [exitCurrentThread, isCurrent]
      rfl
    | some current =>
      have moved := registry_exit isCurrent rax rsp
      cases process : current.processState with
      | none =>
        rw [process] at moved
        exact steady moved rfl
      | some p =>
        rw [process] at moved
        rw [moved]
        exact .exit rfl isCurrent process
  | spawnChild epHandle entryPoint cr3 stackBase =>
    obtain ⟨_, rfl⟩ := of_whenRunning taken
    cases found : k.lookup epHandle with
    | none =>
      apply steady _ rfl
      simp only [spawnChild, found]
      rfl
    | some caller =>
      rw [registry_spawnChild entryPoint cr3 stackBase found]
      exact .spawn rfl
  | sysWait handle =>
    obtain ⟨_, rfl⟩ := of_whenRunning taken
    rcases k.registry_sysWait handle with ⟨away, same⟩ | ⟨p, current, joined, isCurrent, moved⟩
    · exact steady same away
    · rw [moved]
      exact .wait joined isCurrent
  | _ => exact steady (registry_of_step taken (by simp) (by simp) (by simp)) rfl

/-! ## Waiting -/

def joiners (p : ProcessRef) (history : List (Kernel × Op)) : List Tid :=
  history.filterMap fun entry =>
    if entry.1.joins entry.2 = some p then entry.1.scheduler.current.map Thread.tid else none

theorem joiners_append (p : ProcessRef) (history : List (Kernel × Op)) (k : Kernel) (op : Op) :
    joiners p (history ++ [(k, op)]) =
      joiners p history ++ (if k.joins op = some p then k.scheduler.current.map Thread.tid else none).toList := by
  unfold joiners
  rw [List.filterMap_append]
  rfl

/-- Until a process ends its wait queue is everyone who joined it, in that order; after that it is empty. -/
structure Queued (p : ProcessRef) (history : List (Kernel × Op)) (k : Kernel) : Prop where
  fresh : k.nextProcess ≤ p → (k.status p).terminated = false
  waiting : (k.status p).terminated = false → (k.status p).waiting = joiners p history
  drained : (k.status p).terminated = true → (k.status p).waiting = []
  kept : ∀ entry ∈ history, (entry.1.status p).terminated = true → (k.status p).terminated = true

variable {p : ProcessRef} {history : List (Kernel × Op)}

theorem Queued.same (queued : Queued p history k) (away : k.joins op ≠ some p) (same : after.status p = k.status p)
    (grown : k.nextProcess ≤ after.nextProcess) : Queued p (history ++ [(k, op)]) after := by
  have joined : joiners p (history ++ [(k, op)]) = joiners p history := by simp [joiners_append, away]
  constructor
  · intro unused
    rw [same]
    exact queued.fresh (Nat.le_trans grown unused)
  · rw [same, joined]
    exact queued.waiting
  · rw [same]
    exact queued.drained
  · rw [same]
    intro entry member ended
    rcases List.mem_append.mp member with old | new
    · exact queued.kept entry old ended
    · rw [List.mem_singleton.mp new] at ended
      exact ended

theorem Queued.join (queued : Queued p history k) {current : Thread} (joined : k.joins op = some p)
    (isCurrent : k.scheduler.current = some current)
    (moved : after.status p = ⟨false, (k.status p).waiting ++ [current.tid]⟩) :
    Queued p (history ++ [(k, op)]) after := by
  have unfinished : (k.status p).terminated = false := (joins_eq_some.mp joined).2
  constructor
  · intro _
    rw [moved]
  · intro _
    rw [moved, joiners_append, queued.waiting unfinished]
    simp [joined, isCurrent]
  · simp [moved]
  · -- a process that can be joined had not ended at any earlier state
    intro entry member ended
    rcases List.mem_append.mp member with old | new
    · have ended := queued.kept entry old ended
      rw [unfinished] at ended
      cases ended
    · rw [List.mem_singleton.mp new, unfinished] at ended
      cases ended

theorem queued_exit (inside : p < after.nextProcess) (moved : after.status p = ⟨true, []⟩) :
    Queued p (history ++ [(k, op)]) after := by
  constructor
  · intro unused
    exact absurd inside (Nat.not_lt.mpr unused)
  · simp [moved]
  · simp [moved]
  · simp [moved]

theorem nextProcess_le (taken : k.step op = some after) : k.nextProcess ≤ after.nextProcess :=
  (counters_of_grants (grants_of_step taken)).2.1

theorem Queued.step (queued : Queued p history k) (orderly : k.Orderly) (populated : k.Populated)
    (taken : k.step op = some after) : Queued p (history ++ [(k, op)]) after := by
  have grown := nextProcess_le taken
  have moves := statusMoves_of_step taken
  generalize observed : after.registry = registered at moves
  have seen : after.status = registered.1 := congrArg Prod.fst observed
  cases moves with
  | unchanged away => exact queued.same (by simp [away]) (congrFun seen p) grown
  | @wait other current joined isCurrent =>
    by_cases here : other = p
    · subst here
      exact queued.join joined isCurrent (by simp [seen])
    · exact queued.same (by simp [joined, here]) (by simp [seen, Function.update_of_ne (Ne.symm here)]) grown
  | @exit other current rax rsp exits isCurrent belongs =>
    subst exits
    by_cases here : other = p
    · subst here
      -- the exiting thread belongs to a process that exists
      rcases (populated.current isCurrent).process with ⟨_, none⟩ | ⟨_, _, q, below, same⟩
      · rw [belongs] at none
        cases none
      · rw [belongs] at same
        cases same
        exact queued_exit (Nat.lt_of_lt_of_le below grown) (by simp [seen])
    · exact queued.same (by simp [joins, waitedFor]) (by simp [seen, Function.update_of_ne (Ne.symm here)]) grown
  | spawn away =>
    by_cases here : p = k.nextProcess
    · -- the new process takes a number that nobody could wait for
      refine queued.same (by simp [away]) ?_ grown
      have empty := orderly.freshProcesses p (Nat.le_of_eq here.symm)
      have unfinished := queued.fresh (Nat.le_of_eq here.symm)
      have already : k.status p = ⟨false, []⟩ := by rw [← unfinished, ← empty]; rfl
      rw [already, seen, here]
      exact Function.update_self _ _ _
    · exact queued.same (by simp [away]) (by simp [seen, Function.update_of_ne here]) grown

variable {bootCr3 : UInt64} {info : BootInfo} {image : InitImage}

theorem queued_of_run (run : KernelRun bootCr3 info image history k) (p : ProcessRef) : Queued p history k := by
  have initial : Queued p [] (booted bootCr3 info image) := by
    have unused : (booted bootCr3 info image).status p = ⟨false, []⟩ := by
      have first := congrFun ((new bootCr3).status_setProcess 0 .new) p
      by_cases init : p = 0
      · rw [init, Function.update_self] at first
        rw [init]
        exact first
      · rw [Function.update_of_ne init] at first
        exact first
    constructor
    · simp [unused]
    · simp [unused, joiners]
    · simp [unused]
    · simp
  exact run.induct (Queued p) initial fun earlier queued taken =>
    queued.step (orderly_of_run earlier) (populated_of_run earlier) taken

/-- The threads that can run when this one is gone: those queued, then those that waited for its process. -/
def successors (k : Kernel) (current : Thread) : List Tid :=
  k.occupants .runQueue ++ current.processState.elim [] fun p => k.occupants (.waitQueue p)

theorem runQueue_retire (current : Thread) : (k.retire current).occupants .runQueue = k.successors current := by
  unfold retire successors
  cases current.processState with
  | none => simp [occupants, residents, emit]
  | some p => simp [occupants, residents, emit, setProcess]

theorem runnable_exit {current : Thread} (isCurrent : k.scheduler.current = some current) (rax rsp : UInt64) :
    (k.exitCurrentThread rax rsp).occupants .current ++ (k.exitCurrentThread rax rsp).occupants .runQueue =
      k.successors current := by
  rw [← runQueue_retire]
  unfold exitCurrentThread
  rw [isCurrent]
  dsimp only
  split
  next next rest queued =>
    have front : (k.retire current).occupants .runQueue = next.tid :: rest.map Thread.tid := by
      simp [occupants, residents, queued]
    rw [front]
    split
    · rw [unswitched_occupants.resume, occupants_makeCurrent_all]
      simp
    · rw [unswitched_occupants.resume, unswitched_occupants.afterSwitch, occupants_makeCurrent_all]
      simp
  next => simp [retire_free]

structure Unstranded (p : ProcessRef) (history : List (Kernel × Op)) (k : Kernel) : Prop where
  drained : (k.processes p).terminated = true → (k.processes p).waitQueue = []
  kept : ∀ entry ∈ history, (entry.1.processes p).terminated = true → (k.processes p).terminated = true
  released : ∀ op after, k.step op = some after → (k.processes p).terminated = false →
    (after.processes p).terminated = true →
    (∃ rax rsp, op = .exitCurrentThread rax rsp) ∧ k.occupants (.waitQueue p) = joiners p history ∧
    after.occupants .current ++ after.occupants .runQueue = k.occupants .runQueue ++ joiners p history ∧
    ∀ tid ∈ joiners p history, (after.occupants .current ++ after.occupants .runQueue).count tid = 1

theorem exit_of_ends (taken : k.step op = some after)
    (running : (k.status p).terminated = false) (ended : (after.status p).terminated = true) :
    ∃ rax rsp current, op = .exitCurrentThread rax rsp ∧ after = k.exitCurrentThread rax rsp ∧
      k.scheduler.current = some current ∧ current.processState = some p := by
  have moves := statusMoves_of_step taken
  generalize observed : after.registry = registered at moves
  have seen : after.status p = registered.1 p := congrFun (congrArg Prod.fst observed) p
  rw [seen] at ended
  cases moves with
  | unchanged away =>
    rw [registry, running] at ended
    cases ended
  | @wait other current joined isCurrent =>
    by_cases here : p = other
    · simp [here] at ended
    · simp [Function.update_of_ne here, running] at ended
  | @exit other current rax rsp exits isCurrent belongs =>
    subst exits
    obtain ⟨_, rfl⟩ := of_whenRunning taken
    by_cases here : p = other
    · exact ⟨rax, rsp, current, rfl, rfl, isCurrent, here ▸ belongs⟩
    · simp [Function.update_of_ne here, running] at ended
  | spawn away =>
    by_cases here : p = k.nextProcess
    · simp [here] at ended
    · simp [Function.update_of_ne here, running] at ended

/-- Nobody is left in the wait queue of a process that has ended, however waits and exits interleave. -/
theorem unstranded_of_run (run : KernelRun bootCr3 info image history k) (p : ProcessRef) :
    Unstranded p history k := by
  have queued := queued_of_run run p
  constructor
  · intro ended
    exact List.map_eq_nil_iff.mp (queued.drained ended)
  · exact queued.kept
  · intro op after taken running ended
    obtain ⟨rax, rsp, current, rfl, rfl, isCurrent, belongs⟩ := exit_of_ends taken running ended
    have waiting : k.occupants (.waitQueue p) = joiners p history := queued.waiting running
    have runnable := runnable_exit isCurrent rax rsp
    rw [successors, belongs, Option.elim_some, waiting] at runnable
    refine ⟨⟨rax, rsp, rfl⟩, waiting, runnable, ?_⟩
    -- a thread stands in one place only, so a waiter is not in the run queue already
    intro tid member
    obtain ⟨loc, placed, _⟩ := placed_of_run run
    rw [← waiting] at member
    have stands := placed.located.mem_iff.mp member
    rw [runnable, ← waiting, List.count_append, placed.located, placed.located, stands]
    simp

/-- `init` waits for a child; the child exits and `init` runs on. -/
theorem unstranded_child : ∃ history k, KernelRun 0x1000 ⟨none, none, 0⟩ ⟨0x400000, 0x2000, 0x10000⟩ history k ∧
    history.map Prod.snd = [.yieldNow, .dispatch 1, .spawnChild 7 0x400100 0x3000 0x20000, .sysWait 0,
      .dispatch 0x11d00, .exitCurrentThread 0 0] ∧ (k.processes 1).terminated = true ∧ k.occupants .current = [0] ∧
    Unstranded 1 history k := by
  obtain ⟨history, k, run, labels, _, checked⟩ := Base.Run.of_check step (fun _ _ => true)
    (booted 0x1000 ⟨none, none, 0⟩ ⟨0x400000, 0x2000, 0x10000⟩)
    [.yieldNow, .dispatch 1, .spawnChild 7 0x400100 0x3000 0x20000, .sysWait 0, .dispatch 0x11d00,
      .exitCurrentThread 0 0]
    (fun k => (k.processes 1).terminated && k.occupants .current == [0]) (by decide +kernel)
  rw [Bool.and_eq_true, beq_iff_eq] at checked
  exact ⟨history, k, run, labels, checked.1, checked.2, unstranded_of_run run 1⟩

end ElseOS.Kernel
