import ElseOS.Task.Moves

/-! What a thread is besides its saved state, and where that comes from.

A step moves threads between places and rewrites their saved states; everything else
about a thread is fixed when it is created. -/

set_option autoImplicit false

namespace ElseOS

def Thread.identity (thread : Thread) : Thread := { thread with state := .cooperative 0 }

theorem Thread.identity_setState (tid : Tid) (state : SavedThreadState) (thread : Thread) :
    (thread.setState tid state).identity = thread.identity := by
  unfold setState
  split <;> rfl

namespace Kernel

def roster (k : Kernel) : Place → List Thread := k.seen Thread.identity

theorem unswitched_roster : Unswitched roster := unswitched_seen Thread.identity Thread.identity_setState

def Descends (before after : Place → List Thread) : Prop :=
  ∀ place, ∀ who ∈ after place, ∃ other, who ∈ before other

/-! ## Who is listed at all -/

def Listed (listed : Place → List Thread) (who : Thread) : Prop := ∃ place, who ∈ listed place

theorem listed_cleared {listed : Place → List Thread} {place : Place} {who : Thread} :
    Listed (Function.update listed place []) who ↔ ∃ other, other ≠ place ∧ who ∈ listed other := by
  constructor
  · rintro ⟨other, member⟩
    by_cases same : other = place
    · subst same
      simp at member
    · rw [Function.update_of_ne same] at member
      exact ⟨other, same, member⟩
  · rintro ⟨other, different, member⟩
    exact ⟨other, by rw [Function.update_of_ne different]; exact member⟩

theorem listed_transfer (moved : List Thread) {listed : Place → List Thread} {source target : Place}
    {left entered : List Thread} {who : Thread} (different : source ≠ target)
    (leave : ∀ who, who ∈ listed source ↔ who ∈ moved ∨ who ∈ left)
    (enter : ∀ who, who ∈ entered ↔ who ∈ listed target ∨ who ∈ moved) :
    Listed (Function.update (Function.update listed source left) target entered) who ↔ Listed listed who := by
  constructor
  · rintro ⟨place, member⟩
    by_cases isTarget : place = target
    · subst isTarget
      rw [Function.update_self, enter] at member
      rcases member with old | new
      · exact ⟨place, old⟩
      · exact ⟨source, (leave who).mpr (.inl new)⟩
    · rw [Function.update_of_ne isTarget] at member
      by_cases isSource : place = source
      · subst isSource
        rw [Function.update_self] at member
        exact ⟨place, (leave who).mpr (.inr member)⟩
      · rw [Function.update_of_ne isSource] at member
        exact ⟨place, member⟩
  · rintro ⟨place, member⟩
    by_cases isTarget : place = target
    · subst isTarget
      exact ⟨place, by rw [Function.update_self]; exact (enter who).mpr (.inl member)⟩
    · by_cases isSource : place = source
      · subst isSource
        rcases (leave who).mp member with goes | stays
        · exact ⟨target, by rw [Function.update_self]; exact (enter who).mpr (.inr goes)⟩
        · exact ⟨place, by rw [Function.update_of_ne isTarget, Function.update_self]; exact stays⟩
      · exact ⟨place, by rw [Function.update_of_ne isTarget, Function.update_of_ne isSource]; exact member⟩

variable {k after : Kernel} {who : Thread}

theorem roster_current {current : Thread} (isCurrent : k.scheduler.current = some current) :
    k.roster .current = [current.identity] := by
  simp [roster, seen, residents, isCurrent]

theorem roster_free (free : k.occupants .current = []) : k.roster .current = [] := by
  rw [roster, seen, List.map_eq_nil_iff.mp free, List.map_nil]

theorem roster_runQueue (k : Kernel) : k.roster .runQueue = k.scheduler.runQueue.map Thread.identity := rfl

theorem roster_endpoint {ep : EndpointRef} {state : EndpointState} (mode : k.endpoints ep = state) :
    k.roster (.endpoint ep) = state.threads.map Thread.identity := by
  simp [roster, seen, residents, mode]

theorem listed_block {current : Thread} (isCurrent : k.scheduler.current = some current) (target : Place)
    (elsewhere : target ≠ .current) (who : Thread) :
    Listed (Function.update (Function.update k.roster target (k.roster target ++ [current.identity])) .current []) who ↔
      Listed k.roster who := by
  rw [Function.update_comm elsewhere]
  apply listed_transfer [current.identity] elsewhere.symm
  · simp [roster_current isCurrent]
  · simp

theorem listed_replace {current : Thread} (isCurrent : k.scheduler.current = some current) (slot : Place)
    (elsewhere : slot ≠ .current) (who : Thread) :
    Listed (Function.update (Function.update k.roster slot [current.identity]) .current []) who ↔
      ∃ place, place ≠ slot ∧ who ∈ k.roster place := by
  have entered : Listed (Function.update (Function.update (Function.update k.roster slot []) .current []) slot
      [current.identity]) who ↔ Listed (Function.update k.roster slot []) who := by
    apply listed_transfer [current.identity] elsewhere.symm
    · simp [Function.update_of_ne elsewhere.symm, roster_current isCurrent]
    · simp
  rw [Function.update_comm elsewhere, Function.update_idem, Function.update_comm elsewhere.symm] at entered
  rw [entered, listed_cleared]

theorem listed_wake {first : Thread} {source : Place} {left : List Thread} (waiting : k.roster source = first :: left)
    (elsewhere : source ≠ .runQueue) :
    Listed (Function.update (Function.update k.roster source left) .runQueue (k.roster .runQueue ++ [first])) who ↔
      Listed k.roster who := by
  apply listed_transfer [first] elsewhere
  · simp [waiting]
  · simp

theorem listed_makeCurrent {next : Thread} {rest : List Thread} (queued : k.scheduler.runQueue = next :: rest)
    (free : k.occupants .current = []) : Listed (k.makeCurrent next rest).roster who ↔ Listed k.roster who := by
  have stood : k.roster .runQueue = next.identity :: rest.map Thread.identity := by simp [roster_runQueue, queued]
  have empty := roster_free free
  unfold roster at stood empty ⊢
  rw [seen_makeCurrent]
  apply listed_transfer [next.identity] (by simp)
  · simp [stood]
  · simp [empty]

theorem listed_retire (current : Thread) :
    Listed (k.retire current).roster who ↔ ∃ place, place ≠ .current ∧ who ∈ k.roster place := by
  rw [← listed_cleared]
  cases process : current.processState with
  | none =>
    have same : (k.retire current).roster = Function.update k.roster .current [] := by
      funext place
      cases place <;> simp [retire, process, roster, seen, residents, emit]
    rw [same]
  | some p =>
    have poured : (k.retire current).roster =
        Function.update (Function.update (Function.update k.roster .current []) (.waitQueue p) []) .runQueue
          (k.roster .runQueue ++ k.roster (.waitQueue p)) := by
      funext place
      cases place with
      | waitQueue other =>
        by_cases same : other = p
        · subst same
          simp [retire, process, roster, seen, residents, emit, setProcess]
        · simp [retire, process, roster, seen, residents, emit, setProcess, same]
      | _ => simp [retire, process, roster, seen, residents, emit, setProcess]
    rw [poured]
    apply listed_transfer (k.roster (.waitQueue p)) (by simp)
    · simp
    · simp

theorem roster_leave (source : Option Tid) (rsp : UInt64) (call : BlockingCall) (finishes : Bool) :
    (k.leave source rsp call finishes).roster = k.roster := by
  cases source <;> rfl

/-- Who is listed after a step. The thread that exits is not, nor is one whose slot an IRQ wait takes. -/
inductive Turnover (k : Kernel) (op : Op) (after : Kernel) : Prop where
  | kept : (∀ rax rsp, op ≠ .exitCurrentThread rax rsp) → k.awaiting op = none →
      (∀ who, Listed after.roster who ↔ Listed k.roster who) → Turnover k op after
  | created {thread : Thread} : (∀ rax rsp, op ≠ .exitCurrentThread rax rsp) → k.awaiting op = none →
      k.Creates after thread → Turnover k op after
  | exited {current : Thread} {rax rsp : UInt64} : op = .exitCurrentThread rax rsp →
      k.scheduler.current = some current →
      (∀ who, Listed after.roster who ↔ ∃ place, place ≠ .current ∧ who ∈ k.roster place) → Turnover k op after
  | replaced {irq : UInt8} : k.awaiting op = some irq →
      (∀ who, Listed after.roster who ↔ ∃ place, place ≠ .irq irq ∧ who ∈ k.roster place) → Turnover k op after

theorem turnover_exit {current : Thread} (isCurrent : k.scheduler.current = some current) (rax rsp : UInt64) :
    k.Turnover (.exitCurrentThread rax rsp) (k.exitCurrentThread rax rsp) := by
  refine .exited rfl isCurrent fun who => ?_
  rw [← listed_retire current]
  unfold exitCurrentThread
  rw [isCurrent]
  dsimp only
  split
  next next rest queued =>
    have moved : Listed ((k.retire current).makeCurrent next rest).roster who ↔ Listed (k.retire current).roster who :=
      listed_makeCurrent queued (retire_free current)
    split
    · rw [unswitched_roster.resume]
      exact moved
    · rw [unswitched_roster.resume, unswitched_roster.afterSwitch]
      exact moved
  next => exact Iff.rfl

/-- A running thread that is not exiting leaves everyone listed, unless it takes the slot of another. -/
theorem Moves.turnover {op : Op} (moves : k.Moves op after) (orderly : k.Orderly)
    (stays : ∀ rax rsp, op ≠ .exitCurrentThread rax rsp) : k.Turnover op after := by
  have agrees := orderly.cpu
  cases moves with
  | same quiet same =>
    refine .kept stays quiet.awaiting fun who => ?_
    have kept : after.roster = k.roster := by
      funext place
      cases place <;>
        simp [roster, seen, residents, same.current, same.runQueue, same.irqWaiters, same.endpoints, same.waitQueues]
    rw [kept]
  | halt quiet => exact .kept stays quiet.awaiting fun _ => Iff.rfl
  | create quiet creates => exact .created stays quiet.awaiting creates
  | yield isCurrent =>
    refine .kept stays rfl fun who => ?_
    rw [← listed_block isCurrent .runQueue (by simp)]
    apply iff_of_eq
    congr 1
    funext place
    cases place <;> simp [roster, seen, residents]
  | bootYield none => exact .kept stays rfl fun _ => Iff.rfl
  | deliver reached mode =>
    obtain ⟨_, _, _, rfl, _⟩ := sending_spec reached
    refine .kept stays rfl fun who => ?_
    rw [← listed_wake (roster_endpoint mode) (by simp)]
    simp [roster, Kernel.deliver, EndpointState.threads]
  | @blockSender _ current ep msg reached mode =>
    obtain ⟨_, _, _, rfl, isCurrent, _⟩ := sending_spec reached
    refine .kept stays rfl fun who => ?_
    rw [← listed_block isCurrent (.endpoint ep) (by simp), roster_endpoint rfl, EndpointState.threads_of_senders mode]
    simp [Kernel.blockSender, roster, EndpointState.threads]
  | drop reached mode =>
    obtain ⟨_, _, _, rfl, _⟩ := sending_spec reached
    exact .kept stays rfl fun _ => Iff.rfl
  | take reached mode =>
    obtain ⟨_, _, _, rfl, _⟩ := receiving_spec reached
    refine .kept stays rfl fun who => ?_
    rw [← listed_wake (roster_endpoint mode) (by simp)]
    simp [roster, Kernel.take, EndpointState.threads]
  | @blockReceiver _ current ep reached mode =>
    obtain ⟨_, _, _, rfl, isCurrent, _⟩ := receiving_spec reached
    refine .kept stays rfl fun who => ?_
    rw [← listed_block isCurrent (.endpoint ep) (by simp), roster_endpoint rfl, EndpointState.threads_of_receivers mode]
    simp [Kernel.blockReceiver, roster, EndpointState.threads]
  | conjure reached mode =>
    obtain ⟨_, _, _, rfl, _⟩ := receiving_spec reached
    exact .kept stays rfl fun _ => Iff.rfl
  | @wait handle current p isCurrent inside =>
    refine .kept stays rfl fun who => ?_
    rw [← listed_block isCurrent (.waitQueue p) (by simp)]
    simp [roster, seen, residents]
  | @waitIrq handle current irq isCurrent blocks =>
    -- whoever stood in the slot is not listed any more
    refine .replaced blocks fun who => ?_
    rw [← listed_replace isCurrent (.irq irq) (by simp)]
    simp [roster]
  | @unblock irq thread waiting =>
    have stood : k.roster (.irq irq) = [thread.identity] := by simp [roster, seen, residents, waiting]
    refine .kept stays rfl fun who => ?_
    rw [← listed_wake stood (by simp)]
    simp [roster]
  | wake idle => exact .kept stays rfl fun _ => Iff.rfl
  | idle dispatching empty => exact .kept stays rfl fun _ => Iff.rfl
  | switchCooperative dispatching queued cooperative =>
    rw [dispatching] at agrees
    refine .kept stays rfl fun who => ?_
    rw [unswitched_roster.resume, roster_leave]
    exact listed_makeCurrent queued agrees
  | switchPreemptive dispatching queued preemptive =>
    rw [dispatching] at agrees
    refine .kept stays rfl fun who => ?_
    rw [unswitched_roster.resume, unswitched_roster.afterSwitch, roster_leave]
    exact listed_makeCurrent queued agrees
  | refuse dispatching queued =>
    rw [dispatching] at agrees
    exact .kept stays rfl fun who => listed_makeCurrent queued agrees
  | exitCooperative => exact absurd rfl (stays _ _)
  | exitPreemptive => exact absurd rfl (stays _ _)
  | exitLast => exact absurd rfl (stays _ _)
  | @preempt tid current next rest rsp running isCurrent same queued =>
    refine .kept stays rfl fun who => ?_
    rw [unswitched_roster.resume]
    let queue : Kernel := { k with scheduler := { k.scheduler with
      current := none
      runQueue := k.scheduler.runQueue ++ [{ current with state := .preemptive rsp }] } }
    have stood : queue.roster = Function.update (Function.update k.roster .runQueue
        (k.roster .runQueue ++ [current.identity])) .current [] := by
      funext place
      cases place <;> simp [queue, roster, seen, residents, Thread.identity]
    rw [← listed_block isCurrent .runQueue (by simp), ← stood]
    exact listed_makeCurrent (k := queue) queued rfl
  | leaveIdle idle queued =>
    rw [idle] at agrees
    refine .kept stays rfl fun who => ?_
    rw [unswitched_roster.resume]
    exact listed_makeCurrent queued agrees
  | leaveBoot boot queued =>
    rw [boot] at agrees
    refine .kept stays rfl fun who => ?_
    rw [unswitched_roster.resume]
    exact listed_makeCurrent queued agrees

theorem turnover_of_step {op : Op} (orderly : k.Orderly) (taken : k.step op = some after) : k.Turnover op after := by
  by_cases exits : ∃ rax rsp, op = .exitCurrentThread rax rsp
  · obtain ⟨rax, rsp, rfl⟩ := exits
    obtain ⟨running, rfl⟩ := of_whenRunning taken
    obtain ⟨tid, isRunning⟩ := Cpu.running_of_isRunning running
    obtain ⟨current, isCurrent, _⟩ := orderly.running isRunning
    exact turnover_exit isCurrent rax rsp
  · exact (moves_of_step orderly taken).turnover orderly fun rax rsp same => exits ⟨rax, rsp, same⟩

theorem descends_of_step {op : Op} (orderly : k.Orderly) (taken : k.step op = some after) :
    Descends k.roster after.roster ∨ ∃ thread, k.Creates after thread := by
  have descends (listed : ∀ who, Listed after.roster who → Listed k.roster who) : Descends k.roster after.roster :=
    fun place who member => listed who ⟨place, member⟩
  cases turnover_of_step orderly taken with
  | kept _ _ same => exact .inl (descends fun who => (same who).mp)
  | created _ _ creates => exact .inr ⟨_, creates⟩
  | exited _ _ rest =>
    refine .inl (descends fun who listed => ?_)
    obtain ⟨place, _, member⟩ := (rest who).mp listed
    exact ⟨place, member⟩
  | replaced _ rest =>
    refine .inl (descends fun who listed => ?_)
    obtain ⟨place, _, member⟩ := (rest who).mp listed
    exact ⟨place, member⟩

theorem listed_create {thread who : Thread} (creates : k.Creates after thread) :
    Listed after.roster who ↔ Listed k.roster who ∨ who = thread.identity := by
  have grown : after.roster = Function.update k.roster .runQueue (k.roster .runQueue ++ [thread.identity]) := by
    funext place
    cases place <;>
      simp [roster, seen, residents, creates.scheduler, creates.endpoints, creates.waitQueues, Scheduler.addThread]
  rw [grown]
  constructor
  · rintro ⟨place, member⟩
    by_cases queue : place = .runQueue
    · subst queue
      rw [Function.update_self, List.mem_append, List.mem_singleton] at member
      exact member.imp (fun old => ⟨.runQueue, old⟩) id
    · rw [Function.update_of_ne queue] at member
      exact .inl ⟨place, member⟩
  · rintro (⟨place, member⟩ | rfl)
    · by_cases queue : place = .runQueue
      · subst queue
        exact ⟨.runQueue, by simp [member]⟩
      · exact ⟨place, by rw [Function.update_of_ne queue]; exact member⟩
    · exact ⟨.runQueue, by simp⟩

/-! ## Spaces and processes of threads -/

/-- The thread has a space that exists; a user thread has a page table and a process that exists, a kernel
thread has neither. -/
structure Native (k : Kernel) (who : Thread) : Prop where
  cspace : ∃ cs < k.nextCSpace, who.cspace = some cs
  process : (who.cr3 = none ∧ who.processState = none) ∨
    ∃ cr3, who.cr3 = some cr3 ∧ ∃ p < k.nextProcess, who.processState = some p

theorem Native.mono {who : Thread} (native : k.Native who) (spaces : k.nextCSpace ≤ after.nextCSpace)
    (processes : k.nextProcess ≤ after.nextProcess) : after.Native who := by
  obtain ⟨⟨cs, bound, has⟩, process⟩ := native
  refine ⟨⟨cs, Nat.lt_of_lt_of_le bound spaces, has⟩, ?_⟩
  rcases process with none | ⟨cr3, table, p, below, belongs⟩
  · exact .inl none
  · exact .inr ⟨cr3, table, p, Nat.lt_of_lt_of_le below processes, belongs⟩

def Populated (k : Kernel) : Prop := ∀ place, ∀ who ∈ k.roster place, k.Native who

theorem Populated.current (populated : k.Populated) {current : Thread}
    (isCurrent : k.scheduler.current = some current) :
    k.Native current := by
  have native := populated .current current.identity (by simp [roster_current isCurrent])
  exact ⟨native.cspace, native.process⟩

theorem native_of_lineage {thread : Thread} (populated : k.Populated) (lineage : k.Lineage after thread) :
    after.Native thread := by
  cases lineage with
  | kernel noTable space noProcess spaces processes =>
    exact ⟨⟨k.nextCSpace, spaces ▸ Nat.lt_succ_self _, space⟩, .inl ⟨noTable, noProcess⟩⟩
  | child table space process spaces processes =>
    exact ⟨⟨k.nextCSpace, spaces ▸ Nat.lt_succ_self _, space⟩,
      .inr ⟨_, table, k.nextProcess, processes ▸ Nat.lt_succ_self _, process⟩⟩
  | @sibling current cr3 cs p isCurrent _ currentSpace currentProcess table space process spaces processes =>
    have native := populated.current isCurrent
    obtain ⟨_, bound, has⟩ := native.cspace
    rw [currentSpace] at has
    cases has
    refine ⟨⟨cs, spaces ▸ bound, space⟩, .inr ⟨_, table, ?_⟩⟩
    rcases native.process with ⟨_, none⟩ | ⟨_, _, _, below, belongs⟩
    · rw [currentProcess] at none
      cases none
    · rw [currentProcess] at belongs
      cases belongs
      exact ⟨p, processes ▸ below, process⟩

theorem Populated.step {op : Op} (populated : k.Populated) (orderly : k.Orderly) (taken : k.step op = some after) :
    after.Populated := by
  obtain ⟨_, processes, spaces⟩ := counters_of_grants (grants_of_step taken)
  intro place who member
  rcases descends_of_step orderly taken with descends | ⟨thread, creates⟩
  · obtain ⟨other, stood⟩ := descends place who member
    exact (populated other who stood).mono spaces processes
  · rcases (listed_create creates).mp ⟨place, member⟩ with ⟨other, stood⟩ | rfl
    · exact (populated other who stood).mono spaces processes
    · have native := native_of_lineage populated creates.lineage
      exact ⟨native.cspace, native.process⟩

variable {bootCr3 : UInt64} {info : BootInfo} {image : InitImage} {history : List (Kernel × Op)}

theorem init_of_booted {place : Place} (member : who ∈ (booted bootCr3 info image).roster place) :
    who.cspace = some 0 ∧ who.cr3 = some image.cr3 ∧ who.processState = some 0 := by
  cases place <;>
    simp [booted, spawnProcess, newUserThread, new, roster, seen, residents, emit, pushBack, setCSpace, setProcess,
      Scheduler.addThread, Scheduler.new, EndpointState.new, EndpointState.threads, ProcessState.new] at member
  rw [member]
  exact ⟨rfl, rfl, rfl⟩

theorem populated_booted (bootCr3 : UInt64) (info : BootInfo) (image : InitImage) :
    (booted bootCr3 info image).Populated := by
  intro place who member
  obtain ⟨space, table, process⟩ := init_of_booted member
  exact ⟨⟨0, Nat.one_pos, space⟩, .inr ⟨image.cr3, table, 0, Nat.one_pos, process⟩⟩

theorem populated_of_run (run : KernelRun bootCr3 info image history k) : k.Populated :=
  run.induct (fun _ k => k.Populated) (populated_booted bootCr3 info image)
    fun earlier populated taken => populated.step (orderly_of_run earlier) taken

theorem Populated.caller_lt (populated : k.Populated) {cs : CSpaceRef} (isCaller : k.caller = some cs) :
    cs < k.nextCSpace := by
  obtain ⟨current, isCurrent, has⟩ := Option.bind_eq_some_iff.mp isCaller
  obtain ⟨space, bound, same⟩ := (populated.current isCurrent).cspace
  rw [has] at same
  cases same
  exact bound

theorem Populated.lookup_running (populated : k.Populated) (orderly : k.Orderly) (running : k.cpu.isRunning = true)
    (handle : UInt64) :
    ∃ current cs, k.scheduler.current = some current ∧
      k.lookup handle = some (current, cs, (k.cspaces cs).get handle.toNat) := by
  obtain ⟨tid, isRunning⟩ := Cpu.running_of_isRunning running
  obtain ⟨current, isCurrent, _⟩ := orderly.running isRunning
  obtain ⟨cs, _, has⟩ := (populated.current isCurrent).cspace
  exact ⟨current, cs, isCurrent, by simp [lookup, isCurrent, has]⟩

/-! ## Page tables of threads -/

theorem Creates.unique {thread other : Thread} (creates : k.Creates after thread) (also : k.Creates after other) :
    thread = other := by
  have same : k.scheduler.addThread thread = k.scheduler.addThread other := creates.scheduler.symm.trans also.scheduler
  simpa [Scheduler.addThread] using congrArg Scheduler.runQueue same

/-- A thread's page table is that of a thread that was there before, unless the step makes a
process or a kernel thread. -/
theorem cr3_of_step {op : Op} (orderly : k.Orderly) (taken : k.step op = some after)
    (listed : Listed after.roster who) :
    (∃ other, Listed k.roster other ∧ other.cr3 = who.cr3) ∨
    (∃ epHandle entryPoint cr3 stackBase, op = .spawnChild epHandle entryPoint cr3 stackBase ∧ who.cr3 = some cr3) ∨
    ∃ entryPoint stackBase, op = .newKernelThread entryPoint stackBase := by
  rcases descends_of_step orderly taken with descends | ⟨thread, creates⟩
  · obtain ⟨place, member⟩ := listed
    obtain ⟨other, stood⟩ := descends place who member
    exact .inl ⟨who, ⟨other, stood⟩, rfl⟩
  · rcases (listed_create creates).mp listed with old | rfl
    · exact .inl ⟨who, old, rfl⟩
    · -- the counters tell which operation made the thread
      have granted := grants_of_step taken
      generalize counted : after.objects = objects at granted
      have spaces : objects.nextCSpace = after.nextCSpace := counted ▸ rfl
      have processes : objects.nextProcess = after.nextProcess := counted ▸ rfl
      cases creates.lineage with
      | sibling isCurrent currentTable _ _ table =>
        refine .inl ⟨_, ⟨.current, by rw [roster_current isCurrent]; exact List.mem_singleton_self _⟩, ?_⟩
        exact currentTable.trans table.symm
      | kernel _ _ _ moreSpaces sameProcesses =>
        cases granted with
        | kernelThread => exact .inr (.inr ⟨_, _, rfl⟩)
        | _ => simp [objects, moreSpaces, sameProcesses] at spaces processes
      | child _ _ _ _ moreProcesses =>
        cases granted with
        | @child cs epHandle entryPoint cr3 stackBase isCaller =>
          refine .inr (.inl ⟨epHandle, entryPoint, cr3, stackBase, rfl, ?_⟩)
          obtain ⟨_, rfl⟩ := of_whenRunning taken
          cases found : k.lookup epHandle with
          | none =>
            have count := creates.nextTid
            simp [spawnChild, found, panic] at count
          | some caller =>
            obtain ⟨child, also, _, table⟩ := creates_spawnChild orderly entryPoint cr3 stackBase found
            rw [creates.unique also]
            exact table
        | _ => simp [objects, moreProcesses] at processes

end Kernel

end ElseOS
