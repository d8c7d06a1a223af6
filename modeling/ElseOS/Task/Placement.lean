import ElseOS.Base.Placement
import ElseOS.Task.Moves

/-! Threads stand in one place at most, and which step loses one. -/

set_option autoImplicit false

namespace ElseOS

def createdTids (trace : List Event) : List Tid := trace.filterMap fun
  | .created tid _ => some tid
  | _ => none

def exitedTids (trace : List Event) : List Tid := trace.filterMap fun
  | .exited tid => some tid
  | _ => none

namespace Kernel

open Base (Located Shuffles)

/-! ## Occupants after each update -/

section Occupants

variable (k : Kernel)

@[simp] theorem occupants_emit (event : Event) : (k.emit event).occupants = k.occupants := rfl

@[simp] theorem occupants_panic : k.panic.occupants = k.occupants := rfl

@[simp] theorem occupants_writeBuffer (tid : Tid) (msg : Message) :
    (k.writeBuffer tid msg).occupants = k.occupants := rfl

@[simp] theorem occupants_suspend (tid : Tid) (state : SavedThreadState) (resume : Resume) :
    (k.suspend tid state resume).occupants = k.occupants := rfl

@[simp] theorem occupants_setEndpoint (ep : EndpointRef) (state : EndpointState) :
    (k.setEndpoint ep state).occupants =
      Function.update k.occupants (.endpoint ep) (state.threads.map Thread.tid) :=
  k.seen_setEndpoint Thread.tid ep state

@[simp] theorem occupants_setProcess (p : ProcessRef) (state : ProcessState) :
    (k.setProcess p state).occupants =
      Function.update k.occupants (.waitQueue p) (state.waitQueue.map Thread.tid) :=
  k.seen_setProcess Thread.tid p state

@[simp] theorem occupants_setIrqWaiter (irq : UInt8) (waiter : Option Thread) :
    (k.setIrqWaiter irq waiter).occupants =
      Function.update k.occupants (.irq irq) (waiter.toList.map Thread.tid) :=
  k.seen_setIrqWaiter Thread.tid irq waiter

@[simp] theorem occupants_pushBack (thread : Thread) :
    (k.pushBack thread).occupants =
      Function.update k.occupants .runQueue (k.occupants .runQueue ++ [thread.tid]) :=
  k.seen_pushBack Thread.tid thread

@[simp] theorem occupants_block (ptr : StatePtr) (call : BlockingCall) :
    (k.block ptr call).occupants = Function.update k.occupants .current [] :=
  k.seen_block Thread.tid ptr call

@[simp] theorem occupants_makeCurrent_all (next : Thread) (rest : List Thread) :
    (k.makeCurrent next rest).occupants =
      Function.update (Function.update k.occupants .runQueue (rest.map Thread.tid)) .current [next.tid] :=
  k.seen_makeCurrent Thread.tid next rest

end Occupants

variable {k after : Kernel}

theorem occupants_current {current : Thread} (isCurrent : k.scheduler.current = some current) :
    k.occupants .current = [current.tid] := by
  simp [occupants, residents, isCurrent]

theorem occupants_endpoint {ep : EndpointRef} {state : EndpointState} (mode : k.endpoints ep = state) :
    k.occupants (.endpoint ep) = state.threads.map Thread.tid := by
  simp [occupants, residents, mode]

/-! ## What a step does to the places -/

theorem shuffles_block {current : Thread} (target : Place) {entered : List Tid}
    (isCurrent : k.scheduler.current = some current) (elsewhere : target ≠ .current)
    (enters : entered = k.occupants target ++ [current.tid]) :
    Shuffles k.occupants (Function.update (Function.update k.occupants target entered) .current []) := by
  rw [Function.update_comm elsewhere]
  refine Shuffles.transfer current.tid elsewhere.symm ?_ ?_
  · rw [occupants_current isCurrent]
  · rw [enters]
    exact List.perm_append_singleton _ _

theorem shuffles_wake {tid : Tid} {source : Place} {left : List Tid} (waiting : k.occupants source = tid :: left)
    (elsewhere : source ≠ .runQueue) :
    Shuffles k.occupants (Function.update (Function.update k.occupants source left) .runQueue
      (k.occupants .runQueue ++ [tid])) :=
  Shuffles.transfer tid elsewhere (by rw [waiting]) (List.perm_append_singleton _ _)

theorem shuffles_makeCurrent {next : Thread} {rest : List Thread} (queued : k.scheduler.runQueue = next :: rest)
    (free : k.occupants .current = []) : Shuffles k.occupants (k.makeCurrent next rest).occupants := by
  rw [occupants_makeCurrent_all]
  refine Shuffles.transfer next.tid (by simp) ?_ ?_
  · simp [occupants, residents, queued]
  · rw [free]

structure Roll where
  created : List Tid
  exited : List Tid
  nextTid : Tid

def roll (k : Kernel) : Roll := ⟨createdTids k.trace, exitedTids k.trace, k.nextTid⟩

theorem unswitched_roll : Unswitched roll where
  cpu _ _ := rfl
  frames _ _ := rfl
  stateToUpdate _ _ := rfl
  emit k event switch := by cases event <;> first | rfl | cases switch
  writeState k ptr state := by cases ptr <;> rfl

/-- The call assigns an `irq_waiters` slot that holds a waiter, which is dropped. -/
def overwrites (k : Kernel) (op : Op) : Bool :=
  match k.awaiting op with
  | some irq => (k.scheduler.irqWaiters irq).isSome
  | none => false

theorem Quiet.overwrites {op : Op} (quiet : k.Quiet op) : k.overwrites op = false := by
  simp [Kernel.overwrites, quiet.awaiting]

inductive Relocates (k : Kernel) (op : Op) (after : Kernel) : Prop where
  | shuffle : k.overwrites op = false → after.roll = k.roll → Shuffles k.occupants after.occupants →
    Relocates k op after
  | create : k.overwrites op = false → after.roll = ⟨k.nextTid :: k.roll.created, k.roll.exited, k.nextTid + 1⟩ →
      after.occupants = Function.update k.occupants .runQueue (k.occupants .runQueue ++ [k.nextTid]) →
      Relocates k op after
  | exit {tid : Tid} : k.overwrites op = false → after.roll = { k.roll with exited := tid :: k.roll.exited } →
      k.occupants .current = [tid] → Shuffles (Function.update k.occupants .current []) after.occupants →
      Relocates k op after
  | overwrite {irq : UInt8} {tid : Tid} :
      k.overwrites op = true → after.roll = k.roll → k.occupants (.irq irq) = [tid] →
      Shuffles (Function.update k.occupants (.irq irq) []) after.occupants → Relocates k op after

theorem roll_leave (source : Option Tid) (rsp : UInt64) (call : BlockingCall) (finishes : Bool) :
    (k.leave source rsp call finishes).roll = k.roll := by
  cases source <;> rfl

theorem roll_retire (current : Thread) :
    (k.retire current).roll = { k.roll with exited := current.tid :: k.roll.exited } := by
  unfold retire
  cases current.processState <;> rfl

theorem shuffles_retire (current : Thread) :
    Shuffles (Function.update k.occupants .current []) (k.retire current).occupants := by
  unfold retire
  cases current.processState with
  | none =>
    have same : (emit { k with scheduler := { k.scheduler with current := none } } (.exited current.tid)).occupants =
        Function.update k.occupants .current [] := by
      funext place
      cases place <;> simp [occupants, residents, emit]
    rw [same]
    exact Shuffles.refl _
  | some p =>
    have different : Place.waitQueue p ≠ .runQueue := by simp
    convert Shuffles.pour (Function.update k.occupants .current []) different (List.Perm.refl _) using 1
    funext place
    cases place with
    | waitQueue other =>
      by_cases same : other = p
      · subst same
        simp [occupants, residents, emit, setProcess]
      · simp [occupants, residents, emit, setProcess, same]
    | _ => simp [occupants, residents, emit, setProcess]

theorem overwrites_of_sending {op : Op} {call : Thread × EndpointRef × Message} (reached : k.sending op = some call) :
    k.overwrites op = false := by
  obtain ⟨_, _, _, rfl, _⟩ := sending_spec reached
  rfl

theorem overwrites_of_receiving {op : Op} {call : Thread × EndpointRef} (reached : k.receiving op = some call) :
    k.overwrites op = false := by
  obtain ⟨_, _, _, rfl, _⟩ := receiving_spec reached
  rfl

theorem Moves.relocates {op : Op} (moves : k.Moves op after) (orderly : k.Orderly) : k.Relocates op after := by
  have agrees := orderly.cpu
  cases moves with
  | same quiet same =>
    have kept : after.occupants = k.occupants := by
      funext place
      cases place <;>
        simp [occupants, residents, same.current, same.runQueue, same.irqWaiters, same.endpoints, same.waitQueues]
    refine .shuffle quiet.overwrites ?_ (kept ▸ Shuffles.refl _)
    rcases same.trace with trace | ⟨p, tid, trace⟩ | ⟨irq, tid, trace⟩ <;>
      simp [roll, createdTids, exitedTids, trace, same.nextTid]
  | halt quiet => exact .shuffle quiet.overwrites rfl (Shuffles.refl _)
  | create quiet creates =>
    refine .create quiet.overwrites ?_ ?_
    · simp [roll, createdTids, exitedTids, creates.trace, creates.nextTid, creates.tid]
    · funext place
      cases place <;>
        simp [occupants, residents, creates.scheduler, creates.endpoints, creates.waitQueues, Scheduler.addThread,
          creates.tid]
  | yield isCurrent =>
    refine .shuffle rfl rfl ?_
    convert shuffles_block .runQueue isCurrent (by simp) rfl using 1
    funext place
    cases place <;> simp [occupants, residents]
  | bootYield none => exact .shuffle rfl rfl (Shuffles.refl _)
  | deliver reached mode =>
    refine .shuffle (overwrites_of_sending reached) rfl ?_
    have waiting := occupants_endpoint mode
    simpa [Kernel.deliver, EndpointState.threads] using shuffles_wake waiting (by simp)
  | blockSender reached mode =>
    obtain ⟨_, _, _, _, isCurrent, _⟩ := sending_spec reached
    refine .shuffle (overwrites_of_sending reached) rfl ?_
    simp only [Kernel.blockSender, occupants_emit, occupants_block, occupants_setEndpoint]
    refine shuffles_block _ isCurrent (by simp) ?_
    rw [occupants_endpoint rfl, EndpointState.threads_of_senders mode]
    simp [EndpointState.threads]
  | drop reached mode => exact .shuffle (overwrites_of_sending reached) rfl (Shuffles.refl _)
  | take reached mode =>
    refine .shuffle (overwrites_of_receiving reached) rfl ?_
    have waiting := occupants_endpoint mode
    simpa [Kernel.take, EndpointState.threads] using shuffles_wake waiting (by simp)
  | blockReceiver reached mode =>
    obtain ⟨_, _, _, _, isCurrent, _⟩ := receiving_spec reached
    refine .shuffle (overwrites_of_receiving reached) rfl ?_
    simp only [Kernel.blockReceiver, occupants_emit, occupants_block, occupants_setEndpoint, occupants_writeBuffer]
    refine shuffles_block _ isCurrent (by simp) ?_
    rw [occupants_endpoint rfl, EndpointState.threads_of_receivers mode]
    simp [EndpointState.threads]
  | conjure reached mode => exact .shuffle (overwrites_of_receiving reached) rfl (Shuffles.refl _)
  | wait isCurrent inside =>
    refine .shuffle rfl rfl ?_
    simp only [occupants_block, occupants_setProcess, occupants_emit]
    exact shuffles_block _ isCurrent (by simp) (by simp [occupants, residents])
  | @waitIrq _ current irq isCurrent blocks =>
    cases waiter : k.scheduler.irqWaiters irq with
    | none =>
      refine .shuffle (by simp [overwrites, blocks, waiter]) rfl ?_
      simp only [occupants_block, occupants_setIrqWaiter, occupants_emit]
      exact shuffles_block _ isCurrent (by simp) (by simp [occupants, residents, waiter])
    -- `sys_wait_irq` assigns the slot without looking: the thread in it is dropped
    | some lost =>
      have occupied : k.occupants (.irq irq) = [lost.tid] := by simp [occupants, residents, waiter]
      refine .overwrite (by simp [overwrites, blocks, waiter]) rfl occupied ?_
      have moved := shuffles_block (k := k.setIrqWaiter irq none) (.irq irq) isCurrent (by simp) rfl
      simpa using moved
  | @unblock irq thread waiting =>
    refine .shuffle rfl rfl ?_
    have occupied : k.occupants (.irq irq) = [thread.tid] := by simp [occupants, residents, waiting]
    simpa using shuffles_wake occupied (by simp)
  | wake idle => exact .shuffle rfl rfl (Shuffles.refl _)
  | idle dispatching empty => exact .shuffle rfl rfl (Shuffles.refl _)
  | switchCooperative dispatching queued cooperative =>
    rw [dispatching] at agrees
    refine .shuffle rfl ?_ ?_
    · rw [unswitched_roll.resume, roll_leave]
      rfl
    · rw [unswitched_occupants.resume, occupants_leave]
      exact shuffles_makeCurrent queued agrees
  | switchPreemptive dispatching queued preemptive =>
    rw [dispatching] at agrees
    refine .shuffle rfl ?_ ?_
    · rw [unswitched_roll.resume, unswitched_roll.afterSwitch, roll_leave]
      rfl
    · rw [unswitched_occupants.resume, unswitched_occupants.afterSwitch, occupants_leave]
      exact shuffles_makeCurrent queued agrees
  | refuse dispatching queued =>
    rw [dispatching] at agrees
    exact .shuffle rfl rfl (shuffles_makeCurrent queued agrees)
  | exitCooperative isCurrent queued cooperative =>
    refine .exit rfl ?_ (occupants_current isCurrent) ?_
    · rw [unswitched_roll.resume]
      exact roll_retire _
    · rw [unswitched_occupants.resume]
      exact (shuffles_retire _).trans (shuffles_makeCurrent queued (retire_free _))
  | exitPreemptive isCurrent queued preemptive =>
    refine .exit rfl ?_ (occupants_current isCurrent) ?_
    · rw [unswitched_roll.resume, unswitched_roll.afterSwitch]
      exact roll_retire _
    · rw [unswitched_occupants.resume, unswitched_occupants.afterSwitch]
      exact (shuffles_retire _).trans (shuffles_makeCurrent queued (retire_free _))
  | exitLast isCurrent => exact .exit rfl (roll_retire _) (occupants_current isCurrent) (shuffles_retire _)
  | @preempt tid current next rest rsp running isCurrent same queued =>
    refine .shuffle rfl ?_ ?_
    · rw [unswitched_roll.resume]
      rfl
    · rw [unswitched_occupants.resume]
      have left := shuffles_block .runQueue isCurrent (by simp) rfl
      -- the interrupted thread goes to the end of the queue before the first one is taken
      let queue : Kernel := { k with scheduler := { k.scheduler with
        current := none
        runQueue := k.scheduler.runQueue ++ [{ current with state := .preemptive rsp }] } }
      have stood : queue.occupants = Function.update (Function.update k.occupants .runQueue
          (k.occupants .runQueue ++ [current.tid])) .current [] := by
        funext place
        cases place <;> simp [queue, occupants, residents]
      rw [← stood] at left
      exact left.trans (shuffles_makeCurrent (k := queue) queued rfl)
  | leaveIdle idle queued =>
    rw [idle] at agrees
    refine .shuffle rfl ?_ ?_
    · rw [unswitched_roll.resume]
      rfl
    · rw [unswitched_occupants.resume]
      exact shuffles_makeCurrent queued agrees
  | leaveBoot boot queued =>
    rw [boot] at agrees
    refine .shuffle rfl ?_ ?_
    · rw [unswitched_roll.resume]
      rfl
    · rw [unswitched_occupants.resume]
      exact shuffles_makeCurrent queued agrees

/-! ## One place for every living thread -/

/-- Every thread that was created and has not exited stands in exactly one place. -/
def Housed (k : Kernel) : Prop :=
  ∀ tid ∈ createdTids k.trace, tid ∉ exitedTids k.trace →
    ∃ place, (k.occupants place).count tid = 1 ∧ ∀ other, other ≠ place → tid ∉ k.occupants other

structure Placed (k : Kernel) (loc : Tid → Option Place) : Prop where
  located : Located k.occupants loc
  living : ∀ tid, loc tid ≠ none → tid ∈ k.roll.created ∧ tid ∉ k.roll.exited
  created : ∀ tid ∈ k.roll.created, tid < k.nextTid
  exited : ∀ tid ∈ k.roll.exited, tid < k.nextTid

variable {loc moved : Tid → Option Place}

theorem Placed.tid_lt (placed : k.Placed loc) {tid : Tid} {place : Place} (stands : tid ∈ k.occupants place) :
    tid < k.nextTid := by
  refine placed.created tid (placed.living tid ?_).1
  rw [placed.located.mem_iff.mp stands]
  exact Option.some_ne_none place

theorem Placed.tid_lt_current (placed : k.Placed loc) {current : Thread}
    (isCurrent : k.scheduler.current = some current) :
    current.tid < k.nextTid := by
  have stands : current.tid ∈ k.occupants .current := by simp [occupants_current isCurrent]
  exact placed.tid_lt stands

def Lost (k : Kernel) (loc : Tid → Option Place) (tid : Tid) : Prop :=
  tid ∈ k.roll.created ∧ tid ∉ k.roll.exited ∧ loc tid = none

theorem Placed.housed_iff_none_lost (placed : k.Placed loc) : k.Housed ↔ ∀ tid, ¬ k.Lost loc tid := by
  constructor
  · rintro housed tid ⟨created, present, nowhere⟩
    obtain ⟨place, once, _⟩ := housed tid created present
    have stands : loc tid = some place := by
      rw [← placed.located.mem_iff, ← List.count_pos_iff, once]
      exact Nat.one_pos
    rw [nowhere] at stands
    cases stands
  · intro none tid created present
    cases stands : loc tid with
    | none => exact absurd ⟨created, present, stands⟩ (none tid)
    | some place =>
      refine ⟨place, ?_, ?_⟩
      · rw [placed.located tid place, if_pos stands]
      · intro other different member
        have also := placed.located.mem_iff.mp member
        rw [stands] at also
        exact different (Option.some.inj also).symm

theorem Placed.shuffle (placed : k.Placed loc) (same : after.roll = k.roll)
    (shuffles : Shuffles k.occupants after.occupants) :
    ∃ moved, after.Placed moved ∧ ∀ tid, after.Lost moved tid ↔ k.Lost loc tid := by
  obtain ⟨moved, located, standing⟩ := shuffles loc placed.located
  have next : after.nextTid = k.nextTid := congrArg Roll.nextTid same
  refine ⟨moved, ⟨located, ?_, ?_, ?_⟩, ?_⟩
  · intro tid stands
    rw [same]
    exact placed.living tid fun nowhere => stands ((standing tid).mpr nowhere)
  · rw [same, next]
    exact placed.created
  · rw [same, next]
    exact placed.exited
  · intro tid
    rw [Lost, Lost, same, standing]

theorem Placed.create (placed : k.Placed loc)
    (roll : after.roll = ⟨k.nextTid :: k.roll.created, k.roll.exited, k.nextTid + 1⟩)
    (enters : after.occupants = Function.update k.occupants .runQueue (k.occupants .runQueue ++ [k.nextTid])) :
    ∃ moved, after.Placed moved ∧ ∀ tid, after.Lost moved tid ↔ k.Lost loc tid := by
  have next : after.nextTid = k.nextTid + 1 := congrArg Roll.nextTid roll
  have unknown : k.nextTid ∉ k.roll.created := fun member => Nat.lt_irrefl _ (placed.created _ member)
  have present : k.nextTid ∉ k.roll.exited := fun member => Nat.lt_irrefl _ (placed.exited _ member)
  have fresh : loc k.nextTid = none := by
    by_contra stands
    exact unknown (placed.living _ stands).1
  refine ⟨Function.update loc k.nextTid (some .runQueue), ⟨?_, ?_, ?_, ?_⟩, ?_⟩
  · rw [enters]
    exact placed.located.insert fresh (List.perm_append_singleton _ _)
  · intro tid stands
    rw [roll]
    by_cases new : tid = k.nextTid
    · subst new
      exact ⟨List.mem_cons_self, present⟩
    · rw [Function.update_of_ne new] at stands
      exact ⟨List.mem_cons_of_mem _ (placed.living tid stands).1, (placed.living tid stands).2⟩
  · rw [roll, next]
    intro tid member
    rcases List.mem_cons.mp member with rfl | old
    · exact Nat.lt_succ_self _
    · exact Nat.lt_succ_of_lt (placed.created tid old)
  · rw [roll, next]
    exact fun tid member => Nat.lt_succ_of_lt (placed.exited tid member)
  · intro tid
    rw [Lost, Lost, roll]
    by_cases new : tid = k.nextTid
    · subst new
      simp [unknown]
    · simp [new]

theorem Placed.remove (placed : k.Placed loc) {tid : Tid} {source : Place} (stood : k.occupants source = [tid])
    (shuffles : Shuffles (Function.update k.occupants source []) after.occupants) :
    ∃ moved, Located after.occupants moved ∧ ∀ other, moved other = none ↔ loc other = none ∨ other = tid := by
  obtain ⟨moved, located, standing⟩ := shuffles _ (placed.located.remove (by rw [stood]))
  refine ⟨moved, located, ?_⟩
  intro other
  rw [standing]
  by_cases same : other = tid
  · simp [same]
  · simp [same]

theorem Placed.exit (placed : k.Placed loc) {tid : Tid}
    (roll : after.roll = { k.roll with exited := tid :: k.roll.exited }) (stood : k.occupants .current = [tid])
    (shuffles : Shuffles (Function.update k.occupants .current []) after.occupants) :
    ∃ moved, after.Placed moved ∧ ∀ other, after.Lost moved other ↔ k.Lost loc other := by
  obtain ⟨moved, located, standing⟩ := placed.remove stood shuffles
  have next : after.nextTid = k.nextTid := congrArg Roll.nextTid roll
  have stands : loc tid ≠ none := by
    rw [placed.located.mem_iff.mp (by rw [stood]; exact List.mem_singleton.mpr rfl)]
    exact Option.some_ne_none _
  refine ⟨moved, ⟨located, ?_, ?_, ?_⟩, ?_⟩
  · intro other stays
    rw [Ne, standing, not_or] at stays
    rw [roll]
    refine ⟨(placed.living other stays.1).1, ?_⟩
    rw [List.mem_cons, not_or]
    exact ⟨stays.2, (placed.living other stays.1).2⟩
  · rw [roll, next]
    exact placed.created
  · rw [roll, next]
    intro other member
    rcases List.mem_cons.mp member with rfl | old
    · exact placed.created _ (placed.living _ stands).1
    · exact placed.exited other old
  · intro other
    rw [Lost, Lost, roll, standing]
    by_cases same : other = tid
    · subst same
      simp [stands]
    · simp [same]

theorem Placed.overwrite (placed : k.Placed loc) {irq : UInt8} {tid : Tid} (roll : after.roll = k.roll)
    (stood : k.occupants (.irq irq) = [tid])
    (shuffles : Shuffles (Function.update k.occupants (.irq irq) []) after.occupants) :
    ∃ moved, after.Placed moved ∧ after.Lost moved tid ∧ ∀ other, k.Lost loc other → after.Lost moved other := by
  obtain ⟨moved, located, standing⟩ := placed.remove stood shuffles
  have next : after.nextTid = k.nextTid := congrArg Roll.nextTid roll
  have stands : loc tid ≠ none := by
    rw [placed.located.mem_iff.mp (by rw [stood]; exact List.mem_singleton.mpr rfl)]
    exact Option.some_ne_none _
  refine ⟨moved, ⟨located, ?_, ?_, ?_⟩, ?_, ?_⟩
  · intro other stays
    rw [Ne, standing, not_or] at stays
    rw [roll]
    exact placed.living other stays.1
  · rw [roll, next]
    exact placed.created
  · rw [roll, next]
    exact placed.exited
  · rw [Lost, roll, standing]
    exact ⟨(placed.living tid stands).1, (placed.living tid stands).2, .inr rfl⟩
  · rintro other ⟨created, present, nowhere⟩
    rw [Lost, roll, standing]
    exact ⟨created, present, .inl nowhere⟩

/-- A step loses a thread exactly when it overwrites a waiter, and none comes back. -/
theorem Placed.step {op : Op} (placed : k.Placed loc) (relocates : k.Relocates op after) :
    ∃ moved, after.Placed moved ∧
      ((∃ tid, after.Lost moved tid) ↔ (∃ tid, k.Lost loc tid) ∨ k.overwrites op = true) := by
  cases relocates with
  | shuffle harmless same shuffles =>
    obtain ⟨moved, reached, lost⟩ := placed.shuffle same shuffles
    exact ⟨moved, reached, by simp [lost, harmless]⟩
  | create harmless roll enters =>
    obtain ⟨moved, reached, lost⟩ := placed.create roll enters
    exact ⟨moved, reached, by simp [lost, harmless]⟩
  | exit harmless roll stood shuffles =>
    obtain ⟨moved, reached, lost⟩ := placed.exit roll stood shuffles
    exact ⟨moved, reached, by simp [lost, harmless]⟩
  | overwrite harmful roll stood shuffles =>
    obtain ⟨moved, reached, lost, _⟩ := placed.overwrite roll stood shuffles
    exact ⟨moved, reached, iff_of_true ⟨_, lost⟩ (.inr harmful)⟩

theorem placed_booted (bootCr3 : UInt64) (info : BootInfo) (image : InitImage) :
    ∃ loc, (booted bootCr3 info image).Placed loc ∧ ∀ tid, ¬ (booted bootCr3 info image).Lost loc tid := by
  have empty : Located (fun _ : Place => ([] : List Tid)) (fun _ => none) := by
    intro tid place
    rfl
  have first : (booted bootCr3 info image).occupants = Function.update (fun _ => []) .runQueue [0] := by
    funext place
    cases place <;>
      simp [booted, spawnProcess, newUserThread, new, occupants, residents, emit, pushBack, setCSpace, setProcess,
        Scheduler.addThread, Scheduler.new, EndpointState.new, EndpointState.threads, ProcessState.new]
  refine ⟨Function.update (fun _ => none) 0 (some .runQueue), ⟨?_, ?_, ?_, ?_⟩, ?_⟩
  · rw [first]
    exact empty.insert rfl (List.Perm.refl _)
  · intro tid stands
    by_cases new : tid = 0
    · subst new
      exact ⟨List.mem_singleton.mpr rfl, List.not_mem_nil⟩
    · exact absurd (Function.update_of_ne new _ _) stands
  · intro tid member
    rw [List.mem_singleton.mp member]
    exact Nat.one_pos
  · intro tid member
    cases member
  · rintro tid ⟨member, _, nowhere⟩
    rw [List.mem_singleton.mp member] at nowhere
    cases nowhere

theorem placed_of_run {bootCr3 : UInt64} {info : BootInfo} {image : InitImage} {history : List (Kernel × Op)}
    (run : KernelRun bootCr3 info image history k) :
    ∃ loc, k.Placed loc ∧ ((∃ tid, k.Lost loc tid) ↔ ∃ entry ∈ history, entry.1.overwrites entry.2 = true) := by
  refine run.induct (fun past state => ∃ loc, state.Placed loc ∧
    ((∃ tid, state.Lost loc tid) ↔ ∃ entry ∈ past, entry.1.overwrites entry.2 = true)) ?_ ?_
  · obtain ⟨loc, placed, none⟩ := placed_booted bootCr3 info image
    exact ⟨loc, placed, by simp [none]⟩
  · rintro past state op reached earlier ⟨loc, placed, lost⟩ taken
    have orderly := orderly_of_run earlier
    obtain ⟨moved, stands, now⟩ := placed.step ((moves_of_step orderly taken).relocates orderly)
    refine ⟨moved, stands, ?_⟩
    rw [now, lost]
    simp [or_and_right, exists_or]

/-- Every living thread stands in exactly one place in every state of a run, as long as no
`sys_wait_irq` takes a slot that another thread waits in. -/
theorem housed_iff {bootCr3 : UInt64} {info : BootInfo} {image : InitImage} {history : List (Kernel × Op)}
    (run : KernelRun bootCr3 info image history k) :
    k.Housed ↔ ∀ entry ∈ history, entry.1.overwrites entry.2 = false := by
  obtain ⟨loc, placed, lost⟩ := placed_of_run run
  rw [placed.housed_iff_none_lost, ← not_exists, lost]
  simp

/-- `init` and a second thread of its process wait for the keyboard interrupt one after the other. -/
theorem irqWaiter_dropped : ∃ history k, KernelRun 0x1000 ⟨none, none, 0⟩ ⟨0x400000, 0x2000, 0x10000⟩ history k ∧
    history.map Prod.snd = [.yieldNow, .dispatch 1, .spawnThread 0x400100 0x7000 0x20000, .sysWaitIrq 1,
      .dispatch 0x11e00, .sysWaitIrq 1] ∧ ¬ k.Housed := by
  obtain ⟨past, before, run, labels, _, facts⟩ := Base.Run.of_check step (fun _ _ => true)
    (booted 0x1000 ⟨none, none, 0⟩ ⟨0x400000, 0x2000, 0x10000⟩)
    [.yieldNow, .dispatch 1, .spawnThread 0x400100 0x7000 0x20000, .sysWaitIrq 1, .dispatch 0x11e00]
    (fun k => k.overwrites (.sysWaitIrq 1) && (k.step (.sysWaitIrq 1)).isSome) (by decide +kernel)
  rw [Bool.and_eq_true] at facts
  obtain ⟨k, taken⟩ := Option.isSome_iff_exists.mp facts.2
  refine ⟨past ++ [(before, .sysWaitIrq 1)], k, run.next taken, by simp [labels], ?_⟩
  obtain ⟨loc, placed, lost⟩ := placed_of_run (run.next taken)
  rw [placed.housed_iff_none_lost, ← not_exists, not_not, lost]
  exact ⟨(before, .sysWaitIrq 1), by simp, facts.1⟩

/-- One thread waits for the keyboard interrupt while another runs. -/
theorem housed_after_wait : ∃ history k, KernelRun 0x1000 ⟨none, none, 0⟩ ⟨0x400000, 0x2000, 0x10000⟩ history k ∧
    history.map Prod.snd = [.yieldNow, .dispatch 1, .spawnThread 0x400100 0x7000 0x20000, .sysWaitIrq 1,
      .dispatch 0x11e00] ∧ k.Housed := by
  obtain ⟨history, k, run, labels, harmless, _⟩ := Base.Run.of_check step (fun k op => !k.overwrites op)
    (booted 0x1000 ⟨none, none, 0⟩ ⟨0x400000, 0x2000, 0x10000⟩)
    [.yieldNow, .dispatch 1, .spawnThread 0x400100 0x7000 0x20000, .sysWaitIrq 1, .dispatch 0x11e00]
    (fun _ => true) (by decide +kernel)
  exact ⟨history, k, run, labels, (housed_iff run).mpr fun entry member => by simpa using harmless entry member⟩

end Kernel

end ElseOS
