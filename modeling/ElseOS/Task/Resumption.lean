import ElseOS.Task.Placement

/-! Where a thread continues when it is switched to.

A thread's record is brought up to date late: `after_switch` writes it through
`STATE_TO_UPDATE` once the next thread runs. `Synced` says which records agree with the
frames the threads left, and what the pending write will repair. Three things the scheduler
can do break it; `switchSafe` excludes them. -/

set_option autoImplicit false

namespace ElseOS

/-- The state recorded when the thread last stopped, or its first one. -/
def lastStop (tid : Tid) : List Event → Option SavedThreadState
  | [] => none
  | .created other state :: rest => if other = tid then some state else lastStop tid rest
  | .suspended other state :: rest => if other = tid then some state else lastStop tid rest
  | _ :: rest => lastStop tid rest

def lastLeft : List Event → Option Tid
  | [] => none
  | .suspended tid _ :: _ => some tid
  | .exited _ :: _ => none
  | _ :: rest => lastLeft rest

/-- Every switch used the state of the thread's last stop, and every `after_switch` wrote into
the thread the CPU had just left. -/
def Faithful : List Event → Prop
  | [] => True
  | .dispatched tid state :: rest => lastStop tid rest = some state ∧ Faithful rest
  | .stateWritten tid _ :: rest => lastLeft rest = some tid ∧ Faithful rest
  | _ :: rest => Faithful rest

instance decidableFaithful : DecidablePred Faithful
  | [] => .isTrue trivial
  | .dispatched tid state :: rest =>
    have := decidableFaithful rest
    inferInstanceAs (Decidable (lastStop tid rest = some state ∧ Faithful rest))
  | .stateWritten tid _ :: rest =>
    have := decidableFaithful rest
    inferInstanceAs (Decidable (lastLeft rest = some tid ∧ Faithful rest))
  | .created _ _ :: rest | .exited _ :: rest | .suspended _ _ :: rest | .sent _ _ _ :: rest
  | .senderBlocked _ _ _ :: rest | .sendCompleted _ _ _ :: rest | .receiving _ _ :: rest
  | .receiverBlocked _ _ :: rest | .delivered _ _ _ _ :: rest | .taken _ _ _ _ :: rest | .received _ _ _ :: rest
  | .waited _ _ :: rest | .irqWaited _ _ :: rest => decidableFaithful rest

def SavedThreadState.isPreemptive : SavedThreadState → Bool
  | .preemptive _ => true
  | .cooperative _ => false

def Event.aside : Event → Bool
  | .created _ _ | .exited _ | .suspended _ _ | .dispatched _ _ | .stateWritten _ _ => false
  | _ => true

/-- Threads that are not on the stack the CPU uses. A CPU that stopped uses none we know. -/
def Cpu.Away : Cpu → Tid → Prop
  | .boot, _ | .dispatching none _, _ => True
  | .running tid, other | .dispatching (some tid) _, other | .idle tid _, other => other ≠ tid
  | .halted, _ | .astray _, _ => False

namespace Kernel

open Base (Located)

structure Story where
  lastStop : Tid → Option SavedThreadState
  lastLeft : Option Tid
  faithful : Prop

def story (k : Kernel) : Story := ⟨fun tid => lastStop tid k.trace, lastLeft k.trace, Faithful k.trace⟩

structure Stopped (k : Kernel) (tid : Tid) (state : SavedThreadState) : Prop where
  frame : ∃ resume, k.frames tid = some (state, resume)
  last : k.story.lastStop tid = some state

def Pointed (k : Kernel) : Prop :=
  match k.cpu with
  | .boot | .running _ | .dispatching none _ => k.stateToUpdate = none
  | .dispatching (some tid) _ | .idle tid _ =>
    tid < k.nextTid ∧ ∃ ptr, k.stateToUpdate = some ptr ∧ ptr.tid = tid ∧
      ∀ place, tid ∈ k.occupants place → ptr.reaches place = true
  | .halted | .astray _ => True

structure Synced (k : Kernel) : Prop where
  stopped : ∀ {place thread}, thread ∈ k.residents place → k.cpu.Away thread.tid → k.Stopped thread.tid thread.state
  pointed : k.Pointed
  faithful : Faithful k.trace

/-- The front of the run queue can be switched to from the source's suspending call: it is another
thread, and unless it was preempted it continues in code that calls `after_switch`. -/
def switchesTo (k : Kernel) (source : Tid) (next : Thread) : Bool :=
  next.tid != source && (next.state.isPreemptive || (k.frames next.tid).any fun frame => frame.2.finishesSwitch)

/-- The timer finds no idle loop with a thread to run, and every suspending call switches to a
thread that is fit for it. -/
def switchSafe (k : Kernel) (op : Op) : Bool :=
  match op, k.cpu, k.scheduler.runQueue with
  | .timerTick _, .idle _ _, _ :: _ => false
  | .dispatch _, .dispatching (some source) _, next :: _ => k.switchesTo source next
  | _, _, _ => true

variable {k after : Kernel} {loc : Tid → Option Place}

theorem story_emit (k : Kernel) {event : Event} (aside : event.aside = true) : (k.emit event).story = k.story := by
  cases event <;> first | rfl | cases aside

theorem Stopped.congr {tid : Tid} {state : SavedThreadState} (stopped : k.Stopped tid state)
    (frames : after.frames tid = k.frames tid) (last : after.story.lastStop tid = k.story.lastStop tid) :
    after.Stopped tid state :=
  ⟨by rw [frames]; exact stopped.frame, by rw [last]; exact stopped.last⟩

/-! ## Finishing a switch -/

def due (k : Kernel) (rsp : UInt64) (place : Place) (thread : Thread) : SavedThreadState :=
  match k.stateToUpdate with
  | some ptr => if ptr.reaches place = true ∧ thread.tid = ptr.tid then .cooperative rsp else thread.state
  | none => thread.state

theorem due_none (idle : k.stateToUpdate = none) (rsp : UInt64) (place : Place) (thread : Thread) :
    k.due rsp place thread = thread.state := by
  simp [due, idle]

theorem due_other {ptr : StatePtr} (pending : k.stateToUpdate = some ptr) (rsp : UInt64) (place : Place)
    {thread : Thread} (other : thread.tid ≠ ptr.tid) : k.due rsp place thread = thread.state := by
  simp [due, pending, other]

theorem mem_residents_afterSwitch {rsp : UInt64} {place : Place} {thread : Thread}
    (member : thread ∈ (k.afterSwitch rsp).residents place) :
    ∃ earlier ∈ k.residents place, thread.tid = earlier.tid ∧ thread.state = k.due rsp place earlier := by
  cases pending : k.stateToUpdate with
  | none =>
    simp only [afterSwitch, pending] at member
    exact ⟨thread, member, rfl, by simp [due, pending]⟩
  | some ptr =>
    have written : (k.afterSwitch rsp).residents = (k.writeState ptr (.cooperative rsp)).residents := by
      simp only [afterSwitch, pending]
      rfl
    rw [written, residents_writeState] at member
    by_cases reached : ptr.reaches place = true
    · rw [if_pos reached] at member
      obtain ⟨earlier, before, rfl⟩ := List.mem_map.mp member
      refine ⟨earlier, before, Thread.setState_tid _ _ _, ?_⟩
      by_cases same : earlier.tid = ptr.tid
      · simp [due, pending, reached, same, Thread.setState]
      · simp [due, pending, same, Thread.setState]
    · rw [if_neg reached] at member
      exact ⟨thread, member, rfl, by simp [due, pending, reached]⟩

theorem stateToUpdate_afterSwitch (rsp : UInt64) : (k.afterSwitch rsp).stateToUpdate = none := by
  cases pending : k.stateToUpdate <;> simp [afterSwitch, pending]

theorem story_afterSwitch (k : Kernel) (rsp : UInt64) : (k.afterSwitch rsp).story =
    { k.story with faithful := (∀ ptr, k.stateToUpdate = some ptr → k.story.lastLeft = some ptr.tid) ∧
      k.story.faithful } := by
  cases pending : k.stateToUpdate with
  | none => simp [afterSwitch, pending, story]
  | some ptr => simp [afterSwitch, pending, story, emit, lastStop, lastLeft, Faithful, trace_writeState]

structure Ready (k : Kernel) (rsp : UInt64) (next : Thread) : Prop where
  isCurrent : next ∈ k.residents .current
  recorded : ∀ {place thread}, thread ∈ k.residents place → k.Stopped thread.tid (k.due rsp place thread)
  pending : ∀ ptr, k.stateToUpdate = some ptr → next.tid ≠ ptr.tid ∧ k.story.lastLeft = some ptr.tid
  faithful : Faithful k.trace

theorem Ready.stopped {rsp : UInt64} {next : Thread} (ready : k.Ready rsp next) : k.Stopped next.tid next.state := by
  have stopped := ready.recorded ready.isCurrent
  cases update : k.stateToUpdate with
  | none => rwa [due_none update] at stopped
  | some ptr => rwa [due_other update rsp .current (ready.pending ptr update).1] at stopped

theorem continueAt_finished (k : Kernel) (tid : Tid) {resume : Resume} (rax : UInt64)
    (finishes : k.stateToUpdate = none ∨ resume.finishesSwitch = true) :
    (k.continueAt tid resume rax).residents = (k.afterSwitch rax).residents ∧
    (k.continueAt tid resume rax).story = (k.afterSwitch rax).story ∧
    (k.continueAt tid resume rax).stateToUpdate = none ∧ (k.continueAt tid resume rax).cpu = .running tid := by
  have finished : (if resume.finishesSwitch then k.afterSwitch rax else k) = k.afterSwitch rax := by
    rcases finishes with none | finishes
    · simp [afterSwitch, none]
    · simp [finishes]
  unfold continueAt
  rw [finished]
  cases resume.receivesFrom with
  | none => exact ⟨rfl, rfl, stateToUpdate_afterSwitch rax, rfl⟩
  | some ep => exact ⟨rfl, story_emit _ rfl, stateToUpdate_afterSwitch rax, rfl⟩

theorem Ready.resume {rax : UInt64} {next : Thread} (ready : k.Ready rax next)
    (finishes : k.stateToUpdate = none ∨ (k.frames next.tid).any (fun frame => frame.2.finishesSwitch) = true) :
    (k.resume next.tid next.state rax).Synced := by
  obtain ⟨⟨resume, frame⟩, last⟩ := ready.stopped
  rcases k.resume_cases next.tid next.state rax with ⟨missing, _⟩ | ⟨found, here, resumed⟩
  · exact absurd frame (missing resume)
  · rw [resumed]
    rw [here] at frame
    cases frame
    let started : Kernel := { k.emit (.dispatched next.tid next.state) with
      frames := Function.update k.frames next.tid none }
    have finishes : started.stateToUpdate = none ∨ resume.finishesSwitch = true := by
      rw [here, Option.any_some] at finishes
      exact finishes
    obtain ⟨residents, story, stateToUpdate, cpu⟩ := started.continueAt_finished next.tid rax finishes
    have told : started.story = { k.story with faithful := k.story.lastStop next.tid = some next.state ∧
      k.story.faithful } :=
      rfl
    have lastStop : (started.continueAt next.tid resume rax).story.lastStop = k.story.lastStop := by
      rw [story, story_afterSwitch, told]
    refine ⟨?_, ?_, ?_⟩
    · intro place thread member away
      rw [cpu] at away
      rw [residents] at member
      obtain ⟨earlier, before, sameTid, state⟩ := mem_residents_afterSwitch member
      rw [sameTid] at away
      rw [sameTid, state]
      refine (ready.recorded before).congr ?_ (congrFun lastStop _)
      rw [frames_continueAt]
      exact Function.update_of_ne away _ _
    · rw [Pointed, cpu]
      exact stateToUpdate
    · have faithful : (started.continueAt next.tid resume rax).story.faithful := by
        rw [story, story_afterSwitch, told]
        exact ⟨fun ptr update => (ready.pending ptr update).2, last, ready.faithful⟩
      exact faithful

theorem Ready.afterSwitch {rsp : UInt64} {next : Thread} (ready : k.Ready rsp next) (rax : UInt64) :
    (k.afterSwitch rsp).Ready rax next where
  isCurrent := by
    cases update : k.stateToUpdate with
    | none =>
      simp only [Kernel.afterSwitch, update]
      exact ready.isCurrent
    | some ptr =>
      have written : (k.afterSwitch rsp).residents = (k.writeState ptr (.cooperative rsp)).residents := by
        simp only [Kernel.afterSwitch, update]
        rfl
      rw [written, residents_writeState]
      split
      · rw [← Thread.setState_other (ready.pending ptr update).1]
        exact List.mem_map_of_mem ready.isCurrent
      · exact ready.isCurrent
  recorded := by
    intro place thread member
    obtain ⟨earlier, before, sameTid, state⟩ := mem_residents_afterSwitch member
    rw [due_none (stateToUpdate_afterSwitch rsp), sameTid, state]
    refine (ready.recorded before).congr (by rw [frames_afterSwitch]) ?_
    rw [story_afterSwitch]
  pending := by
    intro ptr update
    rw [stateToUpdate_afterSwitch] at update
    cases update
  faithful := by
    have told : (k.afterSwitch rsp).story.faithful := by
      rw [story_afterSwitch]
      exact ⟨fun ptr update => (ready.pending ptr update).2, ready.faithful⟩
    exact told

theorem mem_residents_makeCurrent {next : Thread} {rest : List Thread} {place : Place} {thread : Thread}
    (queued : k.scheduler.runQueue = next :: rest) (member : thread ∈ (k.makeCurrent next rest).residents place) :
    thread = next ∧ place = .current ∨ thread ∈ k.residents place := by
  rw [residents_makeCurrent] at member
  by_cases current : place = .current
  · subst current
    rw [Function.update_self, List.mem_singleton] at member
    exact .inl ⟨member, rfl⟩
  · rw [Function.update_of_ne current] at member
    by_cases front : place = .runQueue
    · subst front
      rw [Function.update_self] at member
      exact .inr (by simp [residents, queued, member])
    · rw [Function.update_of_ne front] at member
      exact .inr member

theorem ready_makeCurrent {next : Thread} {rest : List Thread} (queued : k.scheduler.runQueue = next :: rest)
    (stopped : ∀ {place thread}, thread ∈ k.residents place → k.Stopped thread.tid thread.state)
    (idle : k.stateToUpdate = none) (faithful : Faithful k.trace) (rsp : UInt64) :
    (k.makeCurrent next rest).Ready rsp next where
  isCurrent := by simp
  recorded := by
    intro place thread member
    have unchanged : (k.makeCurrent next rest).due rsp place thread = thread.state := due_none idle rsp place thread
    rw [unchanged]
    have front : next ∈ k.residents .runQueue := by simp [residents, queued]
    rcases mem_residents_makeCurrent queued member with ⟨rfl, _⟩ | stayed
    · exact (stopped front).congr rfl rfl
    · exact (stopped stayed).congr rfl rfl
  pending := by
    intro ptr update
    have none : k.stateToUpdate = some ptr := update
    rw [idle] at none
    cases none
  faithful := faithful

theorem ready_leave {source : Tid} {call : BlockingCall} {next : Thread} {rest : List Thread} (synced : k.Synced)
    (dispatching : k.cpu = .dispatching (some source) call) (queued : k.scheduler.runQueue = next :: rest)
    (apart : next.tid ≠ source) (rsp : UInt64) (finishes : Bool) :
    ((k.makeCurrent next rest).leave (some source) rsp call finishes).Ready rsp next := by
  have pointed := synced.pointed
  rw [Pointed, dispatching] at pointed
  obtain ⟨_, ptr, update, owner, reaches⟩ := pointed
  have away : ∀ {place thread}, thread ∈ k.residents place → thread.tid ≠ source →
    k.Stopped thread.tid thread.state := by
    intro place thread member other
    refine synced.stopped member ?_
    rw [dispatching]
    exact other
  have front : next ∈ k.residents .runQueue := by simp [residents, queued]
  refine ⟨by simp [leave], ?_, ?_, synced.faithful⟩
  · intro place thread member
    have moved := mem_residents_makeCurrent queued member
    by_cases self : thread.tid = source
    · -- the record of the caller is the one the pending write repairs
      have stands : source ∈ k.occupants place := by
        rcases moved with ⟨rfl, _⟩ | stayed
        · exact absurd self apart
        · exact self ▸ List.mem_map_of_mem stayed
      have written : due ((k.makeCurrent next rest).leave (some source) rsp call finishes) rsp place thread =
          .cooperative rsp := by
        simp [due, leave, suspend, emit, makeCurrent, prepareThreadSwitch, update, reaches place stands, owner, self]
      rw [written, self]
      exact ⟨⟨_, Function.update_self _ _ _⟩, by simp [story, leave, suspend, emit, lastStop]⟩
    · have unchanged : due ((k.makeCurrent next rest).leave (some source) rsp call finishes) rsp place thread =
          thread.state := due_other update rsp place (owner ▸ self)
      rw [unchanged]
      have stopped : k.Stopped thread.tid thread.state := by
        rcases moved with ⟨rfl, _⟩ | stayed
        · exact away front self
        · exact away stayed self
      refine stopped.congr (Function.update_of_ne self _ _) ?_
      have other : source ≠ thread.tid := fun same => self same.symm
      simp [story, leave, suspend, emit, lastStop, other, makeCurrent, prepareThreadSwitch]
  · intro other pending
    have same : some ptr = some other := update.symm.trans pending
    cases same
    rw [owner]
    exact ⟨apart, rfl⟩

theorem tid_ne_current {current thread : Thread} {place : Place} (located : Located k.occupants loc)
    (isCurrent : k.scheduler.current = some current) (elsewhere : place ≠ .current)
    (member : thread ∈ k.residents place) : thread.tid ≠ current.tid := by
  intro same
  have here : current.tid ∈ k.occupants .current := by simp [occupants_current isCurrent]
  have there : current.tid ∈ k.occupants place := same ▸ List.mem_map_of_mem member
  exact elsewhere (located.place_unique there here)

theorem mem_residents_retire {current : Thread} {place : Place} {thread : Thread}
    (member : thread ∈ (k.retire current).residents place) :
    ∃ origin, origin ≠ .current ∧ thread ∈ k.residents origin := by
  unfold retire at member
  cases state : current.processState with
  | none =>
    simp only [state] at member
    cases place with
    | current => cases member
    | runQueue => exact ⟨.runQueue, by simp, member⟩
    | endpoint ep => exact ⟨.endpoint ep, by simp, member⟩
    | irq irq => exact ⟨.irq irq, by simp, member⟩
    | waitQueue p => exact ⟨.waitQueue p, by simp, member⟩
  | some p =>
    simp only [state] at member
    cases place with
    | current => cases member
    | runQueue =>
      rcases List.mem_append.mp member with queued | waited
      · exact ⟨.runQueue, by simp, queued⟩
      · exact ⟨.waitQueue p, by simp, waited⟩
    | endpoint ep => exact ⟨.endpoint ep, by simp, member⟩
    | irq irq => exact ⟨.irq irq, by simp, member⟩
    | waitQueue other =>
      by_cases same : other = p
      · subst same
        simp [residents, setProcess, emit] at member
      · simp only [residents, setProcess, emit, Function.update_of_ne same] at member
        exact ⟨.waitQueue other, by simp, member⟩

theorem story_retire (current : Thread) :
    (k.retire current).story = { k.story with lastLeft := none } := by
  unfold retire
  cases current.processState <;> rfl

theorem faithful_retire {current : Thread} (faithful : Faithful k.trace) : Faithful (k.retire current).trace := by
  have told : (k.retire current).story.faithful := by
    rw [story_retire]
    exact faithful
  exact told

theorem stateToUpdate_retire (current : Thread) : (k.retire current).stateToUpdate = k.stateToUpdate := by
  unfold retire
  cases current.processState <;> rfl

/-- The thread that exits takes its stack with it; all the others stopped before. -/
theorem stopped_retire {current : Thread} (synced : k.Synced) (located : Located k.occupants loc)
    (running : k.cpu = .running current.tid) (isCurrent : k.scheduler.current = some current) {place : Place}
    {thread : Thread} (member : thread ∈ (k.retire current).residents place) :
    (k.retire current).Stopped thread.tid thread.state := by
  obtain ⟨origin, elsewhere, before⟩ := mem_residents_retire member
  have other := tid_ne_current located isCurrent elsewhere before
  have stopped := synced.stopped before (by rw [running]; exact other)
  refine stopped.congr (by rw [frames_retire]) ?_
  rw [story_retire]

def requeued (k : Kernel) (current : Thread) (rsp : UInt64) : Kernel :=
  { k.suspend current.tid (.preemptive rsp) .interrupted with scheduler := { k.scheduler with
      current := none
      runQueue := k.scheduler.runQueue ++ [{ current with state := .preemptive rsp }] } }

theorem mem_residents_requeued {current : Thread} {rsp : UInt64} {place : Place} {thread : Thread}
    (member : thread ∈ (k.requeued current rsp).residents place) :
    thread = { current with state := .preemptive rsp } ∨ (place ≠ .current ∧ thread ∈ k.residents place) := by
  cases place with
  | current => cases member
  | runQueue =>
    rcases List.mem_append.mp member with queued | last
    · exact .inr ⟨by simp, queued⟩
    · exact .inl (List.mem_singleton.mp last)
  | endpoint ep => exact .inr ⟨by simp, member⟩
  | irq irq => exact .inr ⟨by simp, member⟩
  | waitQueue p => exact .inr ⟨by simp, member⟩

theorem stopped_requeued {current : Thread} {rsp : UInt64} (synced : k.Synced) (located : Located k.occupants loc)
    (running : k.cpu = .running current.tid) (isCurrent : k.scheduler.current = some current) {place : Place}
    {thread : Thread} (member : thread ∈ (k.requeued current rsp).residents place) :
    (k.requeued current rsp).Stopped thread.tid thread.state := by
  rcases mem_residents_requeued member with rfl | ⟨elsewhere, before⟩
  · exact ⟨⟨_, Function.update_self _ _ _⟩, by simp [story, requeued, suspend, emit, lastStop]⟩
  · have other := tid_ne_current located isCurrent elsewhere before
    have stopped := synced.stopped before (by rw [running]; exact other)
    refine stopped.congr (Function.update_of_ne other _ _) ?_
    have different : current.tid ≠ thread.tid := fun same => other same.symm
    simp [story, requeued, suspend, emit, lastStop, different]

/-! ## Steps that switch to no thread -/

/-- Every thread of the second arrangement stood somewhere in the first, with the same record. -/
def Among (first second : Place → List Thread) : Prop :=
  ∀ place, ∀ thread ∈ second place, ∃ origin, thread ∈ first origin

theorem residents_endpoint {ep : EndpointRef} {state : EndpointState} (mode : k.endpoints ep = state) :
    k.residents (.endpoint ep) = state.threads := by
  rw [residents, mode]

theorem Among.refl (first : Place → List Thread) : Among first first :=
  fun place _ member => ⟨place, member⟩

theorem Among.update {first second : Place → List Thread} (among : Among first second) {target : Place}
    {entered : List Thread} (enter : ∀ thread ∈ entered, ∃ origin, thread ∈ first origin) :
    Among first (Function.update second target entered) := by
  intro place thread member
  by_cases here : place = target
  · subst here
    rw [Function.update_self] at member
    exact enter thread member
  · rw [Function.update_of_ne here] at member
    exact among place thread member

theorem among_wake {source : Place} {thread : Thread} {left : List Thread}
    (waiting : k.residents source = thread :: left) :
    Among k.residents (Function.update (Function.update k.residents source left) .runQueue
      (k.residents .runQueue ++ [thread])) := by
  refine ((Among.refl _).update ?_).update ?_
  · intro other member
    exact ⟨source, by simp [waiting, member]⟩
  · intro other member
    rcases List.mem_append.mp member with queued | woken
    · exact ⟨.runQueue, queued⟩
    · exact ⟨source, by simp [waiting, List.mem_singleton.mp woken]⟩

theorem among_block {current : Thread} (isCurrent : k.scheduler.current = some current) (target : Place)
    (entered : List Thread) (enter : ∀ thread ∈ entered, thread ∈ k.residents target ∨ thread = current) :
    Among k.residents (Function.update (Function.update k.residents target entered) .current []) := by
  refine ((Among.refl _).update ?_).update (by simp)
  intro thread member
  rcases enter thread member with stayed | rfl
  · exact ⟨target, stayed⟩
  · exact ⟨.current, by simp [residents, isCurrent]⟩

theorem among_yield {current : Thread} (isCurrent : k.scheduler.current = some current) :
    Among k.residents { k with
      scheduler := { k.scheduler with
        current := none
        runQueue := k.scheduler.runQueue ++ [current] }
      stateToUpdate := some (.boxed current.tid)
      cpu := .dispatching (some current.tid) .yieldNow }.residents := by
  convert among_block isCurrent .runQueue (k.residents .runQueue ++ [current]) (by simp) using 1
  funext place
  cases place <;> simp [residents]

theorem among_deliver {ep : EndpointRef} {receiver : Thread} {ptr : MessagePtr} {queue : List (Thread × MessagePtr)}
    (mode : k.endpoints ep = .receiversWaiting ((receiver, ptr) :: queue)) (current : Thread) (msg : Message) :
    Among k.residents ((k.emit (.sent ep current.tid msg)).deliver current ep msg receiver ptr queue).residents := by
  simpa [Kernel.deliver, EndpointState.threads] using among_wake (residents_endpoint mode)

theorem among_blockSender {ep : EndpointRef} {current : Thread} (isCurrent : k.scheduler.current = some current)
    (mode : ∀ queue, k.endpoints ep ≠ .receiversWaiting queue) (msg : Message) :
    Among k.residents
      ((k.emit (.sent ep current.tid msg)).blockSender current ep msg (k.endpoints ep).senders).residents := by
  simp only [Kernel.blockSender, residents_emit, residents_block, residents_setEndpoint]
  refine among_block isCurrent _ _ ?_
  rw [residents_endpoint rfl, EndpointState.threads_of_senders mode]
  simp [EndpointState.threads]

theorem among_take {ep : EndpointRef} {sender : Thread} {msg : Message} {queue : List (Thread × Message)}
    (mode : k.endpoints ep = .sendersWaiting ((sender, msg) :: queue)) (current : Thread) :
    Among k.residents (((k.emit (.receiving ep current.tid)).writeBuffer current.tid .zero).take current ep sender msg
      queue).residents := by
  simpa [Kernel.take, EndpointState.threads] using among_wake (residents_endpoint mode)

theorem among_blockReceiver {ep : EndpointRef} {current : Thread} (isCurrent : k.scheduler.current = some current)
    (mode : ∀ queue, k.endpoints ep ≠ .sendersWaiting queue) :
    Among k.residents (((k.emit (.receiving ep current.tid)).writeBuffer current.tid .zero).blockReceiver current ep
      (k.endpoints ep).receivers).residents := by
  simp only [Kernel.blockReceiver, residents_emit, residents_block, residents_setEndpoint, residents_writeBuffer]
  refine among_block isCurrent _ _ ?_
  rw [residents_endpoint rfl, EndpointState.threads_of_receivers mode]
  simp [EndpointState.threads]

theorem among_wait {current : Thread} (isCurrent : k.scheduler.current = some current) (p : ProcessRef) :
    Among k.residents (((k.emit (.waited p current.tid)).setProcess p { k.processes p with
      waitQueue :=
        (k.processes p).waitQueue ++ [current] }).block (.waitSlot p current.tid) (.sysWait p)).residents := by
  simp only [residents_block, residents_setProcess, residents_emit]
  exact among_block isCurrent _ _ (by simp [residents])

theorem among_waitIrq {current : Thread} (isCurrent : k.scheduler.current = some current) (irq : UInt8) :
    Among k.residents (((k.emit (.irqWaited irq current.tid)).setIrqWaiter irq (some current)).block
      (.boxed current.tid) (.sysWaitIrq irq)).residents := by
  simp only [residents_block, residents_setIrqWaiter, residents_emit]
  exact among_block isCurrent _ _ (by simp)

theorem among_unblock {irq : UInt8} {thread : Thread} (waiting : k.scheduler.irqWaiters irq = some thread) :
    Among k.residents ((k.setIrqWaiter irq none).pushBack thread).residents := by
  have occupied : k.residents (.irq irq) = [thread] := by simp [residents, waiting]
  simpa using among_wake occupied

theorem residents_sameTasks (same : k.SameTasks after) : after.residents = k.residents := by
  funext place
  cases place <;> simp [residents, same.current, same.runQueue, same.irqWaiters, same.endpoints, same.waitQueues]

theorem Synced.keep (synced : k.Synced) (among : Among k.residents after.residents)
    (frames : after.frames = k.frames) (story : after.story = k.story)
    (away : ∀ {tid}, after.cpu.Away tid → k.cpu.Away tid) (pointed : after.Pointed) : after.Synced := by
  refine ⟨?_, pointed, ?_⟩
  · intro place thread member apart
    obtain ⟨origin, before⟩ := among place thread member
    exact (synced.stopped before (away apart)).congr (by rw [frames]) (by rw [story])
  · have told : after.story.faithful := by
      rw [story]
      exact synced.faithful
    exact told

theorem Synced.pointed_running (synced : k.Synced) {tid : Tid} (running : k.cpu = .running tid)
    (cpu : after.cpu = k.cpu) (update : after.stateToUpdate = k.stateToUpdate) : after.Pointed := by
  have pointed := synced.pointed
  rw [Pointed, running] at pointed
  rw [Pointed, cpu, running, update]
  exact pointed

theorem Synced.keepRunning (synced : k.Synced) {tid : Tid} (running : k.cpu = .running tid)
    (among : Among k.residents after.residents) (frames : after.frames = k.frames) (story : after.story = k.story)
    (cpu : after.cpu = k.cpu) (update : after.stateToUpdate = k.stateToUpdate) : after.Synced :=
  synced.keep among frames story (by rw [cpu]; exact id) (synced.pointed_running running cpu update)

theorem Synced.keepBlock {moved : Tid → Option Place} {call : BlockingCall} (synced : k.Synced) (ptr : StatePtr)
    (target : Place) (running : k.cpu = .running ptr.tid) (among : Among k.residents after.residents)
    (frames : after.frames = k.frames) (story : after.story = k.story)
    (cpu : after.cpu = .dispatching (some ptr.tid) call) (update : after.stateToUpdate = some ptr)
    (used : ptr.tid < after.nextTid) (located : Located after.occupants moved)
    (stands : ptr.tid ∈ after.occupants target) (reaches : ptr.reaches target = true) : after.Synced := by
  refine synced.keep among frames story ?_ ?_
  · intro tid away
    rw [cpu] at away
    rw [running]
    exact away
  · rw [Pointed, cpu]
    refine ⟨used, ptr, update, rfl, ?_⟩
    intro place here
    rw [located.place_unique here stands]
    exact reaches

theorem Pointed.mono (pointed : k.Pointed) (cpu : after.cpu = k.cpu) (update : after.stateToUpdate = k.stateToUpdate)
    (nextTid : k.nextTid ≤ after.nextTid)
    (reached : ∀ {ptr : StatePtr}, ptr.tid < k.nextTid →
      (∀ place, ptr.tid ∈ k.occupants place → ptr.reaches place = true) →
      ∀ place, ptr.tid ∈ after.occupants place → ptr.reaches place = true) : after.Pointed := by
  have leaving : ∀ {tid}, (tid < k.nextTid ∧ ∃ ptr, k.stateToUpdate = some ptr ∧ ptr.tid = tid ∧
        ∀ place, tid ∈ k.occupants place → ptr.reaches place = true) →
      tid < after.nextTid ∧ ∃ ptr, k.stateToUpdate = some ptr ∧ ptr.tid = tid ∧
        ∀ place, tid ∈ after.occupants place → ptr.reaches place = true := by
    rintro tid ⟨used, ptr, pending, rfl, reaches⟩
    exact ⟨Nat.lt_of_lt_of_le used nextTid, ptr, pending, rfl, reached used reaches⟩
  rw [Pointed, cpu, update]
  rw [Pointed] at pointed
  cases mode : k.cpu with
  | boot => rw [mode] at pointed; exact pointed
  | running tid => rw [mode] at pointed; exact pointed
  | dispatching source call =>
    rw [mode] at pointed
    cases source with
    | none => exact pointed
    | some tid => exact leaving pointed
  | idle tid call => rw [mode] at pointed; exact leaving pointed
  | halted => trivial
  | astray tid => trivial

/-- An interrupt moves a waiter to the run queue, which the pointer of a boxed thread reaches. -/
theorem pointed_unblock {irq : UInt8} {thread : Thread} (pointed : k.Pointed)
    (waiting : k.scheduler.irqWaiters irq = some thread) : ((k.setIrqWaiter irq none).pushBack thread).Pointed := by
  refine pointed.mono rfl rfl (Nat.le_refl _) ?_
  intro ptr used reaches place member
  have occupied : k.occupants (.irq irq) = [thread.tid] := by simp [occupants, residents, waiting]
  rw [occupants_pushBack, occupants_setIrqWaiter] at member
  by_cases front : place = .runQueue
  · subst front
    rw [Function.update_self, Function.update_of_ne (by simp)] at member
    rcases List.mem_append.mp member with queued | woken
    · exact reaches .runQueue queued
    · have boxed := reaches (.irq irq) (by rw [occupied]; exact woken)
      cases ptr with
      | boxed tid => rfl
      | waitSlot p tid => cases boxed
  · rw [Function.update_of_ne front] at member
    by_cases slot : place = .irq irq
    · subst slot
      simp at member
    · rw [Function.update_of_ne slot] at member
      exact reaches place member

theorem mem_residents_create {thread other : Thread} (creates : k.Creates after thread) {place : Place}
    (member : other ∈ after.residents place) : other = thread ∨ other ∈ k.residents place := by
  have residents : after.residents = Function.update k.residents .runQueue (k.residents .runQueue ++ [thread]) := by
    funext place
    cases place <;>
      simp [Kernel.residents, creates.scheduler, creates.endpoints, creates.waitQueues, Scheduler.addThread]
  rw [residents] at member
  by_cases queue : place = .runQueue
  · subst queue
    rw [Function.update_self] at member
    rcases List.mem_append.mp member with old | new
    · exact .inr old
    · exact .inl (List.mem_singleton.mp new)
  · rw [Function.update_of_ne queue] at member
    exact .inr member

theorem synced_create {thread : Thread} (synced : k.Synced) (placed : k.Placed loc) (creates : k.Creates after thread) :
    after.Synced := by
  obtain ⟨entryPoint, userStack, frames⟩ := creates.frames
  have told : after.story = { k.story with
      lastStop := Function.update k.story.lastStop k.nextTid (some thread.state) } := by
    simp only [story, creates.trace, creates.tid, lastLeft, Faithful]
    congr 1
    funext tid
    by_cases new : tid = k.nextTid
    · simp [new, lastStop]
    · have other : k.nextTid ≠ tid := fun same => new same.symm
      simp [new, lastStop, other]
  refine ⟨?_, ?_, ?_⟩
  · intro place newcomer member away
    rw [creates.cpu] at away
    rcases mem_residents_create creates member with rfl | old
    · refine ⟨⟨.entry entryPoint userStack, ?_⟩, ?_⟩
      · rw [frames, creates.tid, Function.update_self]
      · rw [told, creates.tid]
        exact Function.update_self _ _ _
    · have used : newcomer.tid ≠ k.nextTid := Nat.ne_of_lt (placed.tid_lt (List.mem_map_of_mem old))
      refine (synced.stopped old away).congr ?_ ?_
      · rw [frames, Function.update_of_ne used]
      · rw [told]
        exact Function.update_of_ne used _ _
  · refine synced.pointed.mono creates.cpu creates.stateToUpdate (by rw [creates.nextTid]; exact Nat.le_succ _) ?_
    intro ptr used reaches place member
    obtain ⟨other, stands, same⟩ := List.mem_map.mp member
    rcases mem_residents_create creates stands with rfl | old
    · rw [creates.tid] at same
      exact absurd same (Nat.ne_of_gt used)
    · exact reaches place (same ▸ List.mem_map_of_mem old)
  · have faithful : after.story.faithful := by
      rw [told]
      exact synced.faithful
    exact faithful

/-! ## Every step -/

theorem boot_of_yield (orderly : k.Orderly) (taken : k.step .yieldNow = some after)
    (free : k.scheduler.current = none) : k.cpu = .boot := by
  obtain ⟨boot | running, _⟩ := of_yieldNow taken
  · exact boot
  · obtain ⟨tid, cpu⟩ := Cpu.running_of_isRunning running
    obtain ⟨thread, isCurrent, _⟩ := orderly.running cpu
    rw [free] at isCurrent
    cases isCurrent

theorem Synced.boot (synced : k.Synced) (boot : k.cpu = .boot) :
    k.stateToUpdate = none ∧ ∀ {place thread}, thread ∈ k.residents place → k.Stopped thread.tid thread.state := by
  have pointed := synced.pointed
  rw [Pointed, boot] at pointed
  refine ⟨pointed, fun member => synced.stopped member ?_⟩
  rw [boot]
  trivial

theorem synced_panic (faithful : Faithful k.trace) : k.panic.Synced :=
  ⟨fun _ away => away.elim, trivial, faithful⟩

theorem Synced.running (synced : k.Synced) {tid : Tid} (running : k.cpu = .running tid) : k.stateToUpdate = none := by
  have pointed := synced.pointed
  rw [Pointed, running] at pointed
  exact pointed

theorem ready_exit {current next : Thread} {rest : List Thread} (synced : k.Synced)
    (located : Located k.occupants loc) (running : k.cpu = .running current.tid)
    (isCurrent : k.scheduler.current = some current) (queued : (k.retire current).scheduler.runQueue = next :: rest)
    (rsp : UInt64) :
    ((k.retire current).makeCurrent next rest).Ready rsp next ∧
      ((k.retire current).makeCurrent next rest).stateToUpdate = none := by
  have idle : (k.retire current).stateToUpdate = none := (stateToUpdate_retire current).trans (synced.running running)
  exact ⟨ready_makeCurrent queued (stopped_retire synced located running isCurrent) idle
    (faithful_retire synced.faithful) rsp, idle⟩

theorem ready_switch {source : Option Tid} {call : BlockingCall} {next : Thread} {rest : List Thread}
    {rsp : UInt64} (synced : k.Synced) (dispatching : k.cpu = .dispatching source call)
    (queued : k.scheduler.runQueue = next :: rest) (safe : k.switchSafe (.dispatch rsp) = true) (finishes : Bool) :
    ((k.makeCurrent next rest).leave source rsp call finishes).Ready rsp next ∧
      (next.state.isPreemptive = true ∨
        ((k.makeCurrent next rest).leave source rsp call finishes).stateToUpdate = none ∨
        (((k.makeCurrent next rest).leave source rsp call finishes).frames next.tid).any
          (fun frame => frame.2.finishesSwitch) = true) := by
  cases source with
  | none =>
    have pointed := synced.pointed
    rw [Pointed, dispatching] at pointed
    have stopped : ∀ {place thread}, thread ∈ k.residents place → k.Stopped thread.tid thread.state := by
      intro place thread member
      refine synced.stopped member ?_
      rw [dispatching]
      trivial
    exact ⟨ready_makeCurrent queued stopped pointed synced.faithful rsp, .inr (.inl pointed)⟩
  | some source =>
    simp only [switchSafe, dispatching, queued, switchesTo, Bool.and_eq_true, bne_iff_ne, Bool.or_eq_true] at safe
    obtain ⟨apart, fit⟩ := safe
    refine ⟨ready_leave synced dispatching queued apart rsp finishes, fit.imp_right fun frame => .inr ?_⟩
    have kept : ((k.makeCurrent next rest).leave (some source) rsp call finishes).frames next.tid = k.frames next.tid :=
      Function.update_of_ne apart _ _
    rw [kept]
    exact frame

theorem Moves.synced {op : Op} {moved : Tid → Option Place} (moves : k.Moves op after) (orderly : k.Orderly)
    (taken : k.step op = some after) (placed : k.Placed loc) (located : Located after.occupants moved)
    (safe : k.switchSafe op = true) (synced : k.Synced) : after.Synced := by
  cases moves with
  | same quiet same =>
    have residents := residents_sameTasks same
    have told : after.story = k.story := by
      rcases same.trace with trace | ⟨p, tid, trace⟩ | ⟨irq, tid, trace⟩ <;> rw [story, trace] <;> rfl
    refine synced.keep (residents ▸ Among.refl _) same.frames told (by rw [same.cpu]; exact id) ?_
    refine synced.pointed.mono same.cpu same.stateToUpdate (Nat.le_of_eq same.nextTid.symm) ?_
    intro ptr _ reaches place member
    rw [occupants, residents] at member
    exact reaches place member
  | halt quiet => exact synced_panic synced.faithful
  | create quiet creates => exact synced_create synced placed creates
  | @yield current isCurrent =>
    have running := orderly.running_current taken isCurrent
    refine synced.keepBlock (.boxed current.tid) .runQueue running (among_yield isCurrent) rfl rfl rfl rfl
      (placed.tid_lt_current isCurrent) located ?_ rfl
    simp [occupants, residents, StatePtr.tid]
  | bootYield free =>
    obtain ⟨_, stopped⟩ := synced.boot (boot_of_yield orderly taken free)
    exact ⟨fun member _ => (stopped member).congr rfl rfl, rfl, synced.faithful⟩
  | deliver reached mode =>
    obtain ⟨_, _, _, _, isCurrent, _⟩ := sending_spec reached
    have running := orderly.running_current taken isCurrent
    exact synced.keepRunning running (among_deliver mode _ _) rfl rfl rfl rfl
  | @blockSender op current ep msg reached mode =>
    obtain ⟨_, _, _, _, isCurrent, _⟩ := sending_spec reached
    have running := orderly.running_current taken isCurrent
    refine synced.keepBlock (.boxed current.tid) (.endpoint ep) running
      (among_blockSender isCurrent mode msg) rfl rfl rfl
      rfl (placed.tid_lt_current isCurrent) located ?_ rfl
    simp [Kernel.blockSender, EndpointState.threads, StatePtr.tid]
  | drop reached mode =>
    obtain ⟨_, _, _, _, isCurrent, _⟩ := sending_spec reached
    exact synced.keepRunning (orderly.running_current taken isCurrent) (Among.refl _) rfl rfl rfl rfl
  | take reached mode =>
    obtain ⟨_, _, _, _, isCurrent, _⟩ := receiving_spec reached
    have running := orderly.running_current taken isCurrent
    exact synced.keepRunning running (among_take mode _) rfl rfl rfl rfl
  | @blockReceiver op current ep reached mode =>
    obtain ⟨_, _, _, _, isCurrent, _⟩ := receiving_spec reached
    have running := orderly.running_current taken isCurrent
    refine synced.keepBlock (.boxed current.tid) (.endpoint ep) running (among_blockReceiver isCurrent mode) rfl rfl rfl
      rfl (placed.tid_lt_current isCurrent) located ?_ rfl
    simp [Kernel.blockReceiver, EndpointState.threads, StatePtr.tid]
  | conjure reached mode =>
    obtain ⟨_, _, _, _, isCurrent, _⟩ := receiving_spec reached
    exact synced.keepRunning (orderly.running_current taken isCurrent) (Among.refl _) rfl rfl rfl rfl
  | @wait handle current p isCurrent inside =>
    have running := orderly.running_current taken isCurrent
    refine synced.keepBlock (.waitSlot p current.tid) (.waitQueue p) running (among_wait isCurrent p) rfl rfl rfl rfl
      (placed.tid_lt_current isCurrent) located ?_ (by simp [StatePtr.reaches])
    simp [StatePtr.tid]
  | @waitIrq handle current irq isCurrent blocks =>
    have running := orderly.running_current taken isCurrent
    refine synced.keepBlock (.boxed current.tid) (.irq irq) running (among_waitIrq isCurrent irq) rfl rfl rfl rfl
      (placed.tid_lt_current isCurrent) located ?_ rfl
    simp [StatePtr.tid]
  | @unblock irq thread waiting =>
    exact synced.keep (among_unblock waiting) rfl rfl id (pointed_unblock synced.pointed waiting)
  | wake idle =>
    have pointed := synced.pointed
    rw [Pointed, idle] at pointed
    exact synced.keep (Among.refl _) rfl rfl (by rw [idle]; exact id) pointed
  | idle dispatching empty =>
    have pointed := synced.pointed
    rw [Pointed, dispatching] at pointed
    exact synced.keep (Among.refl _) rfl rfl (by rw [dispatching]; exact id) pointed
  | switchCooperative dispatching queued cooperative =>
    obtain ⟨ready, fit⟩ := ready_switch synced dispatching queued safe true
    refine ready.resume (fit.resolve_left ?_)
    simp [cooperative, SavedThreadState.isPreemptive]
  | switchPreemptive dispatching queued preemptive =>
    obtain ⟨ready, _⟩ := ready_switch synced dispatching queued safe false
    exact (ready.afterSwitch _).resume (.inl (stateToUpdate_afterSwitch _))
  | refuse dispatching queued => exact synced_panic synced.faithful
  | exitCooperative isCurrent queued cooperative =>
    have running := orderly.running_current taken isCurrent
    obtain ⟨ready, idle⟩ := ready_exit synced placed.located running isCurrent queued _
    exact ready.resume (.inl idle)
  | exitPreemptive isCurrent queued preemptive =>
    have running := orderly.running_current taken isCurrent
    obtain ⟨ready, _⟩ := ready_exit synced placed.located running isCurrent queued _
    exact (ready.afterSwitch _).resume (.inl (stateToUpdate_afterSwitch _))
  | exitLast isCurrent => exact synced_panic (faithful_retire synced.faithful)
  | @preempt tid current next rest rsp running isCurrent same queued =>
    subst same
    have ready : ((k.requeued current rsp).makeCurrent next rest).Ready stubRax next :=
      ready_makeCurrent queued (stopped_requeued synced placed.located running isCurrent) (synced.running running)
        synced.faithful stubRax
    exact ready.resume (.inl (synced.running running))
  -- a tick in the waiting loop of a call saves a frame that no thread's state will name
  | leaveIdle idle queued => simp [switchSafe, idle, queued] at safe
  | leaveBoot boot queued =>
    obtain ⟨idle, stopped⟩ := synced.boot boot
    exact (ready_makeCurrent queued stopped idle synced.faithful stubRax).resume (.inl idle)

/-! ## Every run -/

theorem synced_booted (bootCr3 : UInt64) (info : BootInfo) (image : InitImage) :
    (booted bootCr3 info image).Synced := by
  refine ⟨?_, rfl, trivial⟩
  intro place thread member _
  cases place with
  | runQueue =>
    have first : thread = ((new bootCr3).newUserThread image.entryPoint userStackTop image.cr3 0 0 image.stackBase).2 :=
      List.mem_singleton.mp member
    subst first
    exact ⟨⟨_, rfl⟩, rfl⟩
  | current => cases member
  | endpoint ep => cases member
  | irq irq => cases member
  | waitQueue p =>
    simp [residents, booted, spawnProcess, newUserThread, setCSpace, setProcess, pushBack, emit, new,
      ProcessState.new] at member

section Runs

variable {bootCr3 : UInt64} {info : BootInfo} {image : InitImage} {history : List (Kernel × Op)}

theorem synced_of_run (run : KernelRun bootCr3 info image history k)
    (safe : ∀ entry ∈ history, entry.1.switchSafe entry.2 = true) : k.Synced := by
  revert safe
  refine run.induct (fun past state => (∀ entry ∈ past, entry.1.switchSafe entry.2 = true) → state.Synced) ?_ ?_
  · exact fun _ => synced_booted bootCr3 info image
  · intro past state op after earlier ih taken safe
    have orderly := orderly_of_run earlier
    obtain ⟨_, placed, _⟩ := placed_of_run earlier
    obtain ⟨_, reached, _⟩ := placed_of_run (earlier.next taken)
    have synced := ih fun entry member => safe entry (List.mem_append_left _ member)
    exact (moves_of_step orderly taken).synced orderly taken placed reached.located
      (safe (state, op) (by simp)) synced

/-- In a run whose switches are all safe, every thread switched to continues where it last stopped
and every `after_switch` updates the thread just suspended. -/
theorem faithful_of_run (run : KernelRun bootCr3 info image history k)
    (safe : ∀ entry ∈ history, entry.1.switchSafe entry.2 = true) : Faithful k.trace :=
  (synced_of_run run safe).faithful

/-- `init` waits for the keyboard in its idle loop, is woken by the interrupt, and switches to
itself with the state of its first start. -/
theorem stale_selfSwitch : ∃ history k, KernelRun 0x1000 ⟨none, none, 0⟩ ⟨0x400000, 0x2000, 0x10000⟩ history k ∧
    history.map Prod.snd = [.yieldNow, .dispatch 1, .sysWaitIrq 1, .dispatch 0x11d00, .unblockIrq 1, .wake,
      .dispatch 0x11d00] ∧ ¬ Faithful k.trace := by
  obtain ⟨history, k, run, labels, _, wrong⟩ := Base.Run.of_check step (fun _ _ => true)
    (booted 0x1000 ⟨none, none, 0⟩ ⟨0x400000, 0x2000, 0x10000⟩)
    [.yieldNow, .dispatch 1, .sysWaitIrq 1, .dispatch 0x11d00, .unblockIrq 1, .wake, .dispatch 0x11d00]
    (fun k => decide (¬ Faithful k.trace)) (by decide +kernel)
  exact ⟨history, k, run, labels, of_decide_eq_true wrong⟩

/-- Two threads hand the CPU to each other through the timer, a yield and a wait. -/
theorem faithful_exchange : ∃ history k, KernelRun 0x1000 ⟨none, none, 0⟩ ⟨0x400000, 0x2000, 0x10000⟩ history k ∧
    history.map Prod.snd = [.yieldNow, .dispatch 1, .spawnThread 0x400100 0x7000 0x20000, .yieldNow, .dispatch 0x11d00,
      .timerTick 0x21e00, .sysWaitIrq 1, .dispatch 0x11c00] ∧ Faithful k.trace := by
  obtain ⟨history, k, run, labels, safe, _⟩ := Base.Run.of_check step switchSafe
    (booted 0x1000 ⟨none, none, 0⟩ ⟨0x400000, 0x2000, 0x10000⟩)
    [.yieldNow, .dispatch 1, .spawnThread 0x400100 0x7000 0x20000, .yieldNow, .dispatch 0x11d00, .timerTick 0x21e00,
      .sysWaitIrq 1, .dispatch 0x11c00]
    (fun _ => true) (by decide +kernel)
  exact ⟨history, k, run, labels, faithful_of_run run safe⟩

-- The timer switches away from an idle loop, and `after_switch` then records the tag in `rax`.
example : (Base.execute step (fun _ _ => true) (booted 0x1000 ⟨none, none, 0⟩ ⟨0x400000, 0x2000, 0x10000⟩)
    [.yieldNow, .dispatch 1, .spawnThread 0x400100 0x7000 0x20000, .sysWaitIrq 1, .dispatch 0x11d00, .sysWaitIrq 4,
      .dispatch 0x21d00, .unblockIrq 1, .timerTick 0x21c00, .unblockIrq 14, .yieldNow, .dispatch 0x11c00]).any
    (fun k => decide (¬ Faithful k.trace)) = true := by
  decide +kernel

-- A thread that left through `switch_context_to_preemptive` comes back without calling `after_switch`.
example : (Base.execute step (fun _ _ => true) (booted 0x1000 ⟨none, none, 0⟩ ⟨0x400000, 0x2000, 0x10000⟩)
    [.yieldNow, .dispatch 1, .spawnThread 0x400100 0x7000 0x20000, .timerTick 0x11e00, .sysWaitIrq 1, .dispatch 0x21d00,
      .unblockIrq 1, .yieldNow, .dispatch 0x11d00, .sysWaitIrq 1, .dispatch 0x21c00]).any
    (fun k => decide (¬ Faithful k.trace)) = true := by
  decide +kernel

end Runs

end Kernel

end ElseOS
