import ElseOS.Task.Step

/-! Where threads stand, and what context switching leaves alone. -/

set_option autoImplicit false

namespace ElseOS

inductive Place where
  | current
  | runQueue
  | endpoint (ep : EndpointRef)
  | irq (irq : UInt8)
  | waitQueue (state : ProcessRef)
  deriving DecidableEq, Repr

def StatePtr.reaches : StatePtr → Place → Bool
  | .boxed _, .waitQueue _ => false
  | .boxed _, _ => true
  | .waitSlot p _, .waitQueue other => p = other
  | .waitSlot _ _, _ => false

namespace Kernel

def residents (k : Kernel) : Place → List Thread
  | .current => k.scheduler.current.toList
  | .runQueue => k.scheduler.runQueue
  | .endpoint ep => (k.endpoints ep).threads
  | .irq irq => (k.scheduler.irqWaiters irq).toList
  | .waitQueue p => (k.processes p).waitQueue

def occupants (k : Kernel) (place : Place) : List Tid := (k.residents place).map Thread.tid

/-! ## Residents after each update -/

@[simp] theorem residents_emit (k : Kernel) (event : Event) : (k.emit event).residents = k.residents := rfl

@[simp] theorem residents_panic (k : Kernel) : k.panic.residents = k.residents := rfl

@[simp] theorem residents_setCSpace (k : Kernel) (cs : CSpaceRef) (cspace : CSpace) :
    (k.setCSpace cs cspace).residents = k.residents := rfl

@[simp] theorem residents_suspend (k : Kernel) (tid : Tid) (state : SavedThreadState) (resume : Resume) :
    (k.suspend tid state resume).residents = k.residents := rfl

@[simp] theorem residents_setEndpoint (k : Kernel) (ep : EndpointRef) (state : EndpointState) :
    (k.setEndpoint ep state).residents = Function.update k.residents (.endpoint ep) state.threads := by
  funext place
  cases place with
  | endpoint other =>
    by_cases same : other = ep
    · subst same
      simp [residents, setEndpoint]
    · simp [residents, setEndpoint, Function.update_of_ne, same]
  | current => simp [residents, setEndpoint]
  | runQueue => simp [residents, setEndpoint]
  | irq irq => simp [residents, setEndpoint]
  | waitQueue p => simp [residents, setEndpoint]

@[simp] theorem residents_setProcess (k : Kernel) (p : ProcessRef) (state : ProcessState) :
    (k.setProcess p state).residents = Function.update k.residents (.waitQueue p) state.waitQueue := by
  funext place
  cases place with
  | waitQueue other =>
    by_cases same : other = p
    · subst same
      simp [residents, setProcess]
    · simp [residents, setProcess, Function.update_of_ne, same]
  | current => simp [residents, setProcess]
  | runQueue => simp [residents, setProcess]
  | irq irq => simp [residents, setProcess]
  | endpoint ep => simp [residents, setProcess]

@[simp] theorem residents_setIrqWaiter (k : Kernel) (irq : UInt8) (waiter : Option Thread) :
    (k.setIrqWaiter irq waiter).residents = Function.update k.residents (.irq irq) waiter.toList := by
  funext place
  cases place with
  | irq other =>
    by_cases same : other = irq
    · subst same
      simp [residents, setIrqWaiter]
    · simp [residents, setIrqWaiter, Function.update_of_ne, same]
  | current => simp [residents, setIrqWaiter]
  | runQueue => simp [residents, setIrqWaiter]
  | endpoint ep => simp [residents, setIrqWaiter]
  | waitQueue p => simp [residents, setIrqWaiter]

@[simp] theorem residents_writeBuffer (k : Kernel) (tid : Tid) (msg : Message) :
    (k.writeBuffer tid msg).residents = k.residents := rfl

@[simp] theorem residents_pushBack (k : Kernel) (thread : Thread) :
    (k.pushBack thread).residents =
      Function.update k.residents .runQueue (k.residents .runQueue ++ [thread]) := by
  funext place
  cases place <;> simp [residents, pushBack, Scheduler.addThread]

@[simp] theorem residents_makeCurrent (k : Kernel) (next : Thread) (rest : List Thread) :
    (k.makeCurrent next rest).residents =
      Function.update (Function.update k.residents .runQueue rest) .current [next] := by
  funext place
  cases place <;> simp [residents, makeCurrent, prepareThreadSwitch]

@[simp] theorem residents_block (k : Kernel) (ptr : StatePtr) (call : BlockingCall) :
    (k.block ptr call).residents = Function.update k.residents .current [] := by
  funext place
  cases place <;> simp [residents, block]

theorem residents_writeState (k : Kernel) (ptr : StatePtr) (state : SavedThreadState) (place : Place) :
    (k.writeState ptr state).residents place =
      if ptr.reaches place then (k.residents place).map (Thread.setState ptr.tid state)
      else k.residents place := by
  cases ptr with
  | boxed tid =>
    cases place with
    | current =>
      cases current : k.scheduler.current <;> simp [residents, writeState, StatePtr.reaches, current, StatePtr.tid]
    | irq irq =>
      cases waiter : k.scheduler.irqWaiters irq <;> simp [residents, writeState, StatePtr.reaches, waiter, StatePtr.tid]
    | runQueue => simp [residents, writeState, StatePtr.reaches, StatePtr.tid]
    | endpoint ep => simp [residents, writeState, StatePtr.reaches, StatePtr.tid]
    | waitQueue p => simp [residents, writeState, StatePtr.reaches]
  | waitSlot p tid =>
    simp only [writeState, residents_setProcess]
    by_cases here : place = .waitQueue p
    · subst here
      simp [StatePtr.reaches, residents, StatePtr.tid]
    · rw [Function.update_of_ne here]
      cases place with
      | waitQueue other =>
        have different : p ≠ other := fun same => here (same ▸ rfl)
        simp [StatePtr.reaches, different]
      | current => rfl
      | runQueue => rfl
      | endpoint ep => rfl
      | irq irq => rfl

/-! ## Threads seen through one of their properties -/

section Seen

variable {α : Type} (see : Thread → α) (k : Kernel)

def seen (place : Place) : List α := (k.residents place).map see

theorem seen_eq : k.seen see = List.map see ∘ k.residents := rfl

@[simp] theorem seen_emit (event : Event) : (k.emit event).seen see = k.seen see := rfl

@[simp] theorem seen_panic : k.panic.seen see = k.seen see := rfl

@[simp] theorem seen_writeBuffer (tid : Tid) (msg : Message) : (k.writeBuffer tid msg).seen see = k.seen see := rfl

@[simp] theorem seen_suspend (tid : Tid) (state : SavedThreadState) (resume : Resume) :
    (k.suspend tid state resume).seen see = k.seen see := rfl

@[simp] theorem seen_setEndpoint (ep : EndpointRef) (state : EndpointState) :
    (k.setEndpoint ep state).seen see = Function.update (k.seen see) (.endpoint ep) (state.threads.map see) := by
  simp only [seen_eq, residents_setEndpoint, Function.comp_update]

@[simp] theorem seen_setProcess (p : ProcessRef) (state : ProcessState) :
    (k.setProcess p state).seen see = Function.update (k.seen see) (.waitQueue p) (state.waitQueue.map see) := by
  simp only [seen_eq, residents_setProcess, Function.comp_update]

@[simp] theorem seen_setIrqWaiter (irq : UInt8) (waiter : Option Thread) :
    (k.setIrqWaiter irq waiter).seen see = Function.update (k.seen see) (.irq irq) (waiter.toList.map see) := by
  simp only [seen_eq, residents_setIrqWaiter, Function.comp_update]

@[simp] theorem seen_pushBack (thread : Thread) :
    (k.pushBack thread).seen see = Function.update (k.seen see) .runQueue (k.seen see .runQueue ++ [see thread]) := by
  simp only [seen_eq, residents_pushBack, Function.comp_update, Function.comp_apply, List.map_append, List.map_cons,
    List.map_nil]

@[simp] theorem seen_block (ptr : StatePtr) (call : BlockingCall) :
    (k.block ptr call).seen see = Function.update (k.seen see) .current [] := by
  simp only [seen_eq, residents_block, Function.comp_update, List.map_nil]

@[simp] theorem seen_makeCurrent (next : Thread) (rest : List Thread) :
    (k.makeCurrent next rest).seen see =
      Function.update (Function.update (k.seen see) .runQueue (rest.map see)) .current [see next] := by
  simp only [seen_eq, residents_makeCurrent, Function.comp_update, List.map_cons, List.map_nil]

end Seen

/-! ## Context switching -/

theorem resume_cases (k : Kernel) (tid : Tid) (state : SavedThreadState) (rax : UInt64) :
    ((∀ resume, k.frames tid ≠ some (state, resume)) ∧
      k.resume tid state rax = { k.emit (.dispatched tid state) with cpu := .astray tid }) ∨
    ∃ resume, k.frames tid = some (state, resume) ∧
      k.resume tid state rax = { k.emit (.dispatched tid state) with
        frames := Function.update k.frames tid none }.continueAt tid resume rax := by
  have same : (k.emit (.dispatched tid state)).frames = k.frames := rfl
  unfold Kernel.resume
  simp only [same]
  cases frame : k.frames tid with
  | none => simp
  | some left =>
    obtain ⟨saved, resume⟩ := left
    by_cases matching : saved = state
    · subst matching
      simp
    · simp [matching]

def ofSwitch : Event → Bool
  | .suspended _ _ | .dispatched _ _ | .stateWritten _ _ | .received _ _ _ => true
  | _ => false

/-- An observation of the kernel that switching contexts leaves alone. -/
structure Unswitched {α : Type} (observe : Kernel → α) : Prop where
  cpu : ∀ k cpu, observe { k with cpu := cpu } = observe k
  frames : ∀ k frames, observe { k with frames := frames } = observe k
  stateToUpdate : ∀ k ptr, observe { k with stateToUpdate := ptr } = observe k
  emit : ∀ k event, ofSwitch event = true → observe (emit k event) = observe k
  writeState : ∀ k ptr state, observe (writeState k ptr state) = observe k

namespace Unswitched

variable {α : Type} {observe : Kernel → α}

theorem suspend (unswitched : Unswitched observe) (k : Kernel) (tid : Tid) (state : SavedThreadState)
    (resume : Resume) : observe (k.suspend tid state resume) = observe k :=
  (unswitched.frames (k.emit _) _).trans (unswitched.emit k _ rfl)

theorem afterSwitch (unswitched : Unswitched observe) (k : Kernel) (rsp : UInt64) :
    observe (k.afterSwitch rsp) = observe k := by
  unfold Kernel.afterSwitch
  split
  · rfl
  · rw [unswitched.stateToUpdate, unswitched.emit _ _ rfl, unswitched.writeState]

theorem continueAt (unswitched : Unswitched observe) (k : Kernel) (tid : Tid) (resume : Resume) (rax : UInt64) :
    observe (k.continueAt tid resume rax) = observe k := by
  have finished : observe { (if resume.finishesSwitch then k.afterSwitch rax else k) with cpu := .running tid } =
      observe k := by
    rw [unswitched.cpu]
    split
    · exact unswitched.afterSwitch k rax
    · rfl
  unfold Kernel.continueAt
  cases resume.receivesFrom with
  | some ep => exact (unswitched.emit _ _ rfl).trans finished
  | none => exact finished

theorem resume (unswitched : Unswitched observe) (k : Kernel) (tid : Tid) (state : SavedThreadState)
    (rax : UInt64) : observe (k.resume tid state rax) = observe k := by
  rcases k.resume_cases tid state rax with ⟨_, lost⟩ | ⟨resume, _, found⟩
  · rw [lost, unswitched.cpu, unswitched.emit _ _ rfl]
  · rw [found, unswitched.continueAt, unswitched.frames, unswitched.emit _ _ rfl]

end Unswitched

theorem cpu_resume (k : Kernel) (tid : Tid) (state : SavedThreadState) (rax : UInt64) :
    (k.resume tid state rax).cpu = .running tid ∨ (k.resume tid state rax).cpu = .astray tid := by
  rcases k.resume_cases tid state rax with ⟨_, lost⟩ | ⟨resume, _, found⟩
  · rw [lost]
    exact .inr rfl
  · rw [found]
    left
    unfold continueAt
    cases resume.receivesFrom <;> rfl

theorem trace_writeState (k : Kernel) (ptr : StatePtr) (state : SavedThreadState) :
    (k.writeState ptr state).trace = k.trace := by
  cases ptr <;> rfl

@[simp] theorem frames_afterSwitch (k : Kernel) (rsp : UInt64) : (k.afterSwitch rsp).frames = k.frames := by
  unfold afterSwitch
  split
  next => rfl
  next ptr _ => cases ptr <;> rfl

@[simp] theorem frames_continueAt (k : Kernel) (tid : Tid) (resume : Resume) (rax : UInt64) :
    (k.continueAt tid resume rax).frames = k.frames := by
  have finished : (if resume.finishesSwitch then k.afterSwitch rax else k).frames = k.frames := by
    split
    · exact frames_afterSwitch k rax
    · rfl
  unfold continueAt
  cases resume.receivesFrom <;> exact finished

/-- What does not depend on the saved states survives a switch. -/
theorem unswitched_seen {α : Type} (see : Thread → α)
    (stateless : ∀ tid state thread, see (Thread.setState tid state thread) = see thread) : Unswitched (seen see) where
  cpu _ _ := rfl
  frames _ _ := rfl
  stateToUpdate _ _ := rfl
  emit _ _ _ := rfl
  writeState k ptr state := by
    funext place
    simp only [seen, residents_writeState]
    split
    · simp [Function.comp_def, stateless]
    · rfl

theorem unswitched_occupants : Unswitched occupants := unswitched_seen Thread.tid Thread.setState_tid

inductive Meeting where
  | idle
  | senders (queue : List (Tid × Message))
  | receivers (queue : List (Tid × MessagePtr))
  deriving DecidableEq, Repr

def Meeting.sending : Meeting → List (Tid × Message)
  | .senders queue => queue
  | _ => []

def Meeting.receiving : Meeting → List (Tid × MessagePtr)
  | .receivers queue => queue
  | _ => []

def meetingOf : EndpointState → Meeting
  | .idle => .idle
  | .sendersWaiting queue => .senders (queue.map fun entry => (entry.1.tid, entry.2))
  | .receiversWaiting queue => .receivers (queue.map fun entry => (entry.1.tid, entry.2))

def meeting (k : Kernel) (ep : EndpointRef) : Meeting := meetingOf (k.endpoints ep)

@[simp] theorem meeting_setEndpoint (k : Kernel) (ep : EndpointRef) (state : EndpointState) :
    (k.setEndpoint ep state).meeting = Function.update k.meeting ep (meetingOf state) := by
  funext other
  by_cases same : other = ep
  · subst same
    simp [meeting, setEndpoint]
  · simp [meeting, setEndpoint, same]

theorem unswitched_meeting : Unswitched meeting where
  cpu _ _ := rfl
  frames _ _ := rfl
  stateToUpdate _ _ := rfl
  emit _ _ _ := rfl
  writeState k ptr state := by
    funext ep
    cases ptr with
    | boxed tid =>
      cases mode : k.endpoints ep <;>
        simp [meeting, meetingOf, writeState, EndpointState.mapThreads, mode, Function.comp_def]
    | waitSlot p tid => rfl

structure Objects where
  cspaces : CSpaceRef → CSpace
  nextEndpoint : EndpointRef
  nextProcess : ProcessRef
  nextCSpace : CSpaceRef

def objects (k : Kernel) : Objects := ⟨k.cspaces, k.nextEndpoint, k.nextProcess, k.nextCSpace⟩

theorem unswitched_objects : Unswitched objects where
  cpu _ _ := rfl
  frames _ _ := rfl
  stateToUpdate _ _ := rfl
  emit _ _ _ := rfl
  writeState k ptr state := by
    cases ptr with
    | boxed tid => rfl
    | waitSlot p tid => rfl

end Kernel

end ElseOS
