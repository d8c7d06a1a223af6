import ElseOS.Capability

/-! Threads, their saved states, and the containers that own them. -/

set_option autoImplicit false

namespace ElseOS

/-- Which boxed thread this is. The source tells threads apart by ownership alone:
kernel and user threads count their `id` separately, so `id` is not an identity. -/
abbrev Tid := Nat

structure Message where
  rdi : UInt64
  rsi : UInt64
  rdx : UInt64
  r10 : UInt64
  r8 : UInt64
  r9 : UInt64
  deriving DecidableEq, Repr

def Message.zero : Message := ⟨0, 0, 0, 0, 0, 0⟩

/-- Kind of the frame a suspended thread left on its kernel stack, with the
stack pointer that leads to it. -/
inductive SavedThreadState where
  | cooperative (rsp : UInt64)
  | preemptive (rsp : UInt64)
  deriving DecidableEq, Repr

structure Thread where
  tid : Tid
  id : UInt64
  state : SavedThreadState
  stackBase : UInt64
  cr3 : Option UInt64
  cspace : Option CSpaceRef
  processState : Option ProcessRef
  deriving DecidableEq, Repr

namespace Thread

def STACK_SIZE : UInt64 := 1024 * 8

def stackTop (thread : Thread) : UInt64 := thread.stackBase + STACK_SIZE

def contextSize : UInt64 := 56

def initialState (stackBase : UInt64) : SavedThreadState :=
  .cooperative (stackBase + STACK_SIZE - contextSize)

def setState (tid : Tid) (state : SavedThreadState) (thread : Thread) : Thread :=
  if thread.tid = tid then { thread with state := state } else thread

@[simp] theorem setState_tid (tid : Tid) (state : SavedThreadState) (thread : Thread) :
    (thread.setState tid state).tid = thread.tid := by
  unfold setState
  split
  · rfl
  · rfl

theorem setState_other {tid : Tid} {state : SavedThreadState} {thread : Thread}
    (other : thread.tid ≠ tid) : thread.setState tid state = thread := if_neg other

end Thread

/-- The address of the `msg_buf` local of the owner's `sys_recv`. -/
structure MessagePtr where
  owner : Tid
  deriving DecidableEq, Repr

inductive EndpointState where
  | idle
  | sendersWaiting (queue : List (Thread × Message))
  | receiversWaiting (queue : List (Thread × MessagePtr))
  deriving DecidableEq, Repr

namespace EndpointState

def new : EndpointState := .idle

def senders : EndpointState → List (Thread × Message)
  | .sendersWaiting queue => queue
  | _ => []

def receivers : EndpointState → List (Thread × MessagePtr)
  | .receiversWaiting queue => queue
  | _ => []

def threads : EndpointState → List Thread
  | .idle => []
  | .sendersWaiting queue => queue.map Prod.fst
  | .receiversWaiting queue => queue.map Prod.fst

def mapThreads (f : Thread → Thread) : EndpointState → EndpointState
  | .idle => .idle
  | .sendersWaiting queue => .sendersWaiting (queue.map fun entry => (f entry.1, entry.2))
  | .receiversWaiting queue => .receiversWaiting (queue.map fun entry => (f entry.1, entry.2))

@[simp] theorem threads_mapThreads (f : Thread → Thread) (state : EndpointState) :
    (state.mapThreads f).threads = state.threads.map f := by
  cases state with
  | idle => rfl
  | sendersWaiting queue => simp [mapThreads, threads, Function.comp_def]
  | receiversWaiting queue => simp [mapThreads, threads, Function.comp_def]

theorem threads_of_senders {state : EndpointState} (mode : ∀ queue, state ≠ .receiversWaiting queue) :
    state.threads = state.senders.map Prod.fst := by
  cases state with
  | idle => rfl
  | sendersWaiting queue => rfl
  | receiversWaiting queue => exact absurd rfl (mode queue)

theorem threads_of_receivers {state : EndpointState} (mode : ∀ queue, state ≠ .sendersWaiting queue) :
    state.threads = state.receivers.map Prod.fst := by
  cases state with
  | idle => rfl
  | sendersWaiting queue => exact absurd rfl (mode queue)
  | receiversWaiting queue => rfl

end EndpointState

/-- Waiting threads are stored by value here, not boxed. -/
structure ProcessState where
  terminated : Bool
  waitQueue : List Thread
  deriving DecidableEq, Repr

def ProcessState.new : ProcessState := ⟨false, []⟩

structure Scheduler where
  runQueue : List Thread
  current : Option Thread
  irqWaiters : UInt8 → Option Thread
  pendingIrqs : UInt8 → Bool

namespace Scheduler

def new : Scheduler := ⟨[], none, fun _ => none, fun _ => false⟩

def addThread (scheduler : Scheduler) (thread : Thread) : Scheduler :=
  { scheduler with runQueue := scheduler.runQueue ++ [thread] }

end Scheduler

end ElseOS
